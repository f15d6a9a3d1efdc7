import CryptoTrading.TradingEngine.FillAccount
import CryptoTrading.TradingEngine.OrderHistory
import CryptoTrading.TradingEngine.ThreadsSpec

/-! # How often a fill is applied

The FILLED branch of `HandleOrderUpdate` does not look whether the order is
live, so each terminal state that a pass replays is applied in full once more. -/
set_option autoImplicit false

namespace CryptoTrading

open TradingEngine

namespace Threads

/-- What the step moves for the order, read off the positions before and after it. -/
def fillOf (registry : InstrumentRegistry) (orderId : String) (state : Threads)
    (action : ThreadAction) : ℚ :=
  match applied state action, step registry state action with
  | some report, some next =>
      if report.orderId = orderId then
        state.engine.positionManager.fillMoved next.engine.positionManager report
      else 0
  | _, _ => 0

def movedFor (registry : InstrumentRegistry) (orderId : String) :
    Threads → List ThreadAction → ℚ :=
  Runs.total (step registry) (fillOf registry orderId)

/-- The step applies a closing fill of the order to too small a position. -/
def Uncovered (registry : InstrumentRegistry) (orderId : String) (state : Threads)
    (action : ThreadAction) : Prop :=
  match applied state action with
  | none => False
  | some report => report.orderId = orderId ∧ isFill report.status = true ∧
      state.engine.positionManager.FallsShort registry report

instance (registry : InstrumentRegistry) (orderId : String) (state : Threads)
    (action : ThreadAction) : Decidable (Uncovered registry orderId state action) := by
  unfold Uncovered
  cases applied state action <;> infer_instance

/-- The account of the order in a state, `sum` having been moved and replayed. -/
structure FillInv (registry : InstrumentRegistry) (orderId : String) (sum : ℚ × ℕ)
    (state : Threads) : Prop where
  agrees : Agrees orderId state
  contracts : state.engine.positionManager.ContractsNonneg
  unplaced : orderId ∉ state.exchange → sum = 0 ∧
    state.engine.positionManager.spotOrderFillTracker.getD orderId 0 = 0 ∧
    state.engine.positionManager.swapOrderFillTracker.getD orderId 0 = 0
  placed : ∀ {entry : PendingOrderInfo}, state.exchange.lookup orderId = some entry →
    entry.report.status ≠ .cancelled →
    ∃ volume, sum.1 = orderMoves entry.report volume ∧
      Fills (PositionManager.infoOf registry entry.report) entry.report
        (state.engine.positionManager.fillTracker entry.report) (awaited orderId state)
        (unapplied orderId state.reconciler) (volume, sum.2)

section Steps
variable {registry : InstrumentRegistry} {orderId : String} {state : Threads} {sum : ℚ × ℕ}

theorem sameTrade_of_identity {first second : ExecutionReport}
    (same : identity first = identity second) : SameTrade first second := by
  have fields := ExecutionReport.mk.inj same
  exact ⟨⟨fields.2.1.symm, fields.1.symm, fields.2.2.2.1.symm, fields.2.2.2.2.1.symm,
    fields.2.2.2.2.2.1.symm⟩, fields.2.2.2.2.2.2.1.symm⟩

theorem fillTracker_eq_zero {pm : PositionManager} {report : ExecutionReport}
    (spot : pm.spotOrderFillTracker.getD report.orderId 0 = 0)
    (swap : pm.swapOrderFillTracker.getD report.orderId 0 = 0) : pm.fillTracker report = 0 := by
  rw [PositionManager.fillTracker]
  split
  · exact swap
  · exact spot

theorem FillInv.publish (inv : FillInv registry orderId sum state) (entry : PendingOrderInfo)
    (legal : Publishable state.exchange entry)
    (agrees : Agrees orderId { state with
      exchange := state.exchange.insert entry.report.orderId entry
      wire := state.wire ++ [entry] }) :
    FillInv registry orderId sum { state with
      exchange := state.exchange.insert entry.report.orderId entry
      wire := state.wire ++ [entry] } := by
  refine ⟨agrees, inv.contracts, fun unplaced => ?_, fun {now} found kept => ?_⟩
  · rw [Finmap.mem_insert, not_or] at unplaced
    exact inv.unplaced unplaced.2
  · rw [UnorderedMap.lookup_insert_ite] at found
    rw [awaited_publish]
    by_cases own : orderId = entry.report.orderId
    · rw [if_pos own] at found
      obtain rfl := Option.some.inj found
      rw [if_pos own.symm]
      unfold Publishable at legal
      rw [← own] at legal
      cases before : state.exchange.lookup orderId with
      | none =>
          rw [before] at legal
          have unplaced := Finmap.lookup_eq_none.mp before
          obtain ⟨noSum, spot, swap⟩ := inv.unplaced unplaced
          obtain ⟨noneAwaited, noCalls⟩ := (inv.agrees.settled unplaced).idle
          rw [own] at spot swap
          rw [noneAwaited, show unapplied orderId state.reconciler = [] from noCalls .reconciler,
            noSum, fillTracker_eq_zero spot swap]
          exact ⟨0, (orderMoves_zero _).symm, Fills.start _ legal.1 legal.2⟩
      | some earlier =>
          rw [before] at legal
          obtain ⟨isOpen, _, sameIdentity, follows⟩ := legal
          have same := sameTrade_of_identity sameIdentity.symm
          have notCancelled : earlier.report.status ≠ .cancelled := by
            intro cancelled
            rw [cancelled] at isOpen
            exact absurd isOpen (by decide)
          obtain ⟨volume, moved, fills⟩ := inv.placed before notCancelled
          rw [← infoOf_sameOrder same, ← same.toSameOrder.fillTracker] at fills
          refine ⟨volume, moved.trans (same.orderMoves volume).symm, ?_⟩
          cases statusCase : entry.report.status with
          | cancelled => exact absurd statusCase kept
          | new | cancelFailed | rejected =>
              rw [statusCase] at follows
              exact follows.elim
          | partiallyFilled =>
              rw [statusCase] at follows
              exact fills.publish isOpen same follows.le (Or.inl (by rw [statusCase]; rfl))
                fun filled => by
                  rw [statusCase] at filled
                  cases filled
          | filled =>
              rw [statusCase] at follows
              exact fills.publish isOpen same follows.1 (Or.inr statusCase) fun _ => follows.2
    · rw [if_neg own] at found
      rw [if_neg fun same => own same.symm, List.append_nil]
      exact inv.placed found kept

theorem fillOf_update (orderId : String) {thread : Thread} {call : OrderUpdate}
    {engine : TradingEngine} {later : Option OrderUpdate}
    (current : state.current thread = some call)
    (ran : call.step registry state.engine = some (engine, later)) :
    fillOf registry orderId state (.update thread) =
      if call.point = .applyReport ∧ call.report.orderId = orderId then
        state.engine.positionManager.fillMoved engine.positionManager call.report
      else 0 := by
  have stepped : step registry state (.update thread) =
      some ({ state with engine := engine }.setCurrent later thread) := by
    rw [step, current]
    dsimp only
    rw [ran]
    rfl
  rw [fillOf, stepped, applied, current]
  by_cases here : call.point = .applyReport <;> simp [here, engine_setCurrent]

theorem covered_update {thread : Thread} {call : OrderUpdate}
    (current : state.current thread = some call) (here : call.point = .applyReport)
    (own : call.report.orderId = orderId)
    (covered : ¬ Uncovered registry orderId state (.update thread)) :
    ¬ (isFill call.report.status = true ∧
      state.engine.positionManager.FallsShort registry call.report) := by
  rw [Uncovered, applied, current] at covered
  simp only [here, if_true] at covered
  exact fun short => covered ⟨own, short.1, short.2⟩

/-- The account after a turn of a call, in terms of the reports the call and the
rest of the system have still to apply. -/
theorem FillInv.update (inv : FillInv registry orderId sum state) {thread : Thread}
    {call : OrderUpdate} {engine : TradingEngine} {later : Option OrderUpdate}
    (current : state.current thread = some call)
    (ran : call.step registry state.engine = some (engine, later))
    (agrees : Agrees orderId ({ state with engine := engine }.setCurrent later thread))
    (covered : ¬ Uncovered registry orderId state (.update thread)) :
    FillInv registry orderId (sum.1 + fillOf registry orderId state (.update thread), sum.2)
      ({ state with engine := engine }.setCurrent later thread) := by
  have turn := turn_of_step ran
  have frame := turn.frame
  have weight := fillOf_update orderId current ran
  refine ⟨agrees, ?_, fun unplaced => ?_, fun {entry} found kept => ?_⟩
  · rw [engine_setCurrent]
    exact frame.contracts inv.contracts
  · rw [exchange_setCurrent] at unplaced
    have other : orderId ≠ call.report.orderId := by
      intro own
      rw [own] at unplaced
      exact unplaced (inv.agrees.calls thread call current).placed
    obtain ⟨noSum, spot, swap⟩ := inv.unplaced unplaced
    rw [engine_setCurrent, weight, if_neg fun both => other both.2.symm, noSum]
    exact ⟨Prod.ext (add_zero _) rfl, (frame.spotTracker orderId other).trans spot,
      (frame.swapTracker orderId other).trans swap⟩
  · rw [exchange_setCurrent] at found
    obtain ⟨volume, handled, fills⟩ := inv.placed found kept
    have keyed := inv.agrees.keyed found
    rw [engine_setCurrent, weight]
    by_cases own : call.report.orderId = orderId
    · rcases turn.unapplied orderId with ⟨same, notApply, unmoved⟩ | ⟨gone, notPushed, ends⟩
      · obtain ⟨sameAwaited, sameReplayed⟩ := waiting_setCurrent engine current same
        rw [if_neg fun both => notApply both.1, add_zero, unmoved.fillTracker, sameAwaited,
          sameReplayed]
        exact ⟨volume, handled, fills⟩
      · have now := unapplied_of_own own notPushed
        cases thread with
        | listener =>
            have listening : state.listener = some call := current
            rw [awaited, listening, now] at fills
            rcases ends with ⟨here, applied⟩ | ⟨_, cancelled, _⟩
            · obtain ⟨more, moved, listened⟩ := fills.listen applied inv.contracts
                (covered_update current here own covered)
              refine ⟨volume + more, ?_, ?_⟩
              · rw [if_pos ⟨here, own⟩, moved, orderMoves_add, handled]
              · rw [awaited, show (Threads.setCurrent { state with
                  engine := engine } later .listener).listener = later from rfl, gone]
                exact listened
            · have status := fills.head_status
              rw [cancelled] at status
              simp at status
        | reconciler =>
            have replaying : state.reconciler = some call := current
            rw [replaying, now] at fills
            rcases ends with ⟨here, applied⟩ | ⟨_, cancelled, _⟩
            · obtain ⟨more, moved, listened⟩ := fills.relisten applied inv.contracts
                (covered_update current here own covered)
              refine ⟨volume + more, ?_, ?_⟩
              · rw [if_pos ⟨here, own⟩, moved, orderMoves_add, handled]
              · rw [show (Threads.setCurrent { state with
                  engine := engine } later .reconciler).reconciler = later from rfl, gone]
                exact listened
            · obtain ⟨only, shape, _, status⟩ := fills.single.resolve_left (List.cons_ne_nil _ _)
              rw [← List.singleton_inj.mp shape, cancelled] at status
              simp at status
    · have idle : unapplied orderId later = unapplied orderId (some call) := by
        rw [unapplied_of_ne own]
        rcases turn.unapplied orderId with ⟨same, _⟩ | ⟨gone, _⟩
        · rw [same, unapplied_of_ne own]
        · exact gone
      obtain ⟨sameAwaited, sameReplayed⟩ := waiting_setCurrent engine current idle
      have unmoved : engine.positionManager.fillTracker entry.report =
          state.engine.positionManager.fillTracker entry.report :=
        frame.fillTracker fun same => own (same.symm.trans keyed)
      rw [if_neg fun both => own both.2, add_zero, unmoved, sameAwaited, sameReplayed]
      exact ⟨volume, handled, fills⟩

/-- A pass step starts a replay of the FILLED state, or of a NEW, or nothing for the order. -/
theorem FillInv.reconcile (inv : FillInv registry orderId sum state) {action : PassAction}
    {pass : Pass} {call : Option OrderUpdate} (free : state.reconciler = none)
    (ran : passStep state.engine state.exchange state.pass action = some (pass, call))
    (agrees : Agrees orderId { state with pass := pass, reconciler := call }) :
    FillInv registry orderId
      (sum.1, sum.2 + if ReplaysTerminal orderId state (.reconcile action) then 1 else 0)
      { state with pass := pass, reconciler := call } := by
  have starts : started state (.reconcile action) = call := by
    rw [started, ran, Option.bind_some]
  have idle : call = none ∨ (∃ made, call = some made ∧ made.report.orderId ≠ orderId) →
      unapplied orderId call = [] ∧ ¬ ReplaysTerminal orderId state (.reconcile action) := by
    rintro (none | ⟨made, isMade, other⟩)
    · rw [ReplaysTerminal, starts, none]
      exact ⟨rfl, id⟩
    · rw [ReplaysTerminal, starts, isMade]
      exact ⟨unapplied_of_ne other, fun own => other own.1⟩
  refine ⟨agrees, inv.contracts, fun unplaced => ?_, fun {entry} found kept => ?_⟩
  · obtain ⟨noSum, spot, swap⟩ := inv.unplaced unplaced
    have nothing : call = none ∨ ∃ made, call = some made ∧ made.report.orderId ≠ orderId := by
      cases call with
      | none => exact Or.inl rfl
      | some made =>
          refine Or.inr ⟨made, rfl, fun own => unplaced ?_⟩
          rw [← own]
          exact (agrees.calls .reconciler made rfl).placed
    rw [if_neg (idle nothing).2, noSum]
    exact ⟨rfl, spot, swap⟩
  · obtain ⟨volume, handled, fills⟩ := inv.placed found kept
    rw [free, unapplied_none] at fills
    refine ⟨volume, handled, ?_⟩
    cases call with
    | none =>
        rw [if_neg (idle (Or.inl rfl)).2]
        exact fills
    | some made =>
        by_cases own : made.report.orderId = orderId
        · have known := agrees.calls .reconciler made rfl
          obtain ⟨known, foundKnown, sameIdentity, _⟩ := known
          rw [own] at foundKnown
          obtain rfl := Option.some.inj (foundKnown.symm.trans found)
          have same := sameTrade_of_identity sameIdentity
          have replays : ReplaysTerminal orderId state (.reconcile action) ↔
              made.report.status ≠ .new := by
            rw [ReplaysTerminal, starts]
            exact ⟨And.right, fun terminal => ⟨own, terminal⟩⟩
          have waits : unapplied orderId (some made) = [made.report] := by
            refine unapplied_of_own own ?_
            cases (passStep_effect ran).call made rfl <;>
              exact (by decide : UpdatePoint.checkLive ≠ .pushReport)
          rw [waits]
          cases (passStep_effect ran).call made rfl with
          | replay info orphan truth ended =>
              unfold TrueAnswer at truth
              rw [show info.report.orderId = orderId from own, foundKnown] at truth
              have sameStatus : info.report.status = known.report.status := by
                rw [← truth.1]
              have sameVolume : info.report.filledVolume = known.report.filledVolume := by
                rw [← truth.1]
              have filled : known.report.status = .filled := by
                rcases fills.status with isOpen | filled
                · rw [sameStatus, isOpen] at ended
                  cases ended
                · exact filled
              have terminal : info.report.status ≠ .new := by
                rw [sameStatus, filled]
                decide
              rw [if_pos (replays.mpr terminal)]
              exact fills.replay same filled (sameStatus.trans filled) sameVolume
          | missedNew info member unseen =>
              rw [if_neg fun replay => replays.mp replay rfl]
              exact (Fills.replayNew same rfl).mp fills
        · obtain ⟨none, noReplay⟩ := idle (Or.inr ⟨made, rfl, own⟩)
          rw [none, if_neg noReplay]
          exact fills

theorem FillInv.step {next : Threads} {action : ThreadAction}
    (inv : FillInv registry orderId sum state)
    (ran : Threads.step registry state action = some next)
    (covered : ¬ Uncovered registry orderId state action) :
    FillInv registry orderId
      (sum + (fillOf registry orderId state action,
        if ReplaysTerminal orderId state action then 1 else 0)) next := by
  have agrees := inv.agrees.step ran
  have quiet : fillOf registry orderId state action = 0 →
      ¬ ReplaysTerminal orderId state action →
      sum + (fillOf registry orderId state action,
        if ReplaysTerminal orderId state action then 1 else 0) = sum := by
    intro noFill noReplay
    rw [noFill, if_neg noReplay]
    exact add_zero sum
  cases moves_of_step ran with
  | publish entry legal =>
      rw [quiet rfl id]
      exact inv.publish entry legal agrees
  | record clientOrderId reservation unsent =>
      rw [quiet rfl id]
      exact ⟨agrees, inv.contracts, inv.unplaced, inv.placed⟩
  | receive entry rest free head =>
      rw [quiet rfl id]
      refine ⟨agrees, inv.contracts, inv.unplaced, fun found kept => ?_⟩
      rw [awaited_receive orderId free head]
      exact inv.placed found kept
  | update thread call engine later current moved =>
      have updated := inv.update current moved agrees covered
      rw [if_neg (show ¬ ReplaysTerminal orderId state (.update thread) from id)]
      exact updated
  | reconcile action pass call free moved =>
      have passed := inv.reconcile free moved agrees
      have shape : ∀ replays : ℕ, sum + (0, replays) = (sum.1, sum.2 + replays) :=
        fun _ => Prod.ext (add_zero sum.1) rfl
      rw [show fillOf registry orderId state (.reconcile action) = 0 from rfl, shape]
      exact passed

theorem Begun.fillInv (begun : Begun orderId state) : FillInv registry orderId 0 state :=
  ⟨begun.agrees, begun.contracts, fun _ => ⟨rfl, begun.spotTracker, begun.swapTracker⟩,
    fun found => absurd (Finmap.mem_of_lookup_eq_some found) begun.unplaced⟩

theorem FillInv.run {final : Threads} {actions : List ThreadAction} (begun : Begun orderId state)
    (ran : Runs.run (Threads.step registry) state actions = some final)
    (covered : Runs.count (Threads.step registry) (Uncovered registry orderId) state actions = 0) :
    FillInv registry orderId (movedFor registry orderId state actions,
      Runs.count (Threads.step registry) (ReplaysTerminal orderId) state actions) final := by
  have account := Runs.total_induction (Threads.step registry)
    (fun state action => (fillOf registry orderId state action,
      if ReplaysTerminal orderId state action then 1 else 0))
    (fun sum state rest => FillInv registry orderId sum state ∧
      Runs.count (Threads.step registry) (Uncovered registry orderId) state rest = 0)
    (fun sum state next action rest held stepped => by
      obtain ⟨here, later⟩ := Runs.count_cons_eq_zero _ _ stepped held.2
      exact ⟨held.1.step stepped here, later⟩)
    ⟨begun.fillInv, covered⟩ ran
  rw [Runs.total_prod] at account
  exact account.1

end Steps

/-- The order has never moved more than it has filled, and all of it once it has
ended and nothing of it is under way. -/
def FilledOnce (registry : InstrumentRegistry) (info : InstrumentInfo) (orderId : String)
    (start : Threads) (actions : List ThreadAction) (final : Threads) (entry : PendingOrderInfo) :
    Prop :=
  movedFor registry orderId start actions ≤
      decode entry.report.filledVolume info.volumePrecision ∧
    (entry.report.status = .filled → Settled orderId final →
      movedFor registry orderId start actions =
        decode entry.report.filledVolume info.volumePrecision)

/-- Fills are applied exactly once in every run in which no pass replays the
order's FILLED state; each replay moves the filled volume once more.  A margin
SELL never moves any base. -/
theorem filledOnce_iff {registry : InstrumentRegistry} {info : InstrumentInfo} {orderId : String}
    {start final : Threads} {actions : List ThreadAction} {entry : PendingOrderInfo}
    (begun : Begun orderId start)
    (ran : Runs.run (step registry) start actions = some final)
    (covered : Runs.count (step registry) (Uncovered registry orderId) start actions = 0)
    (placed : final.exchange.lookup orderId = some entry)
    (known : registry.get entry.report.instrument = some info)
    (kept : entry.report.status ≠ .cancelled) :
    (¬ MarginSell entry.report →
        Runs.count (step registry) (ReplaysTerminal orderId) start actions = 0 →
        FilledOnce registry info orderId start actions final entry) ∧
      (entry.report.status = .filled → Settled orderId final →
        (FilledOnce registry info orderId start actions final entry ↔
          ¬ MarginSell entry.report ∧
            Runs.count (step registry) (ReplaysTerminal orderId) start actions = 0)) := by
  obtain ⟨volume, moved, fills⟩ := (FillInv.run begun ran covered).placed placed kept
  rw [PositionManager.infoOf, known, Option.getD_some] at fills
  dsimp only at moved
  have whole : entry.report.status = .filled → Settled orderId final →
      volume = decode entry.report.filledVolume info.volumePrecision *
        (1 + Runs.count (step registry) (ReplaysTerminal orderId) start actions) := by
    intro filled settled
    obtain ⟨noneAwaited, noCalls⟩ := settled.idle
    rw [noneAwaited, show unapplied orderId final.reconciler = [] from noCalls .reconciler] at fills
    exact fills.moved_settled filled
  have once : ¬ MarginSell entry.report →
      Runs.count (step registry) (ReplaysTerminal orderId) start actions = 0 →
      FilledOnce registry info orderId start actions final entry := by
    intro notMargin none
    rw [orderMoves, if_neg notMargin] at moved
    rw [FilledOnce, moved]
    refine ⟨fills.moved_le none, fun filled settled => ?_⟩
    rw [whole filled settled, none, Nat.cast_zero, add_zero, mul_one]
  refine ⟨once, fun filled settled => ⟨fun exactly => ?_, fun both => once both.1 both.2⟩⟩
  have size : 0 < decode entry.report.filledVolume info.volumePrecision :=
    (decode_pos _).mpr (fills.positive filled)
  have whence := exactly.2 filled settled
  rw [moved, orderMoves] at whence
  by_cases margin : MarginSell entry.report
  · rw [if_pos margin] at whence
    exact absurd whence size.ne
  · rw [if_neg margin, whole filled settled, mul_add, mul_one, add_eq_left, mul_eq_zero] at whence
    exact ⟨margin, Nat.cast_eq_zero.mp (whence.resolve_left size.ne')⟩

/-! ## A FILLED that both threads handle -/

def placeAndFill : List ThreadAction :=
  [.publish spotNew, .receive] ++ List.replicate 5 (.update .listener) ++ [.publish spotFilled]

/-- A pass that finds the order still live and the exchange already done with it. -/
def replayFilled : List ThreadAction :=
  [.reconcile (.querySpot []), .reconcile (.querySwap []), .reconcile (.snapshotLive ["9"]),
    .reconcile (.queryOrder (some spotFilled))] ++ List.replicate 5 (.update .reconciler)

def receiveFilled (turns : ℕ) : List ThreadAction :=
  .receive :: List.replicate turns (.update .listener)

def spotPartly : PendingOrderInfo :=
  { spotFilled with
    report := { spotFilled.report with status := .partiallyFilled, filledVolume := 1 } }

/-- One pass sees the order pending and one sees it gone; the listener is ahead of
the second one's look at the live table. -/
def fillBetweenPasses : List ThreadAction :=
  [.publish spotNew, .receive] ++ List.replicate 2 (.update .listener) ++
    [.reconcile (.querySpot [spotNew]), .reconcile (.querySwap []),
      .reconcile (.snapshotLive ["9"]), .reconcile (.copyReservations []), .reconcile .finish] ++
    List.replicate 3 (.update .listener) ++
    .publish spotPartly :: .receive :: List.replicate 5 (.update .listener) ++
    [.publish spotFilled, .reconcile (.querySpot []), .reconcile (.querySwap [])] ++
    receiveFilled 5 ++
    [.reconcile (.snapshotLive []), .reconcile (.copyReservations []), .reconcile .finish]

theorem filledOnce_iff_betweenPasses : ∃ final,
    Runs.run (step btcUsdtRegistry) {} fillBetweenPasses = some final ∧
      Runs.count (step btcUsdtRegistry) (ReplaysTerminal "9") {} fillBetweenPasses = 0 ∧
      Settled "9" final ∧ FilledOnce btcUsdtRegistry btcUsdt "9" {} fillBetweenPasses final
        spotFilled := by
  obtain ⟨final, ran⟩ := Option.isSome_iff_exists.mp (by decide +kernel :
    (Runs.run (step btcUsdtRegistry) {} fillBetweenPasses).isSome = true)
  have observed : (Runs.run (step btcUsdtRegistry) {} fillBetweenPasses).map (fun final =>
      (final.exchange.lookup "9", final.wire, final.listener, final.reconciler)) =
        some (some spotFilled, [], none, none) := by decide +kernel
  rw [ran, Option.map_some, Option.some.injEq, Prod.mk.injEq] at observed
  have none : Runs.count (step btcUsdtRegistry) (ReplaysTerminal "9") {} fillBetweenPasses = 0 := by
    decide +kernel
  have settled : Settled "9" final := settled_of_quiet observed.2
  have once := filledOnce_iff (begun_empty "9") ran (by decide +kernel) observed.1
    (show btcUsdtRegistry.get spotFilled.report.instrument = some btcUsdt by decide +kernel)
    (by decide)
  exact ⟨final, ran, none, settled, (once.2 rfl settled).mpr ⟨by decide, none⟩⟩

/-- Both threads handle the FILLED of an order of 2, and 4 are moved. -/
theorem filled_applied_twice :
    ¬ ∀ (registry : InstrumentRegistry) (info : InstrumentInfo) (orderId : String)
        (start final : Threads) (actions : List ThreadAction) (entry : PendingOrderInfo),
      Begun orderId start → Runs.run (step registry) start actions = some final →
      final.exchange.lookup orderId = some entry →
      registry.get entry.report.instrument = some info → entry.report.status = .filled →
      Settled orderId final →
      movedFor registry orderId start actions =
        decode entry.report.filledVolume info.volumePrecision := by
  intro claim
  obtain ⟨final, ran⟩ := Option.isSome_iff_exists.mp (by decide +kernel :
    (Runs.run (step btcUsdtRegistry) {}
      (placeAndFill ++ replayFilled ++ receiveFilled 6)).isSome = true)
  have observed : (Runs.run (step btcUsdtRegistry) {}
      (placeAndFill ++ replayFilled ++ receiveFilled 6)).map (fun final =>
        (final.exchange.lookup "9", final.wire, final.listener, final.reconciler)) =
          some (some spotFilled, [], none, none) := by decide +kernel
  rw [ran, Option.map_some, Option.some.injEq, Prod.mk.injEq] at observed
  have moved := claim btcUsdtRegistry btcUsdt "9" {} final
    (placeAndFill ++ replayFilled ++ receiveFilled 6) spotFilled (begun_empty "9") ran observed.1
    (by decide +kernel) rfl (settled_of_quiet observed.2)
  exact absurd moved (by decide +kernel)

end Threads

end CryptoTrading
