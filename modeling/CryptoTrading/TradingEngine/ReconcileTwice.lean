import CryptoTrading.TradingEngine.AccountSync
import CryptoTrading.TradingEngine.ReconcileOutcome

/-! # A second reconciler turn

Whatever the exchange answers, the same answers lead to nothing new: an orphan
that is still live has not been replayed and will not be, a record that is still
there names no order or a live one, and a synced entry agrees with its source.
Only the answers to `QueryOrderById` have to be about the order asked for. -/
set_option autoImplicit false

namespace CryptoTrading

open UnorderedMap (IterationOrder mergeAll entriesIn)

/-- What the exchange answers in one turn of the reconciler. -/
structure ReconcilerAnswers where
  remoteSpot : List PendingOrderInfo
  remoteSwap : List PendingOrderInfo
  queryOrderById : String → String → Option PendingOrderInfo
  balances : UnorderedMap String PositionManager.Balance
  swapPositions : UnorderedMap (String × PosSide) SwapPosition

/-- An answer has the id that was asked for, and a state that
`OkxParseOrderState` can produce. -/
def ReconcilerAnswers.ToThePoint (answers : ReconcilerAnswers) : Prop :=
  ∀ instrument orderId entry, answers.queryOrderById instrument orderId = some entry →
    entry.report.orderId = orderId ∧ entry.report.status ≠ .cancelFailed

structure TurnOrder where
  ids : IterationOrder String
  currencies : IterationOrder String
  positions : IterationOrder (String × PosSide)

namespace TradingEngine

/-- A turn of `RunReconciler` that no other thread interrupts. -/
def reconcilerTurn (registry : InstrumentRegistry) (order : TurnOrder)
    (answers : ReconcilerAnswers) (engine : TradingEngine) : Option TradingEngine :=
  (engine.reconcileOrders registry order.ids answers.remoteSpot answers.remoteSwap
      answers.queryOrderById).map fun engine =>
    (engine.reconcileBalances order.currencies answers.balances).reconcileSwapPositions
      order.positions answers.swapPositions

/-! ## Nothing to replay -/

/-- `QueryOrderById` fails for the orphan, or finds it still live. -/
def NotReplayed (queryOrderById : String → String → Option PendingOrderInfo)
    (orphan : String × String) : Prop :=
  ∀ entry, queryOrderById orphan.2 orphan.1 = some entry → isPending entry.report.status = true

/-- Neither loop of `ReconcileOrders` finds anything to do. -/
structure NothingMissed (remote : List PendingOrderInfo)
    (queryOrderById : String → String → Option PendingOrderInfo) (engine : TradingEngine) :
    Prop where
  orphans : ∀ id instrument, engine.liveOrderInstruments.lookup id = some instrument →
    id ∉ remoteActive remote → NotReplayed queryOrderById (id, instrument)
  recorded : ∀ clientOrderId ∈ engine.clientOrderIdToReservation, ∀ report,
    (remoteByClientOrderId remote).lookup clientOrderId = some report →
      report.orderId ∈ engine.liveOrderInstruments

section Loops
variable {registry : InstrumentRegistry} {engine next after : TradingEngine}
  {remote : List PendingOrderInfo}
  {queryOrderById : String → String → Option PendingOrderInfo}

theorem replayTerminal_of_notReplayed {orphan : String × String}
    (kept : NotReplayed queryOrderById orphan) :
    replayTerminal registry queryOrderById engine orphan = some engine := by
  rw [replayTerminal]
  cases answered : queryOrderById orphan.2 orphan.1 with
  | none => rfl
  | some entry => exact if_pos (kept entry answered)

theorem run_idle {α : Type} {step : TradingEngine → α → Option TradingEngine} {list : List α}
    (idle : ∀ item ∈ list, step engine item = some engine) :
    Runs.run step engine list = some engine := by
  induction list with
  | nil => rfl
  | cons item rest ih =>
      rw [Runs.run_cons, idle item List.mem_cons_self]
      exact ih fun other member => idle other (List.mem_cons_of_mem _ member)

theorem reconcileOrders_of_nothingMissed {remoteSpot remoteSwap : List PendingOrderInfo}
    (nothing : NothingMissed (remoteSpot ++ remoteSwap) queryOrderById engine)
    (iteration : IterationOrder String) :
    engine.reconcileOrders registry iteration remoteSpot remoteSwap queryOrderById =
      some engine := by
  rw [reconcileOrders]
  have first : Runs.run (replayTerminal registry queryOrderById) engine
      (engine.orphans (remoteSpot ++ remoteSwap)
        (iteration.enumerate engine.liveOrderInstruments.keys)) = some engine := by
    refine run_idle fun orphan member => ?_
    obtain ⟨-, unseen, present⟩ := mem_orphans.mp member
    exact replayTerminal_of_notReplayed (nothing.orphans _ _ present unseen)
  simp only [first, Option.bind_eq_bind, Option.bind_some]
  refine run_idle fun clientOrderId member => ?_
  have recorded := Finmap.mem_keys.mp ((iteration.mem_iff _ _).mp member)
  rw [replayMissedNew]
  cases found : (remoteByClientOrderId (remoteSpot ++ remoteSwap)).lookup clientOrderId with
  | none => rfl
  | some report => exact if_pos (nothing.recorded clientOrderId recorded report found)

/-! ## After a pass -/

theorem effect_of_live {report : ExecutionReport} {clientOrderId : String}
    (live : report.orderId ∈ engine.liveOrderInstruments)
    (ran : engine.handleOrderUpdate registry report clientOrderId = some after) :
    ∃ pm, UpdateEffect engine after report clientOrderId pm := by
  have finished := ran
  rw [handleOrderUpdate_of_noRecovery (noRecovery_of_live live clientOrderId), finishUpdate,
    noDuplicate_of_live live, if_neg Bool.false_ne_true] at finished
  obtain ⟨pm, applied, -⟩ := Option.map_eq_some_iff.mp finished
  obtain ⟨same, ranSame, effect⟩ := handleOrderUpdate_live clientOrderId live applied
  obtain rfl := Option.some.inj (ranSame.symm.trans ran)
  exact ⟨pm, effect⟩

theorem effect_of_new {report : ExecutionReport} {clientOrderId : String}
    (isNew : report.status = .new)
    (ran : engine.handleOrderUpdate registry report clientOrderId = some after) :
    ∃ pm, UpdateEffect engine after report clientOrderId pm := by
  have finished := ran
  rw [handleOrderUpdate_of_noRecovery (noRecovery_of_new isNew clientOrderId), finishUpdate,
    if_neg (by simp [isDuplicateCancel, isNew])] at finished
  obtain ⟨pm, applied, -⟩ := Option.map_eq_some_iff.mp finished
  obtain ⟨same, ranSame, effect⟩ := handleOrderUpdate_new clientOrderId isNew applied
  obtain rfl := Option.some.inj (ranSame.symm.trans ran)
  exact ⟨pm, effect⟩

theorem reservations_of_effect {report : ExecutionReport} {clientOrderId other : String}
    {pm : PositionManager} (effect : UpdateEffect engine after report clientOrderId pm)
    (recorded : other ∈ after.clientOrderIdToReservation) :
    other ∈ engine.clientOrderIdToReservation := by
  rw [effect.reservations, mem_eraseReservation] at recorded
  exact recorded.1

structure OrphanStep (queryOrderById : String → String → Option PendingOrderInfo)
    (engine next : TradingEngine) (orphan : String × String) : Prop where
  others : ∀ id, id ≠ orphan.1 →
    next.liveOrderInstruments.lookup id = engine.liveOrderInstruments.lookup id
  own : ∀ instrument, next.liveOrderInstruments.lookup orphan.1 = some instrument →
    engine.liveOrderInstruments.lookup orphan.1 = some instrument ∧
      NotReplayed queryOrderById orphan
  recorded : ∀ other, other ∈ next.clientOrderIdToReservation →
    other ∈ engine.clientOrderIdToReservation

theorem replayTerminal_orphanStep {orphan : String × String}
    (toThePoint : ∀ entry, queryOrderById orphan.2 orphan.1 = some entry →
      entry.report.orderId = orphan.1 ∧ entry.report.status ≠ .cancelFailed)
    (live : orphan.1 ∈ engine.liveOrderInstruments)
    (stepped : replayTerminal registry queryOrderById engine orphan = some next) :
    OrphanStep queryOrderById engine next orphan := by
  by_cases kept : NotReplayed queryOrderById orphan
  · rw [replayTerminal_of_notReplayed kept] at stepped
    cases stepped
    exact ⟨fun _ _ => rfl, fun _ present => ⟨present, kept⟩, fun _ recorded => recorded⟩
  · obtain ⟨entry, answer, ended⟩ : ∃ entry, queryOrderById orphan.2 orphan.1 = some entry ∧
        ¬ isPending entry.report.status = true := by
      by_contra none
      exact kept fun entry answer => by_contra fun ended => none ⟨entry, answer, ended⟩
    rw [replayTerminal, answer] at stepped
    dsimp only at stepped
    rw [if_neg ended] at stepped
    obtain ⟨sameId, parsed⟩ := toThePoint entry answer
    rw [← sameId] at live
    obtain ⟨pm, effect⟩ := effect_of_live live stepped
    have terminal := isTerminal_of_not_pending (Bool.eq_false_iff.mpr ended) parsed
    have erased : next.liveOrderInstruments = engine.liveOrderInstruments.erase orphan.1 := by
      rw [effect.live, ← sameId, live_updateLiveOrders]
      cases status : entry.report.status with
      | filled => rfl
      | cancelled => rfl
      | rejected => rfl
      | new => exact absurd (status ▸ terminal) (by decide)
      | partiallyFilled => exact absurd (status ▸ terminal) (by decide)
      | cancelFailed => exact absurd status parsed
    refine ⟨fun id other => ?_, fun instrument present => ?_,
      fun other => reservations_of_effect effect⟩
    · rw [erased, UnorderedMap.lookup_erase_ite, if_neg other]
    · rw [erased, UnorderedMap.lookup_erase_ite, if_pos rfl] at present
      cases present

theorem replayTerminal_survivors (orphanList : List (String × String))
    (toThePoint : ∀ instrument orderId entry, queryOrderById instrument orderId = some entry →
      entry.report.orderId = orderId ∧ entry.report.status ≠ .cancelFailed) :
    ∀ engine : TradingEngine, (orphanList.map Prod.fst).Nodup →
      (∀ orphan ∈ orphanList, orphan.1 ∈ engine.liveOrderInstruments) →
      Runs.run (replayTerminal registry queryOrderById) engine orphanList = some after →
      (∀ id instrument, after.liveOrderInstruments.lookup id = some instrument →
        engine.liveOrderInstruments.lookup id = some instrument ∧
          ∀ orphan ∈ orphanList, orphan.1 = id → NotReplayed queryOrderById orphan) ∧
      ∀ other, other ∈ after.clientOrderIdToReservation →
        other ∈ engine.clientOrderIdToReservation := by
  induction orphanList with
  | nil =>
      intro engine _ _ ran
      cases ran
      exact ⟨fun _ _ present => ⟨present, fun _ member => nomatch member⟩,
        fun _ recorded => recorded⟩
  | cons orphan rest ih =>
      intro engine distinct live ran
      rw [List.map_cons, List.nodup_cons] at distinct
      obtain ⟨next, stepped, ranRest⟩ := Runs.run_cons_some _ ran
      have step := replayTerminal_orphanStep (toThePoint orphan.2 orphan.1)
        (live orphan List.mem_cons_self) stepped
      have later : ∀ other ∈ rest, other.1 ≠ orphan.1 := by
        intro other member same
        exact distinct.1 (same ▸ List.mem_map_of_mem member)
      obtain ⟨survivors, recorded⟩ := ih next distinct.2 (fun other member => by
        rw [← Finmap.lookup_isSome, step.others _ (later other member), Finmap.lookup_isSome]
        exact live other (List.mem_cons_of_mem _ member)) ranRest
      refine ⟨fun id instrument present => ?_, fun other held =>
        step.recorded other (recorded other held)⟩
      obtain ⟨presentNext, keptRest⟩ := survivors id instrument present
      by_cases same : id = orphan.1
      · subst same
        obtain ⟨presentEngine, kept⟩ := step.own instrument presentNext
        refine ⟨presentEngine, fun other member sameId => ?_⟩
        rcases List.mem_cons.mp member with rfl | inRest
        · exact kept
        · exact keptRest other inRest sameId
      · rw [step.others id same] at presentNext
        refine ⟨presentNext, fun other member sameId => ?_⟩
        rcases List.mem_cons.mp member with rfl | inRest
        · exact absurd sameId.symm same
        · exact keptRest other inRest sameId

structure RecordStep (remote : List PendingOrderInfo) (engine next : TradingEngine)
    (clientOrderId : String) : Prop where
  keeps : ∀ id, id ∈ engine.liveOrderInstruments → id ∈ next.liveOrderInstruments
  adds : ∀ id instrument, next.liveOrderInstruments.lookup id = some instrument →
    engine.liveOrderInstruments.lookup id = some instrument ∨ id ∈ remoteActive remote
  recorded : ∀ other, other ∈ next.clientOrderIdToReservation →
    other ∈ engine.clientOrderIdToReservation
  done : ∀ report, (remoteByClientOrderId remote).lookup clientOrderId = some report →
    report.orderId ∈ next.liveOrderInstruments

theorem replayMissedNew_recordStep {clientOrderId : String}
    (stepped : replayMissedNew registry (remoteByClientOrderId remote) engine clientOrderId =
      some next) : RecordStep remote engine next clientOrderId := by
  rw [replayMissedNew] at stepped
  cases found : (remoteByClientOrderId remote).lookup clientOrderId with
  | none =>
      rw [found] at stepped
      cases stepped
      refine ⟨fun _ live => live, fun _ _ present => .inl present, fun _ held => held,
        fun _ named => ?_⟩
      rw [found] at named
      cases named
  | some report =>
      rw [found] at stepped
      dsimp only at stepped
      by_cases live : report.orderId ∈ engine.liveOrderInstruments
      · rw [if_pos live] at stepped
        cases stepped
        refine ⟨fun _ live => live, fun _ _ present => .inl present, fun _ held => held,
          fun other named => ?_⟩
        rw [← Option.some.inj (found.symm.trans named)]
        exact live
      · rw [if_neg live] at stepped
        obtain ⟨pm, effect⟩ := effect_of_new (show (asNew report).status = .new from rfl) stepped
        have inserted : next.liveOrderInstruments =
            engine.liveOrderInstruments.insert report.orderId report.instrument := effect.live
        refine ⟨fun id held => ?_, fun id instrument present => ?_,
          fun other => reservations_of_effect effect, fun other named => ?_⟩
        · rw [inserted, Finmap.mem_insert]
          exact .inr held
        · rw [inserted, UnorderedMap.lookup_insert_ite] at present
          split at present
          · next same =>
              obtain ⟨entry, member, -, -, rfl⟩ :=
                (lookup_remoteByClientOrderId remote clientOrderId).1 report found
              rw [same]
              exact .inr (List.mem_map_of_mem member)
          · exact .inl present
        · rw [← Option.some.inj (found.symm.trans named), inserted, Finmap.mem_insert]
          exact .inl rfl

theorem replayMissedNew_all (recordedIds : List String) : ∀ engine : TradingEngine,
    Runs.run (replayMissedNew registry (remoteByClientOrderId remote)) engine recordedIds =
      some after →
    (∀ id, id ∈ engine.liveOrderInstruments → id ∈ after.liveOrderInstruments) ∧
      (∀ id instrument, after.liveOrderInstruments.lookup id = some instrument →
        engine.liveOrderInstruments.lookup id = some instrument ∨ id ∈ remoteActive remote) ∧
      (∀ other, other ∈ after.clientOrderIdToReservation →
        other ∈ engine.clientOrderIdToReservation) ∧
      ∀ clientOrderId ∈ recordedIds, ∀ report,
        (remoteByClientOrderId remote).lookup clientOrderId = some report →
          report.orderId ∈ after.liveOrderInstruments := by
  induction recordedIds with
  | nil =>
      intro engine ran
      cases ran
      exact ⟨fun _ live => live, fun _ _ present => .inl present, fun _ held => held,
        fun _ member => nomatch member⟩
  | cons clientOrderId rest ih =>
      intro engine ran
      obtain ⟨next, stepped, ranRest⟩ := Runs.run_cons_some _ ran
      have step := replayMissedNew_recordStep stepped
      obtain ⟨keeps, adds, recorded, done⟩ := ih next ranRest
      refine ⟨fun id live => keeps id (step.keeps id live), fun id instrument present => ?_,
        fun other held => step.recorded other (recorded other held),
        fun other member report found => ?_⟩
      · rcases adds id instrument present with before | active
        · exact step.adds id instrument before
        · exact .inr active
      · rcases List.mem_cons.mp member with rfl | inRest
        · exact keeps _ (step.done report found)
        · exact done other inRest report found

/-- After a pass that came to its end there is nothing left to replay. -/
theorem nothingMissed_of_pass {remoteSpot remoteSwap : List PendingOrderInfo}
    {iteration : IterationOrder String}
    (toThePoint : ∀ instrument orderId entry, queryOrderById instrument orderId = some entry →
      entry.report.orderId = orderId ∧ entry.report.status ≠ .cancelFailed)
    (ran : engine.reconcileOrders registry iteration remoteSpot remoteSwap queryOrderById =
      some after) : NothingMissed (remoteSpot ++ remoteSwap) queryOrderById after := by
  rw [reconcileOrders] at ran
  obtain ⟨middle, ranFirst, ranSecond⟩ := Option.bind_eq_some_iff.mp ran
  have distinct := (orphans_sublist engine (remoteSpot ++ remoteSwap)
    (iteration.enumerate engine.liveOrderInstruments.keys)).nodup (iteration.nodup _)
  obtain ⟨survivors, -⟩ := replayTerminal_survivors _ toThePoint engine distinct
    (fun orphan member => Finmap.mem_of_lookup_eq_some (mem_orphans.mp member).2.2) ranFirst
  obtain ⟨-, adds, recorded, done⟩ := replayMissedNew_all _ middle ranSecond
  refine ⟨fun id instrument present unseen => ?_, fun clientOrderId held report found => ?_⟩
  · rcases adds id instrument present with before | active
    · obtain ⟨presentEngine, kept⟩ := survivors id instrument before
      refine kept (id, instrument) (mem_orphans.mpr ⟨?_, unseen, presentEngine⟩) rfl
      exact (iteration.mem_iff _ _).mpr
        (Finmap.mem_keys.mpr (Finmap.mem_of_lookup_eq_some presentEngine))
    · exact absurd active unseen
  · refine done clientOrderId ?_ report found
    exact (iteration.mem_iff _ _).mpr (Finmap.mem_keys.mpr (recorded clientOrderId held))

end Loops

/-! ## The account half -/

open PositionManager

theorem syncedSpot_settled (currency : String) (held : Option SpotPosition) (balance : Balance) :
    syncedSpot currency (some (syncedSpot currency held balance)) balance =
      syncedSpot currency held balance :=
  if_pos (agrees_syncedSpot currency held balance)

theorem syncedSwap_settled (key : String × PosSide) (held : Option SwapPosition)
    (exchange : SwapPosition) :
    syncedSwap key (some (syncedSwap key held exchange)) exchange =
      syncedSwap key held exchange := by
  have within : |(syncedSwap key held exchange).contracts - exchange.contracts| ≤
      syncTolerance := by
    cases held with
    | none =>
        rw [syncedSwap, sub_self, abs_zero]
        exact syncTolerance_nonneg
    | some position =>
        rw [syncedSwap]
        split
        · rw [sub_self, abs_zero]
          exact syncTolerance_nonneg
        · next agrees => exact not_lt.mp agrees
  exact if_neg (not_lt.mpr within)

section Account
variable (engine : TradingEngine) (order : TurnOrder) (answers : ReconcilerAnswers)

theorem reconcileBalances_eq : engine.reconcileBalances order.currencies answers.balances =
    engine.setPositions
      { engine.positionManager with
        spotPositions := mergeAll syncedSpot engine.positionManager.spotPositions
          (entriesIn order.currencies answers.balances) } := by
  rw [← positionManager_reconcileBalances, reconcileBalances]
  generalize entriesIn order.currencies answers.balances = entries
  induction entries generalizing engine with
  | nil => rfl
  | cons entry rest ih =>
      rw [List.foldl_cons]
      exact ih _

theorem reconcileSwapPositions_eq :
    engine.reconcileSwapPositions order.positions answers.swapPositions =
      engine.setPositions
        { engine.positionManager with
          swapPositions := mergeAll syncedSwap engine.positionManager.swapPositions
            (entriesIn order.positions answers.swapPositions) } := by
  rw [← positionManager_reconcileSwapPositions, reconcileSwapPositions]
  generalize entriesIn order.positions answers.swapPositions = entries
  induction entries generalizing engine with
  | nil => rfl
  | cons entry rest ih =>
      rw [List.foldl_cons]
      exact ih _

theorem account_twice (again : TurnOrder) :
    let after := (engine.reconcileBalances order.currencies answers.balances).reconcileSwapPositions
      order.positions answers.swapPositions
    (after.reconcileBalances again.currencies answers.balances).reconcileSwapPositions
      again.positions answers.swapPositions = after := by
  have spot := UnorderedMap.mergeAll_twice syncedSpot syncedSpot_settled order.currencies
    again.currencies engine.positionManager.spotPositions answers.balances
  have swap := UnorderedMap.mergeAll_twice syncedSwap syncedSwap_settled order.positions
    again.positions engine.positionManager.swapPositions answers.swapPositions
  intro after
  dsimp only [after]
  simp only [reconcileBalances_eq, reconcileSwapPositions_eq, positionManager_setPositions, spot,
    swap]
  rfl

end Account

/-- A turn that came to its end leaves nothing to do for the next one with the
same answers, in whatever order either walks its tables. -/
theorem reconciler_turn_twice {registry : InstrumentRegistry} {engine after : TradingEngine}
    {order : TurnOrder} {answers : ReconcilerAnswers} (toThePoint : answers.ToThePoint)
    (ran : engine.reconcilerTurn registry order answers = some after) (again : TurnOrder) :
    after.reconcilerTurn registry again answers = some after := by
  obtain ⟨middle, passed, rfl⟩ := Option.map_eq_some_iff.mp ran
  have settled := account_twice middle order answers again
  have nothing := nothingMissed_of_pass toThePoint passed
  rw [reconcilerTurn, reconcileOrders_of_nothingMissed, Option.map_some, settled]
  simp only [reconcileBalances_eq, reconcileSwapPositions_eq]
  exact ⟨nothing.orphans, nothing.recorded⟩

/-- The engine still has a record of the swap order whose NEW was missed. -/
def missedSwapRecord : TradingEngine :=
  { clientOrderIdToReservation := Finmap.insert "cts5"
      { instrument := "BTC-USDT-SWAP", currency := "USDT", amount := 100, side := .buy,
        tradeMode := .cross } ∅ }

def missedSwapAnswers : ReconcilerAnswers :=
  { remoteSpot := [], remoteSwap := [missedSwap], queryOrderById := fun _ _ => none
    balances := Finmap.insert "USDT" (900, 100, 0) ∅, swapPositions := ∅ }

theorem reconciler_turn_twice_missedSwap : ∃ order after,
    missedSwapRecord.reconcilerTurn (InstrumentRegistry.add ∅ btcSwap) order missedSwapAnswers =
        some after ∧
      after.reconcilerTurn (InstrumentRegistry.add ∅ btcSwap) order missedSwapAnswers =
        some after := by
  let order : TurnOrder :=
    ⟨IterationOrder.ofToList, IterationOrder.ofToList, IterationOrder.ofToList⟩
  have answers : TrueAnswers missedSwapExchange missedSwapRecord [] [missedSwap] fun _ _ => none :=
    ⟨missedSwap_answers.spot, missedSwap_answers.swap, fun live => nomatch live⟩
  obtain ⟨middle, passed, -⟩ :=
    reconcileOrders_effect order.ids answers missedSwapExchange_wellFormed
  have ran : missedSwapRecord.reconcilerTurn (InstrumentRegistry.add ∅ btcSwap) order
      missedSwapAnswers = some _ := congrArg (Option.map _) passed
  have toThePoint : missedSwapAnswers.ToThePoint := fun _ _ _ found => by cases found
  exact ⟨order, _, ran, reconciler_turn_twice toThePoint ran order⟩

end TradingEngine

end CryptoTrading
