import CryptoTrading.TradingEngine.OrderHistory
import CryptoTrading.TradingEngine.StartUpSpec

/-! # What the start-up leaves behind

The live table is right about an order unless the listener handled its end between
the page that showed it and the entry, and what the strategy has last been told of
an order is its state unless a report of it was withheld. -/
set_option autoImplicit false

namespace CryptoTrading

open TradingEngine SnapshotStream

namespace StartUp

section Runs
variable {registry : InstrumentRegistry} {market : MarketType} {orderId : String}
  {start final : StartUp} {actions : List StartAction}

theorem Begins.watch (begins : Begins orderId start) (listens : Bool) (market : MarketType) :
    SnapshotStream.Begins (watch listens market orderId start) where
  channel := by simp [StartUp.watch, begins.effective]
  toRead := by simp [StartUp.watch, WillRead, begins.point]
  found := by simp [StartUp.watch, begins.allPendingOrders, about]
  told := by simp [StartUp.watch, told, begins.reports, begins.ring, begins.listener, about]
  coming := by simp [StartUp.watch, coming, begins.wire, begins.listener, about]
  member := by simp [StartUp.watch, begins.notLive]
  entered := by simp [StartUp.watch, begins.point]

/-- The account of the live table, after `sum` ends that crossed the entry. -/
structure LiveAccount (registry : InstrumentRegistry) (orderId : String) (sum : ℕ)
    (state : StartUp) : Prop where
  genuine : Genuine state
  sound : ∀ market, Trades registry market orderId state →
    Sound opens (watch false market orderId state)
  table : ∀ market, Trades registry market orderId state →
    Calm starts opens (watch false market orderId state) ∧ sum = 0 ∨
      Stale opens (watch false market orderId state) ∧ sum ≠ 0

theorem LiveAccount.step {state next : StartUp} {action : StartAction} {sum : ℕ}
    (account : LiveAccount registry orderId sum state) (moves : Moves registry state action next)
    (inTime : ¬ PassedOver orderId state action) :
    LiveAccount registry orderId (sum + if Crosses orderId state action then 1 else 0) next := by
  have view : ∀ market, Trades registry market orderId next →
      OrderView false market orderId state action next := fun market trades =>
    orderView_of_step account.genuine trades nofun moves inTime nofun
  refine ⟨account.genuine.step moves, fun market trades => ?_, fun market trades => ?_⟩
  · have sound := account.sound market (trades.before moves)
    cases view market trades with
    | step step => exact sound.step step
    | handles kept change handles => exact sound.handle handles
  · have sound := account.sound market (trades.before moves)
    have table := account.table market (trades.before moves)
    cases view market trades with
    | step step calm =>
        rw [if_neg calm, add_zero]
        exact table.imp (And.imp_left fun before => before.step sound step)
          (And.imp_left fun before => before.step step)
    | handles kept change handles _ crosses =>
        rcases table with ⟨calm, none⟩ | ⟨stale, some⟩
        · by_cases crossed : Crosses orderId state action
          · refine .inr ⟨.of_crosses sound handles (crosses.mp crossed), ?_⟩
            rw [if_pos crossed]
            exact Nat.succ_ne_zero _
          · rw [if_neg crossed, add_zero]
            have notCrossed := fun crossing => crossed (crosses.mpr crossing)
            exact .inl ⟨calm.handle sound handles notCrossed, none⟩
        · have nothing := handles.coming
          rw [stale.coming] at nothing
          cases nothing

theorem LiveAccount.run (begins : Begins orderId start)
    (ran : Runs.run (StartUp.step registry) start actions = some final)
    (inTime : Runs.count (StartUp.step registry) (PassedOver orderId) start actions = 0) :
    LiveAccount registry orderId
      (Runs.count (StartUp.step registry) (Crosses orderId) start actions) final := by
  have account := Runs.total_induction (StartUp.step registry)
    (fun state action => if Crosses orderId state action then 1 else 0)
    (fun sum state rest => LiveAccount registry orderId sum state ∧
      Runs.count (StartUp.step registry) (PassedOver orderId) state rest = 0)
    (fun sum state next action rest held stepped => by
      obtain ⟨here, later⟩ := Runs.count_cons_eq_zero _ _ stepped held.2
      exact ⟨held.1.step (moves_of_step stepped) here, later⟩)
    ⟨⟨begins.genuine, fun market _ => (begins.watch false market).sound,
      fun market _ => .inl ⟨(begins.watch false market).calm, rfl⟩⟩, inTime⟩ ran
  exact account.1

/-- The account of what the strategy is told, while nothing is withheld. -/
structure NewsAccount (registry : InstrumentRegistry) (orderId : String) (state : StartUp) :
    Prop where
  genuine : Genuine state
  sound : ∀ market, Trades registry market orderId state → Followed orderId state →
    Sound opens (watch true market orderId state)
  current : ∀ market, Trades registry market orderId state → Followed orderId state →
    Current opens SameButFee (watch true market orderId state)

/-- The step passes over the order, or does not hand a report of it on. -/
def Withholds (orderId : String) (state : StartUp) (action : StartAction) : Prop :=
  PassedOver orderId state action ∨ Untold orderId state action

instance (orderId : String) (state : StartUp) (action : StartAction) :
    Decidable (Withholds orderId state action) :=
  inferInstanceAs (Decidable (_ ∨ _))

theorem NewsAccount.step {state next : StartUp} {action : StartAction}
    (account : NewsAccount registry orderId state) (moves : Moves registry state action next)
    (open' : ¬ Withholds orderId state action) : NewsAccount registry orderId next := by
  obtain ⟨inTime, told⟩ := not_or.mp open'
  have view : ∀ market, Trades registry market orderId next → Followed orderId next →
      OrderView true market orderId state action next := fun market trades followed =>
    orderView_of_step account.genuine trades (fun _ => followed) moves inTime fun _ => told
  refine ⟨account.genuine.step moves, fun market trades followed => ?_,
    fun market trades followed => ?_⟩
  · have sound := account.sound market (trades.before moves) (followed.before moves)
    cases view market trades followed with
    | step step => exact sound.step step
    | handles kept change handles => exact sound.handle handles
  · have sound := account.sound market (trades.before moves) (followed.before moves)
    have current := account.current market (trades.before moves) (followed.before moves)
    cases view market trades followed with
    | step step => exact current.step sound step
    | handles kept change handles keeps =>
        rw [keeps rfl] at handles
        exact current.handle handles

theorem NewsAccount.run (begins : Begins orderId start)
    (ran : Runs.run (StartUp.step registry) start actions = some final)
    (open' : Runs.count (StartUp.step registry) (Withholds orderId) start actions = 0) :
    NewsAccount registry orderId final :=
  Runs.run_induction_avoiding (StartUp.step registry) (Withholds orderId)
    (NewsAccount registry orderId)
    (fun _ _ _ allowed account stepped => account.step (moves_of_step stepped) allowed)
    ⟨begins.genuine, fun market _ _ => (begins.watch true market).sound,
      fun market _ _ => (begins.watch true market).current⟩ open' ran

/-! ## An exchange that keeps up -/

def Asked (market : MarketType) (state : StartUp) : Prop :=
  match state.point with
  | .subscribe next => next = .swap ∧ market = .spot
  | .ask next => next = .swap ∧ market = .spot
  | .read current _ => market = current ∨ market = .spot
  | .insert => True
  | .finished => True

theorem asked_of_read {state : StartUp} (read : ¬ WillRead market orderId state) :
    Asked market state := by
  unfold WillRead at read
  unfold Asked
  cases here : state.point <;> simp only [here] at read ⊢
  case subscribe next => cases next <;> cases market <;> simp_all
  case ask next => cases next <;> cases market <;> simp_all
  case read current owed => cases current <;> cases market <;> simp_all

theorem asked_step {state next : StartUp} {action : StartAction}
    (moves : Moves registry state action next) (prompt : ¬ Hasty state action)
    (effective : ∀ market, Asked market state → market ∈ state.effective) :
    ∀ market, Asked market next → market ∈ next.effective := by
  intro market asked
  cases moves with
  | takeUp taken => exact List.mem_cons_of_mem _ (effective market asked)
  | subscribe toAsk here =>
      refine effective market ?_
      simp only [Asked, here] at asked ⊢
      exact asked
  | ask toRead here =>
      simp only [Hasty, here, not_not] at prompt
      rcases asked with rfl | rfl
      · exact prompt
      · cases toRead with
        | spot => exact prompt
        | swap => exact effective .spot (by simp only [Asked, here]; trivial)
  | page ids current owed here =>
      refine effective market ?_
      simp only [Asked, here] at asked ⊢
      exact asked
  | endQuery current owed here =>
      refine effective market ?_
      simp only [Asked, here] at asked ⊢
      cases current <;> cases market <;> simp_all [InitPoint.afterQuery]
  | insert here =>
      refine effective market ?_
      simp only [Asked, here]
  | _ => exact effective market asked

/-- An exchange that takes a subscription up before it answers the query behind it, and
shows every pending order, passes over none. -/
theorem none_passed_over (begins : Begins orderId start)
    (prompt : Runs.count (StartUp.step registry) Hasty start actions = 0) :
    Runs.count (StartUp.step registry) (PassedOver orderId) start actions = 0 := by
  refine Runs.count_eq_zero_avoiding (StartUp.step registry) Hasty (PassedOver orderId)
    (fun state => ∀ market, Asked market state → market ∈ state.effective)
    (fun state action next here effective stepped =>
      asked_step (moves_of_step stepped) here effective)
    (fun state action here effective passed => ?_) (fun market asked => ?_) prompt
  · cases action with
    | publish entry => exact passed.2.1 (effective _ (asked_of_read passed.2.2))
    | endQuery =>
        simp only [PassedOver, Hasty] at passed here
        cases point : state.point with
        | read current owed =>
            simp only [point] at passed here
            exact here (Finset.card_pos.mpr ⟨orderId, Finset.mem_inter.mpr passed⟩)
        | _ =>
            simp only [point] at passed
    | _ => exact passed
  · simp only [Asked, begins.point] at asked
    cases asked.1

/-! ## The results -/

theorem exists_trades (registered : ∀ entry, final.exchange.lookup orderId = some entry →
    registry.find entry.report.instrument ≠ none) :
    ∃ market, Trades registry market orderId final := by
  cases found : final.exchange.lookup orderId with
  | none =>
      refine ⟨.spot, ⟨fun placed => ?_, fun placed => registered _ placed⟩⟩
      rw [found] at placed
      cases placed
  | some entry =>
      refine ⟨entry.report.marketType, ⟨fun placed => ?_, fun placed => registered _ placed⟩⟩
      rw [found, Option.some.injEq] at placed
      rw [placed]

theorem Settled.coming (settled : Settled orderId final) (listens : Bool) (market : MarketType) :
    (watch listens market orderId final).coming = [] := by
  rw [StartUp.watch]
  simp only [about_eq_nil_iff, StartUp.coming, List.mem_append, List.mem_map]
  rintro report (ofCall | ⟨info, onWire, rfl⟩)
  · obtain ⟨call, inside, rfl⟩ := List.mem_map.mp ofCall
    exact settled.listener call (Option.filter_eq_some_iff.mp (Option.mem_toList.mp inside)).1
  · exact settled.wire info onWire

/-- When `Init` is through and every report of an order that was published has been
handled, the order is live exactly if it is pending, unless the listener handled its
end between the page that showed it and the entry; then it stays live. -/
theorem live_iff_pending_iff (begins : Begins orderId start)
    (ran : Runs.run (step registry) start actions = some final)
    (finished : final.point = .finished) (settled : Settled orderId final)
    (registered : ∀ entry, final.exchange.lookup orderId = some entry →
      registry.find entry.report.instrument ≠ none)
    (inTime : Runs.count (step registry) (PassedOver orderId) start actions = 0) :
    (orderId ∈ final.engine.liveOrderInstruments ↔ final.exchange.PendingOn orderId) ↔
      Runs.count (step registry) (Crosses orderId) start actions = 0 := by
  obtain ⟨market, trades⟩ := exists_trades registered
  have account := LiveAccount.run begins ran inTime
  have entered : (watch false market orderId final).entered = true := by
    simp [watch, finished]
  have same : (orderId ∈ final.engine.liveOrderInstruments ↔ final.exchange.PendingOn orderId) ↔
      ((watch false market orderId final).member = true ↔ ∃ stored,
        (watch false market orderId final).value = some stored ∧ opens stored = true) := by
    simp [watch, Exchange.PendingOn, opens]
  rw [same]
  rcases account.table market trades with ⟨calm, none⟩ | ⟨stale, some⟩
  · have sound := account.sound market trades
    exact iff_of_true (calm.member_iff (sound.entered entered) entered
      (settled.coming false market)) none
  · exact iff_of_false (stale.not_iff entered) some

/-- What the strategy has last been told of an order on one of its instruments is the
state of the order, and an order that it has not been told of is not pending. -/
theorem strategy_knows (begins : Begins orderId start)
    (ran : Runs.run (step registry) start actions = some final)
    (finished : final.point = .finished) (settled : Settled orderId final)
    (drained : ∀ report ∈ final.engine.reportRing, report.orderId ≠ orderId)
    (registered : ∀ entry, final.exchange.lookup orderId = some entry →
      registry.find entry.report.instrument ≠ none)
    (followed : Followed orderId final)
    (open' : Runs.count (step registry) (Withholds orderId) start actions = 0) :
    Knows opens SameButFee (about orderId final.knowledge).getLast?
      ((final.exchange.lookup orderId).map PendingOrderInfo.report) := by
  obtain ⟨market, trades⟩ := exists_trades registered
  have account := NewsAccount.run begins ran open'
  have read : (watch true market orderId final).toRead = false :=
    (account.sound market trades followed).entered (by simp [watch, finished])
  have knows := (account.current market trades followed).knows sameButFee_refl read
    (settled.coming true market)
  have found : (watch true market orderId final).found = about orderId final.pendingOrders := by
    simp only [watch, about, pendingOrders, List.filter_filter]
    refine List.filter_congr fun report member => ?_
    obtain ⟨info, inside, rfl⟩ := List.mem_map.mp member
    obtain ⟨entry, placed, same, -⟩ := account.genuine.pending info inside
    by_cases own : info.report.orderId = orderId
    · have follows := followed entry (own ▸ placed)
      rw [(ExecutionReport.mk.inj same).1] at follows
      have follows' : info.report.instrument ∈ final.engine.strategyInstruments := follows
      simp [own, follows']
    · simp [own]
  have told : (watch true market orderId final).told = about orderId final.reports := by
    have nothing : about orderId (final.engine.reportRing ++ ofCall true final.listener) = [] := by
      rw [about_eq_nil_iff]
      rintro report member
      rcases List.mem_append.mp member with inRing | ofCall
      · exact drained report inRing
      · obtain ⟨call, inside, rfl⟩ := List.mem_map.mp ofCall
        exact settled.listener call (Option.filter_eq_some_iff.mp (Option.mem_toList.mp inside)).1
    simp only [watch, StartUp.told, if_true, List.append_assoc]
    rw [about_append, nothing, List.append_nil]
  rw [found, told, ← about_append] at knows
  exact knows

end Runs

/-! ## An order that is filled while `Init` runs -/

def startPending : StartUp :=
  { engine := { strategyInstruments := ["BTC-USDT"] }
    exchange := (∅ : Exchange).insert "9" Threads.spotNew }

theorem begins_startPending : Begins "9" startPending where
  keyed found := by
    rw [startPending, UnorderedMap.lookup_insert_ite] at found
    split at found
    · next own =>
        cases found
        exact own.symm
    · cases found
  notLive := by decide
  ring := rfl
  effective := rfl
  wire := rfl
  listener := rfl
  point := rfl
  allPendingOrders := rfl
  reports := rfl

def receiveFilled (scopes : ℕ) : List StartAction :=
  .publish Threads.spotFilled :: .receive :: List.replicate scopes .update

/-- The order is filled after the page that shows it. -/
def filledBehindPage : List StartAction :=
  [.subscribe, .takeUp .spot, .ask, .page ["9"], .endQuery] ++ receiveFilled 6 ++
    [.subscribe, .ask, .endQuery, .insert]

/-- It is filled when `Init` is through. -/
def filledLater : List StartAction :=
  [.subscribe, .takeUp .spot, .ask, .page ["9"], .endQuery, .subscribe, .ask, .endQuery, .insert,
    .startStrategy] ++ receiveFilled 5 ++ [.pop]

theorem live_iff_pending_iff_filledBehindPage : ∃ final,
    Runs.run (step btcUsdtRegistry) startPending filledBehindPage = some final ∧
      ¬ ("9" ∈ final.engine.liveOrderInstruments ↔ final.exchange.PendingOn "9") := by
  obtain ⟨final, ran⟩ := Option.isSome_iff_exists.mp (by decide +kernel :
    (Runs.run (step btcUsdtRegistry) startPending filledBehindPage).isSome = true)
  have observed : (Runs.run (step btcUsdtRegistry) startPending filledBehindPage).map (fun final =>
      (final.point, final.wire, final.listener, final.exchange.lookup "9")) =
        some (.finished, [], none, some Threads.spotFilled) := by decide +kernel
  rw [ran, Option.map_some, Option.some.injEq] at observed
  simp only [Prod.mk.injEq] at observed
  obtain ⟨finished, wire, listener, placed⟩ := observed
  have registered : ∀ entry, final.exchange.lookup "9" = some entry →
      btcUsdtRegistry.find entry.report.instrument ≠ none := by
    intro entry found
    rw [placed, Option.some.injEq] at found
    rw [← found]
    decide +kernel
  have crossed :
      Runs.count (step btcUsdtRegistry) (Crosses "9") startPending filledBehindPage ≠ 0 := by
    decide +kernel
  refine ⟨final, ran, fun claim => crossed ?_⟩
  exact (live_iff_pending_iff begins_startPending ran finished
    ⟨by simp [wire], by simp [listener]⟩ registered (by decide +kernel)).mp claim

theorem strategy_knows_filledLater : ∃ final,
    Runs.run (step btcUsdtRegistry) startPending filledLater = some final ∧
      Knows opens SameButFee (about "9" final.knowledge).getLast?
        ((final.exchange.lookup "9").map PendingOrderInfo.report) := by
  obtain ⟨final, ran⟩ := Option.isSome_iff_exists.mp (by decide +kernel :
    (Runs.run (step btcUsdtRegistry) startPending filledLater).isSome = true)
  have observed : (Runs.run (step btcUsdtRegistry) startPending filledLater).map (fun final =>
      (final.point, final.wire, final.listener, final.exchange.lookup "9")) =
        some (.finished, [], none, some Threads.spotFilled) := by decide +kernel
  have drained : (Runs.run (step btcUsdtRegistry) startPending filledLater).map (fun final =>
      (final.engine.reportRing, final.engine.strategyInstruments)) =
        some ([], ["BTC-USDT"]) := by decide +kernel
  rw [ran, Option.map_some, Option.some.injEq] at observed drained
  simp only [Prod.mk.injEq] at observed drained
  obtain ⟨finished, wire, listener, placed⟩ := observed
  obtain ⟨ring, instruments⟩ := drained
  refine ⟨final, ran, ?_⟩
  refine strategy_knows begins_startPending ran finished ⟨by simp [wire], by simp [listener]⟩
    (by simp [ring]) (fun entry found => ?_) (fun entry found => ?_) (by decide +kernel)
  · rw [placed, Option.some.injEq] at found
    rw [← found]
    decide +kernel
  · rw [placed, Option.some.injEq] at found
    rw [← found, instruments]
    decide +kernel

end StartUp

end CryptoTrading
