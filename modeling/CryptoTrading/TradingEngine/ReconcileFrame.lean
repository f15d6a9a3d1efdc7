import CryptoTrading.TradingEngine.OrderHistory
import CryptoTrading.TradingEngine.Undisturbed

/-! # What a pass leaves alone

The pending lists may be empty, cut short or stale: whatever they say, a pass
asks for every live order it does not see in them before it touches it.  As
long as those answers are right about the orders that are still pending, a
pass makes no call for such an order and keeps it in the live table. -/
set_option autoImplicit false

namespace CryptoTrading

open TradingEngine
open Threads (finishCall replayTerminal_eq_finishCall replayMissedNew_eq_finishCall)

/-- A successful `QueryOrderById` brings back the order it was asked for, as
pending if it is pending on the exchange. -/
def LiveAnswers (exchange : Exchange)
    (queryOrderById : String → String → Option PendingOrderInfo) : Prop :=
  ∀ instrument orderId, ∀ answer ∈ queryOrderById instrument orderId,
    answer.report.orderId = orderId ∧
      (exchange.PendingOn orderId → isPending answer.report.status = true)

/-- Both kinds of query drop what belongs to an instrument without registry entry. -/
structure RegisteredAnswers (registry : InstrumentRegistry) (remote : List PendingOrderInfo)
    (queryOrderById : String → String → Option PendingOrderInfo) : Prop where
  pending : ∀ info ∈ remote, ∃ entry, registry.get info.report.instrument = some entry
  byId : ∀ instrument orderId, ∀ answer ∈ queryOrderById instrument orderId,
    ∃ entry, registry.get answer.report.instrument = some entry

def About (orderId : String) (call : Option OrderUpdate) : Prop :=
  call.any (fun call => call.report.orderId = orderId) = true

instance (orderId : String) (call : Option OrderUpdate) : Decidable (About orderId call) :=
  inferInstanceAs (Decidable (_ = true))

theorem about_iff {orderId : String} {call : Option OrderUpdate} :
    About orderId call ↔ ∃ made ∈ call, made.report.orderId = orderId := by
  cases call <;> simp [About]

def callsAbout (registry : InstrumentRegistry) (iteration : UnorderedMap.IterationOrder String)
    (remoteSpot remoteSwap : List PendingOrderInfo)
    (queryOrderById : String → String → Option PendingOrderInfo) (engine : TradingEngine)
    (orderId : String) : Nat :=
  let remote := remoteSpot ++ remoteSwap
  let orphans := engine.orphans remote (iteration.enumerate engine.liveOrderInstruments.keys)
  Runs.count (replayTerminal registry queryOrderById)
      (fun _ orphan => About orderId (replayCall (queryOrderById orphan.2 orphan.1)))
      engine orphans +
    match Runs.run (replayTerminal registry queryOrderById) engine orphans with
    | none => 0
    | some replayed =>
        Runs.count (replayMissedNew registry (remoteByClientOrderId remote))
          (fun engine clientOrderId => About orderId (missedNewCall engine remote clientOrderId))
          replayed (iteration.enumerate replayed.clientOrderIdToReservation.keys)

/-! ## A call for another order -/

section Calls
variable {registry : InstrumentRegistry} {engine after : TradingEngine} {report : ExecutionReport}
  {clientOrderId orderId : String}

theorem mem_live_recoverMissedNew (different : orderId ≠ report.orderId)
    (ran : engine.recoverMissedNew registry report clientOrderId = some after) :
    orderId ∈ after.liveOrderInstruments ↔ orderId ∈ engine.liveOrderInstruments := by
  rw [recoverMissedNew] at ran
  split at ran
  · obtain ⟨recovered, positions, rfl⟩ := Option.map_eq_some_iff.mp ran
    have sameLive : recovered.liveOrderInstruments = engine.liveOrderInstruments := by
      rw [recoverPositions] at positions
      split at positions
      · obtain ⟨pm, _, rfl⟩ := Option.map_eq_some_iff.mp positions
        rfl
      · cases positions
        rfl
    rw [insertLive, sameLive, Finmap.mem_insert]
    exact or_iff_right different
  · cases ran
    exact Iff.rfl

theorem mem_live_finishUpdate (different : orderId ≠ report.orderId)
    (ran : engine.finishUpdate registry report clientOrderId = some after) :
    orderId ∈ after.liveOrderInstruments ↔ orderId ∈ engine.liveOrderInstruments := by
  rw [finishUpdate] at ran
  split at ran
  · cases ran
    exact Iff.rfl
  · obtain ⟨pm, _, rfl⟩ := Option.map_eq_some_iff.mp ran
    rw [live_pushReport, live_setPositions, live_eraseReservation, mem_updateLiveOrders]
    simp [different]

theorem mem_live_handleOrderUpdate (different : orderId ≠ report.orderId)
    (ran : engine.handleOrderUpdate registry report clientOrderId = some after) :
    orderId ∈ after.liveOrderInstruments ↔ orderId ∈ engine.liveOrderInstruments := by
  rw [handleOrderUpdate_eq] at ran
  obtain ⟨recovered, recovery, finished⟩ := Option.bind_eq_some_iff.mp ran
  rw [mem_live_finishUpdate different finished, mem_live_recoverMissedNew different recovery]

theorem mem_live_finishCall {call : Option OrderUpdate} (other : ¬ About orderId call)
    (ran : finishCall registry engine call = some after) :
    orderId ∈ after.liveOrderInstruments ↔ orderId ∈ engine.liveOrderInstruments := by
  cases call with
  | none =>
      cases ran
      exact Iff.rfl
  | some call =>
      have different : orderId ≠ call.report.orderId := by
        rintro rfl
        exact other (about_iff.mpr ⟨call, rfl, rfl⟩)
      exact mem_live_handleOrderUpdate different ran

end Calls

/-! ## The two loops -/

section Loops
variable {registry : InstrumentRegistry} {exchange : Exchange}
  {queryOrderById : String → String → Option PendingOrderInfo} {orderId : String}

theorem not_about_replayCall (answers : LiveAnswers exchange queryOrderById)
    (pending : exchange.PendingOn orderId) (orphan : String × String) :
    ¬ About orderId (replayCall (queryOrderById orphan.2 orphan.1)) := by
  rw [about_iff]
  rintro ⟨made, isMade, same⟩
  obtain ⟨answer, answered, ended, rfl⟩ := replayCall_some isMade
  obtain ⟨asked, shown⟩ := answers orphan.2 orphan.1 answer answered
  exact Bool.eq_false_iff.mp ended (shown (by rw [← asked, same]; exact pending))

theorem not_about_missedNewCall {engine : TradingEngine} (remote : List PendingOrderInfo)
    (live : orderId ∈ engine.liveOrderInstruments) (clientOrderId : String) :
    ¬ About orderId (missedNewCall engine remote clientOrderId) := by
  rw [about_iff]
  rintro ⟨made, isMade, rfl⟩
  obtain ⟨info, -, notLive, rfl⟩ := missedNewCall_some isMade
  exact notLive live

theorem live_replayTerminal (answers : LiveAnswers exchange queryOrderById)
    (pending : exchange.PendingOn orderId) (engine : TradingEngine) (orphan : String × String)
    (next : TradingEngine) (live : orderId ∈ engine.liveOrderInstruments)
    (turned : replayTerminal registry queryOrderById engine orphan = some next) :
    orderId ∈ next.liveOrderInstruments := by
  rw [replayTerminal_eq_finishCall] at turned
  exact (mem_live_finishCall (not_about_replayCall answers pending orphan) turned).mpr live

theorem live_replayMissedNew (remote : List PendingOrderInfo) (engine : TradingEngine)
    (clientOrderId : String) (next : TradingEngine)
    (live : orderId ∈ engine.liveOrderInstruments)
    (turned : replayMissedNew registry (remoteByClientOrderId remote) engine clientOrderId =
      some next) : orderId ∈ next.liveOrderInstruments := by
  rw [replayMissedNew_eq_finishCall] at turned
  exact (mem_live_finishCall (not_about_missedNewCall remote live clientOrderId) turned).mpr live

theorem finishCall_registered {engine : TradingEngine} {call : Option OrderUpdate}
    (known : ∀ made ∈ call, ∃ info, registry.get made.report.instrument = some info) :
    ∃ after, finishCall registry engine call = some after := by
  cases call with
  | none => exact ⟨engine, rfl⟩
  | some made =>
      obtain ⟨info, found⟩ := known made rfl
      exact handleOrderUpdate_registered found engine made.clientOrderId

theorem replayTerminal_total {remote : List PendingOrderInfo}
    (answers : RegisteredAnswers registry remote queryOrderById) (engine : TradingEngine)
    (orphan : String × String) :
    ∃ next, replayTerminal registry queryOrderById engine orphan = some next := by
  rw [replayTerminal_eq_finishCall]
  apply finishCall_registered
  intro made isMade
  obtain ⟨answer, answered, -, rfl⟩ := replayCall_some isMade
  exact answers.byId orphan.2 orphan.1 answer answered

theorem replayMissedNew_total {remote : List PendingOrderInfo}
    (answers : RegisteredAnswers registry remote queryOrderById) (engine : TradingEngine)
    (clientOrderId : String) :
    ∃ next, replayMissedNew registry (remoteByClientOrderId remote) engine clientOrderId =
      some next := by
  rw [replayMissedNew_eq_finishCall]
  apply finishCall_registered
  intro made isMade
  obtain ⟨info, member, -, rfl⟩ := missedNewCall_some isMade
  exact answers.pending info member

end Loops

/-! ## The pass -/

/-- A pass never drops an order that is pending on the exchange, and never calls
`HandleOrderUpdate` for it, whatever the pending lists contain. -/
theorem reconcileOrders_keeps_live {registry : InstrumentRegistry}
    {iteration : UnorderedMap.IterationOrder String} {exchange : Exchange}
    {remoteSpot remoteSwap : List PendingOrderInfo}
    {queryOrderById : String → String → Option PendingOrderInfo} (engine : TradingEngine)
    (answers : LiveAnswers exchange queryOrderById) :
    (RegisteredAnswers registry (remoteSpot ++ remoteSwap) queryOrderById →
      ∃ after, reconcileOrders registry iteration remoteSpot remoteSwap queryOrderById engine =
        some after) ∧
    ∀ after, reconcileOrders registry iteration remoteSpot remoteSwap queryOrderById engine =
        some after →
      ∀ orderId ∈ engine.liveOrderInstruments, exchange.PendingOn orderId →
        orderId ∈ after.liveOrderInstruments ∧
          callsAbout registry iteration remoteSpot remoteSwap queryOrderById engine orderId =
            0 := by
  constructor
  · intro registered
    obtain ⟨replayed, first⟩ := Runs.run_total (replayTerminal registry queryOrderById)
      (engine.orphans (remoteSpot ++ remoteSwap)
        (iteration.enumerate engine.liveOrderInstruments.keys))
      (fun state orphan _ => replayTerminal_total registered state orphan) engine
    obtain ⟨after, second⟩ := Runs.run_total
      (replayMissedNew registry (remoteByClientOrderId (remoteSpot ++ remoteSwap)))
      (iteration.enumerate replayed.clientOrderIdToReservation.keys)
      (fun state clientOrderId _ => replayMissedNew_total registered state clientOrderId) replayed
    refine ⟨after, ?_⟩
    rw [reconcileOrders]
    simp only [first, Option.bind_eq_bind, Option.bind_some]
    exact second
  · intro after ran orderId live pending
    rw [reconcileOrders] at ran
    simp only [Option.bind_eq_bind] at ran
    obtain ⟨replayed, first, second⟩ := Option.bind_eq_some_iff.mp ran
    have keepsFirst := @live_replayTerminal registry exchange queryOrderById orderId answers pending
    have keepsSecond := @live_replayMissedNew registry orderId (remoteSpot ++ remoteSwap)
    have liveReplayed := Runs.run_induction _
      (fun engine : TradingEngine => orderId ∈ engine.liveOrderInstruments)
      keepsFirst live first
    refine ⟨Runs.run_induction _
      (fun engine : TradingEngine => orderId ∈ engine.liveOrderInstruments)
      keepsSecond liveReplayed second, ?_⟩
    rw [callsAbout, first]
    dsimp only
    rw [Runs.count_eq_zero_of_inv _ _
        (fun engine : TradingEngine => orderId ∈ engine.liveOrderInstruments) keepsFirst
        (fun _ orphan _ => not_about_replayCall answers pending orphan) live,
      Runs.count_eq_zero_of_inv _ _
        (fun engine : TradingEngine => orderId ∈ engine.liveOrderInstruments) keepsSecond
        (fun _ clientOrderId live => not_about_missedNewCall _ live clientOrderId) liveReplayed]

/-! ## Both pending queries failed -/

def unlistedHalf : PendingOrderInfo :=
  { report := { instrument := "BTC-USDT", orderId := "7", status := .partiallyFilled,
                filledVolume := 1, totalVolume := 2 }
    clientOrderId := "cts7" }

def unlistedEnded : PendingOrderInfo :=
  { report := { instrument := "BTC-USDT", orderId := "9", status := .filled,
                filledVolume := 2, totalVolume := 2 }
    clientOrderId := "cts9" }

def unlistedExchange : Exchange :=
  Finmap.insert "7" unlistedHalf (Finmap.insert "9" unlistedEnded ∅)

def unlistedEngine : TradingEngine :=
  { liveOrderInstruments := Finmap.insert "7" "BTC-USDT" (Finmap.insert "9" "BTC-USDT" ∅) }

theorem unlistedExchange_entry {orderId : String} {entry : PendingOrderInfo}
    (found : unlistedExchange.lookup orderId = some entry) :
    entry.report.orderId = orderId ∧ entry.report.instrument = "BTC-USDT" := by
  rw [unlistedExchange, UnorderedMap.lookup_insert_ite, UnorderedMap.lookup_insert_ite] at found
  split at found
  · rename_i isSeven
    cases found
    exact ⟨isSeven.symm, rfl⟩
  · split at found
    · rename_i isNine
      cases found
      exact ⟨isNine.symm, rfl⟩
    · cases found

theorem unlisted_answers :
    LiveAnswers unlistedExchange fun _ orderId => unlistedExchange.lookup orderId := by
  intro instrument orderId answer found
  refine ⟨(unlistedExchange_entry found).1, ?_⟩
  rintro ⟨entry, known, pending⟩
  have same := Option.some.inj (known.symm.trans found)
  rwa [← same]

theorem unlisted_registered : RegisteredAnswers btcUsdtRegistry ([] ++ [])
    fun _ orderId => unlistedExchange.lookup orderId where
  pending := by
    intro info member
    cases member
  byId := by
    intro instrument orderId answer found
    rw [(unlistedExchange_entry found).2]
    exact ⟨btcUsdt, by decide⟩

/-- Nothing is listed: the half-filled order stays, the ended one is replayed. -/
theorem reconcileOrders_keeps_live_unlisted : ∃ after,
    reconcileOrders btcUsdtRegistry UnorderedMap.IterationOrder.ofToList [] []
        (fun _ orderId => unlistedExchange.lookup orderId) unlistedEngine = some after ∧
      "7" ∈ after.liveOrderInstruments := by
  have kept := @reconcileOrders_keeps_live btcUsdtRegistry UnorderedMap.IterationOrder.ofToList
    unlistedExchange [] [] _ unlistedEngine unlisted_answers
  obtain ⟨after, ran⟩ := kept.1 unlisted_registered
  have pending : unlistedExchange.PendingOn "7" := ⟨unlistedHalf, rfl, rfl⟩
  exact ⟨after, ran, (kept.2 after ran "7" (by decide) pending).1⟩

end CryptoTrading
