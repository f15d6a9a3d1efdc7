import CryptoTrading.TradingEngine.Reconcile
import CryptoTrading.TradingEngine.OrderFlow
import CryptoTrading.TradingEngine.OrderHistory

/-! # The live set after a pass

A pending order comes back into the live table only through its reservation
record, which the dispatcher makes for spot orders that lock something. -/
set_option autoImplicit false

namespace CryptoTrading

open TradingEngine

section Outcome
variable {registry : InstrumentRegistry} {exchange : Exchange} {engine : TradingEngine}
  {remoteSpot remoteSwap : List PendingOrderInfo}
  {queryOrderById : String → String → Option PendingOrderInfo}

/-! ## The live set -/

/-- The orders of this process, by order id: each has a client order id of its own. -/
def PlacedHere (own : String → Prop) (exchange : Exchange) : Prop :=
  ∀ id, own id → ∃ entry, exchange.lookup id = some entry ∧ entry.clientOrderId ≠ "" ∧
    exchange.NamesOne entry.clientOrderId

/-- Every own order that is pending on the exchange is either live already or
has its reservation recorded. -/
def Recoverable (own : String → Prop) (exchange : Exchange) (engine : TradingEngine) : Prop :=
  ∀ id entry, own id → exchange.lookup id = some entry → isPending entry.report.status = true →
    id ∈ engine.liveOrderInstruments ∨
      entry.clientOrderId ∈ engine.clientOrderIdToReservation

theorem ended_not_live {after : TradingEngine}
    (answers : TrueAnswers exchange engine remoteSpot remoteSwap queryOrderById)
    (effect : PassEffect exchange engine after
      (remoteByClientOrderId (remoteSpot ++ remoteSwap))) {id : String}
    (live : id ∈ after.liveOrderInstruments) : exchange.PendingOn id := by
  rcases (effect.live id).mp live with ⟨_, pending⟩ | ⟨clientOrderId, _, _, report, found, rfl⟩
  · exact pending
  · obtain ⟨entry, member, _, _, rfl⟩ := (lookup_remoteByClientOrderId _ _).1 report found
    obtain ⟨known, pending⟩ := (mem_remote answers entry).mp member
    exact ⟨entry, known, pending⟩

theorem pending_live_iff {after : TradingEngine}
    (answers : TrueAnswers exchange engine remoteSpot remoteSwap queryOrderById)
    (wellFormed : exchange.WellFormed registry)
    (effect : PassEffect exchange engine after
      (remoteByClientOrderId (remoteSpot ++ remoteSwap))) {id : String} {entry : PendingOrderInfo}
    (known : exchange.lookup id = some entry) (pending : isPending entry.report.status = true)
    (named : entry.clientOrderId ≠ "") (unique : exchange.NamesOne entry.clientOrderId) :
    id ∈ after.liveOrderInstruments ↔ id ∈ engine.liveOrderInstruments ∨
      entry.clientOrderId ∈ engine.clientOrderIdToReservation := by
  have keyed := wellFormed.keyed known
  rw [effect.live]
  constructor
  · rintro (⟨live, _⟩ | ⟨clientOrderId, recorded, _, report, found, sameId⟩)
    · exact Or.inl live
    · obtain ⟨other, member, sameClient, _, rfl⟩ :=
        (lookup_remoteByClientOrderId _ _).1 report found
      have otherKnown := ((mem_remote answers other).mp member).1
      rw [sameId, known] at otherKnown
      rw [Option.some.inj otherKnown, sameClient]
      exact Or.inr recorded
  · rintro (live | recorded)
    · exact Or.inl ⟨live, entry, known, pending⟩
    · refine Or.inr ⟨entry.clientOrderId, recorded, ?_, ?_⟩
      · rintro ⟨_, other, _, otherEntry, otherKnown, otherEnded, sameClient⟩
        obtain rfl := unique otherKnown known sameClient rfl
        rw [Option.some.inj (otherKnown.symm.trans known), pending] at otherEnded
        cases otherEnded
      · have member : entry ∈ remoteSpot ++ remoteSwap :=
          (mem_remote answers entry).mpr ⟨keyed.symm ▸ known, pending⟩
        obtain ⟨report, found⟩ := (lookup_remoteByClientOrderId (remoteSpot ++ remoteSwap)
          entry.clientOrderId).2 ⟨entry, member, rfl, named⟩
        obtain ⟨other, otherMember, sameClient, _, rfl⟩ :=
          (lookup_remoteByClientOrderId _ _).1 report found
        exact ⟨other.report, found,
          unique ((mem_remote answers other).mp otherMember).1 known sameClient rfl⟩

/-- A pass leaves exactly the pending orders of this process live if and only if
each of them was live or had a recorded reservation. -/
theorem live_set_restored_iff (iteration : UnorderedMap.IterationOrder String)
    (answers : TrueAnswers exchange engine remoteSpot remoteSwap queryOrderById)
    (wellFormed : exchange.WellFormed registry) (own : String → Prop)
    (placed : PlacedHere own exchange) :
    ∃ after, engine.reconcileOrders registry iteration remoteSpot remoteSwap queryOrderById =
        some after ∧
      ((∀ id, own id → (id ∈ after.liveOrderInstruments ↔ exchange.PendingOn id)) ↔
        Recoverable own exchange engine) := by
  obtain ⟨after, ran, effect⟩ := reconcileOrders_effect iteration answers wellFormed
  refine ⟨after, ran, fun restored id entry mine known pending => ?_,
    fun recoverable id mine => ⟨ended_not_live answers effect, ?_⟩⟩
  · obtain ⟨other, otherKnown, named, unique⟩ := placed id mine
    obtain rfl := Option.some.inj (otherKnown.symm.trans known)
    exact (pending_live_iff answers wellFormed effect known pending named unique).mp
      ((restored id mine).mpr ⟨_, known, pending⟩)
  · rintro ⟨entry, known, pending⟩
    obtain ⟨other, otherKnown, named, unique⟩ := placed id mine
    obtain rfl := Option.some.inj (otherKnown.symm.trans known)
    exact (pending_live_iff answers wellFormed effect known pending named unique).mpr
      (recoverable id _ mine known pending)

end Outcome

/-! ## A swap order whose NEW was missed -/

def btcSwap : InstrumentInfo :=
  { instrument := "BTC-USDT-SWAP", pricePrecision := 0, volumePrecision := 0 }

/-- Pending on the exchange; the dispatcher records no reservation for a swap order. -/
def missedSwap : PendingOrderInfo :=
  { report :=
      { orderId := "21", instrument := "BTC-USDT-SWAP", status := .new, marketType := .swap,
        price := 100, totalVolume := 1 }
    clientOrderId := "cts5" }

def missedSwapExchange : Exchange := Finmap.insert "21" missedSwap ∅

theorem missedSwapExchange_lookup {orderId : String} {entry : PendingOrderInfo}
    (known : missedSwapExchange.lookup orderId = some entry) :
    orderId = "21" ∧ entry = missedSwap := by
  rw [missedSwapExchange, UnorderedMap.lookup_insert_ite] at known
  split at known
  · next same => exact ⟨same, (Option.some.inj known).symm⟩
  · cases known

theorem missedSwapExchange_wellFormed :
    missedSwapExchange.WellFormed (InstrumentRegistry.add ∅ btcSwap) := by
  refine ⟨fun known => ?_, fun known => ?_, fun known => ?_⟩
  · rw [(missedSwapExchange_lookup known).1, (missedSwapExchange_lookup known).2]
    rfl
  · rw [(missedSwapExchange_lookup known).2]
    decide
  · rw [(missedSwapExchange_lookup known).2]
    exact ⟨btcSwap, by decide⟩

theorem missedSwap_answers :
    TrueAnswers missedSwapExchange {} [] [missedSwap] fun _ _ => none := by
  refine ⟨fun entry => ?_, fun entry => ?_, fun live => nomatch live⟩
  · refine iff_of_false (by simp) ?_
    rintro ⟨known, _, spot⟩
    rw [(missedSwapExchange_lookup known).2] at spot
    cases spot
  · constructor
    · intro member
      rw [List.mem_singleton.mp member]
      decide
    · rintro ⟨known, _⟩
      rw [(missedSwapExchange_lookup known).2]
      exact List.mem_cons_self

theorem missedSwap_placed : PlacedHere (· = "21") missedSwapExchange := by
  rintro id rfl
  refine ⟨missedSwap, by decide, by decide, fun first second _ _ => ?_⟩
  rw [(missedSwapExchange_lookup first).1, (missedSwapExchange_lookup second).1]

theorem live_set_restored_iff_missedSwap : ∃ after,
    reconcileOrders (InstrumentRegistry.add ∅ btcSwap) UnorderedMap.IterationOrder.ofToList []
        [missedSwap] (fun _ _ => none) {} = some after ∧
      ((∀ id, id = "21" →
          (id ∈ after.liveOrderInstruments ↔ missedSwapExchange.PendingOn id)) ↔
        Recoverable (· = "21") missedSwapExchange {}) :=
  live_set_restored_iff UnorderedMap.IterationOrder.ofToList missedSwap_answers
    missedSwapExchange_wellFormed (· = "21") missedSwap_placed

/-- The pass leaves the live table empty although the swap order is pending. -/
theorem live_set_not_restored :
    ¬ ∀ (registry : InstrumentRegistry) (iteration : UnorderedMap.IterationOrder String)
        (exchange : Exchange) (engine : TradingEngine)
        (remoteSpot remoteSwap : List PendingOrderInfo)
        (queryOrderById : String → String → Option PendingOrderInfo) (own : String → Prop),
      TrueAnswers exchange engine remoteSpot remoteSwap queryOrderById →
      exchange.WellFormed registry → PlacedHere own exchange →
      ∃ after, engine.reconcileOrders registry iteration remoteSpot remoteSwap queryOrderById =
          some after ∧
        ∀ id, own id → (id ∈ after.liveOrderInstruments ↔ exchange.PendingOn id) := by
  intro claim
  obtain ⟨after, ran, restored⟩ := claim _ UnorderedMap.IterationOrder.ofToList missedSwapExchange
    {} [] [missedSwap] (fun _ _ => none) (· = "21") missedSwap_answers
    missedSwapExchange_wellFormed missedSwap_placed
  obtain ⟨same, ranSame, effect⟩ := reconcileOrders_effect UnorderedMap.IterationOrder.ofToList
    missedSwap_answers missedSwapExchange_wellFormed
  obtain rfl := Option.some.inj (ranSame.symm.trans ran)
  have live := (restored "21" rfl).mpr ⟨missedSwap, by decide, rfl⟩
  rcases (effect.live "21").mp live with ⟨before, _⟩ | ⟨_, recorded, _⟩
  · exact absurd before (by decide)
  · exact Finmap.notMem_empty recorded

end CryptoTrading
