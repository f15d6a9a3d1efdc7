import CryptoTrading.TradingEngine.OrderFlow
import CryptoTrading.TradingEngine.OrderHistory

/-! # The trace of a refused order

The report made for a refused op goes through the missed-NEW recovery when the
dispatcher recorded a reservation, and then through the rejection heuristic.
The recovery makes the heuristic harmless.  A margin SELL has no reservation to
recover, but its report reads as a CASH one and reaches the heuristic. -/
set_option autoImplicit false

namespace CryptoTrading

/-- Balances as before, and `amount` of `currency` no longer reserved. -/
structure NoTrace (currency : String) (amount : ℚ) (before after : PositionManager) : Prop where
  available : ∀ other, (after.spot other).available = (before.spot other).available
  frozen : ∀ other, (after.spot other).frozen = (before.spot other).frozen
  reserved : ∀ other, after.reserved other =
    before.reserved other - if other = currency then amount else 0

namespace PositionManager

/-! ## The rejection branch alone -/

section Rejection
variable {pm : PositionManager} {currency : String} {amount : ℚ}

/-- A lock just taken is what the rejection gives back. -/
theorem noTrace_lock_releaseRejected (frozenNonneg : 0 ≤ (pm.spot currency).frozen)
    (covered : amount ≤ pm.reserved currency) :
    NoTrace currency amount pm ((pm.lock currency amount).releaseRejected currency amount) := by
  have covers : (pm.lock currency amount).FrozenCovers currency amount := by
    rw [FrozenCovers, frozen_lock, if_pos rfl, frozenTolerance]
    linarith
  have released := releaseRejected_frozen covers
  refine ⟨fun other => ?_, fun other => ?_, fun other => ?_⟩
  · rw [(released other).1, available_lock]
    ring
  · rw [(released other).2.1, frozen_lock]
    ring
  · rw [(released other).2.2, reserved_lock]
    split
    · next same => rw [same, max_eq_right (sub_nonneg.mpr covered)]
    · rw [sub_zero]

/-- A rejection that finds enough frozen takes it from whoever locked it. -/
theorem noTrace_releaseRejected_frozen (covers : pm.FrozenCovers currency amount) :
    NoTrace currency 0 pm (pm.releaseRejected currency amount) ↔ amount = 0 := by
  have released := releaseRejected_frozen covers
  constructor
  · intro clean
    have frozen := clean.frozen currency
    rw [(released currency).2.1, if_pos rfl] at frozen
    linarith
  · intro nothing
    refine ⟨fun other => ?_, fun other => ?_, fun other => ?_⟩
    · rw [(released other).1, nothing, ite_self, add_zero]
    · rw [(released other).2.1, nothing, ite_self, sub_zero]
    · rw [(released other).2.2, ite_self, sub_zero]

/-- Otherwise it takes it from what is reserved, down to zero. -/
theorem noTrace_releaseRejected_reserved (lacks : ¬ pm.FrozenCovers currency amount)
    (frozenNonneg : 0 ≤ (pm.spot currency).frozen) :
    NoTrace currency 0 pm (pm.releaseRejected currency amount) ↔ pm.reserved currency = 0 := by
  have released := releaseRejected_reserved lacks
  have positive : 0 < amount := by
    rw [FrozenCovers, frozenTolerance, ge_iff_le, not_le] at lacks
    have tolerance : (0 : ℚ) < 1 / 10 ^ 8 := by norm_num
    linarith
  constructor
  · intro clean
    have reserved := clean.reserved currency
    rw [(released currency).2, if_pos rfl, if_pos rfl, sub_zero] at reserved
    rcases max_choice 0 (pm.reserved currency - amount) with empty | rest
    · rw [← reserved, empty]
    · rw [rest] at reserved
      linarith
  · intro empty
    refine ⟨fun other => ?_, fun other => ?_, fun other => ?_⟩
    · rw [(released other).1]
    · rw [(released other).1]
    · rw [(released other).2, ite_self, sub_zero]
      split
      · next same =>
          rw [same, empty, zero_sub, max_eq_left (neg_nonpos.mpr positive.le)]
      · rfl

end Rejection

end PositionManager

section Refusal
variable {registry : InstrumentRegistry} {info : InstrumentInfo} {order : SpotLimit}

/-- The position manager after the refusal of `order`, read off the source's
path: recovered first when its reservation was recorded, then rejected. -/
def refusedPositions (info : InstrumentInfo) (order : SpotLimit) (recorded : Bool)
    (pm : PositionManager) : PositionManager :=
  (if recorded then pm.lock order.currency (order.value info) else pm).releaseRejected
    order.currency (order.value info)

theorem applyReport_refusal (known : registry.get order.instrument = some info)
    (pm : PositionManager) :
    TradingEngine.applyReport registry pm order.refusal =
      some (pm.releaseRejected order.currency (order.value info)) := by
  have found : registry.get order.refusal.instrument = some info := known
  have cash : HoldsLock order.refusal.side order.refusal.tradeMode := Or.inr rfl
  rw [TradingEngine.applyReport_spotRejected rfl rfl, PositionManager.updateSpotOnRejected_eq,
    found, Option.map_some, if_pos cash]
  rfl

theorem handleOrderUpdate_refusal (order : SpotLimit)
    (known : registry.get order.instrument = some info)
    {engine : TradingEngine} {clientOrderId : String} (named : clientOrderId ≠ "")
    (noEmptyId : "" ∉ engine.liveOrderInstruments) :
    ∃ after, engine.handleOrderUpdate registry order.refusal clientOrderId = some after ∧
      after.positionManager = refusedPositions info order
        (decide (clientOrderId ∈ engine.clientOrderIdToReservation)) engine.positionManager := by
  by_cases recorded : clientOrderId ∈ engine.clientOrderIdToReservation
  · have needed : engine.needsRecovery order.refusal clientOrderId = true :=
      TradingEngine.needsRecovery_iff.mpr ⟨by simp [SpotLimit.refusal], named, noEmptyId, recorded⟩
    have found : registry.get order.refusal.instrument = some info := known
    have cash : HoldsLock order.refusal.side order.refusal.tradeMode := Or.inr rfl
    have spot : order.refusal.marketType = .spot := rfl
    rw [TradingEngine.handleOrderUpdate_of_recovery needed, TradingEngine.recoverPositions,
      if_pos spot, PositionManager.updateSpotOnNew_eq, found, Option.map_some, Option.map_some,
      Option.bind_some, if_pos cash]
    have notCancel : ((engine.setPositions (engine.positionManager.lock order.currency
        (order.value info))).insertLive order.refusal.orderId
          order.refusal.instrument).isDuplicateCancel order.refusal = false := rfl
    obtain ⟨after, ran, effect⟩ := TradingEngine.finishUpdate_effect clientOrderId notCancel
      (applyReport_refusal known _)
    refine ⟨after, ran, ?_⟩
    rw [effect.positions, refusedPositions, decide_eq_true recorded]
    rfl
  · have noRecovery : engine.needsRecovery order.refusal clientOrderId = false := by
      rw [Bool.eq_false_iff, Ne, TradingEngine.needsRecovery_iff]
      exact fun needed => recorded needed.2.2.2
    rw [TradingEngine.handleOrderUpdate_of_noRecovery noRecovery]
    have notCancel : engine.isDuplicateCancel order.refusal = false := rfl
    obtain ⟨after, ran, effect⟩ := TradingEngine.finishUpdate_effect clientOrderId notCancel
      (applyReport_refusal known _)
    refine ⟨after, ran, ?_⟩
    rw [effect.positions, refusedPositions, decide_eq_false recorded]
    rfl

/-- The states and orders whose refusal leaves no trace. -/
def CleanRefusal (info : InstrumentInfo) (order : SpotLimit) (pm : PositionManager) : Prop :=
  if HoldsLock order.side order.tradeMode then 0 ≤ order.value info
  else order.volume = 0 ∨
    ¬ pm.FrozenCovers order.currency (order.value info) ∧ pm.reserved order.currency = 0

theorem noTrace_refused_iff {pm : PositionManager} {recorded : Bool}
    (isRecorded : recorded = true ↔ 0 < order.reserves info)
    (frozenNonneg : ∀ currency, 0 ≤ (pm.spot currency).frozen)
    (covered : order.reserves info ≤ pm.reserved order.currency) :
    NoTrace order.currency (order.reserves info) pm (refusedPositions info order recorded pm) ↔
      CleanRefusal info order pm := by
  rw [refusedPositions, CleanRefusal]
  by_cases holds : HoldsLock order.side order.tradeMode
  · have amount : order.reserves info = order.value info := if_pos holds
    rw [amount] at isRecorded covered ⊢
    rw [if_pos holds]
    by_cases positive : 0 < order.value info
    · rw [if_pos (isRecorded.mpr positive)]
      exact iff_of_true (PositionManager.noTrace_lock_releaseRejected (frozenNonneg _) covered)
        positive.le
    · rw [if_neg (fun isTrue => positive (isRecorded.mp isTrue))]
      have covers : pm.FrozenCovers order.currency (order.value info) := by
        have nonneg := frozenNonneg order.currency
        rw [PositionManager.FrozenCovers, PositionManager.frozenTolerance]
        linarith
      constructor
      · intro clean
        have frozen := clean.frozen order.currency
        rw [(PositionManager.releaseRejected_frozen covers _).2.1, if_pos rfl] at frozen
        linarith
      · intro nonneg
        have zero : order.value info = 0 := le_antisymm (not_lt.mp positive) nonneg
        have clean := (PositionManager.noTrace_releaseRejected_frozen covers).mpr zero
        rw [zero] at clean ⊢
        exact clean
  · have amount : order.reserves info = 0 := if_neg holds
    have sells : order.side = .sell := by
      cases sideCase : order.side with
      | buy => exact absurd (Or.inl sideCase) holds
      | sell => rfl
    have volumeZero : order.value info = 0 ↔ order.volume = 0 := by
      rw [SpotLimit.value, sells, lockValue, ← decode_zero info.volumePrecision, decode_inj]
    have notRecorded : ¬ recorded = true := fun isTrue => by
      have positive := isRecorded.mp isTrue
      rw [amount] at positive
      exact lt_irrefl _ positive
    rw [amount, if_neg notRecorded, if_neg holds]
    by_cases covers : pm.FrozenCovers order.currency (order.value info)
    · rw [PositionManager.noTrace_releaseRejected_frozen covers, volumeZero]
      simp [covers]
    · rw [PositionManager.noTrace_releaseRejected_reserved covers (frozenNonneg _)]
      constructor
      · exact fun empty => Or.inr ⟨covers, empty⟩
      · rintro (noVolume | ⟨_, empty⟩)
        · refine absurd ?_ covers
          have nonneg := frozenNonneg order.currency
          rw [PositionManager.FrozenCovers, volumeZero.mpr noVolume,
            PositionManager.frozenTolerance]
          linarith
        · exact empty

/-- A refused spot LIMIT order gives back exactly its reservation and leaves
every balance alone when it had something to reserve; a margin SELL does so only
if it happens on an idle currency. -/
theorem refused_leaves_no_trace_iff (known : registry.get order.instrument = some info)
    (fits : FitsBuffer order.instrument) (system : TradingSystem)
    {clientOrderId opId code : String} (named : clientOrderId ≠ "") (opNamed : opId ≠ "")
    (refused : code ≠ "0")
    (pending : system.pendingWsOps.lookup opId = some (order.request info clientOrderId))
    (recorded : clientOrderId ∈ system.engine.clientOrderIdToReservation ↔
      0 < order.reserves info)
    (noEmptyId : "" ∉ system.engine.liveOrderInstruments)
    (frozenNonneg : ∀ currency, 0 ≤ (system.positions.spot currency).frozen)
    (covered : order.reserves info ≤ system.positions.reserved order.currency) :
    ∃ after, system.onOpResponse registry "order" code opId = some after ∧
      (NoTrace order.currency (order.reserves info) system.positions after.positions ↔
        CleanRefusal info order system.positions) := by
  obtain ⟨engine, ran, positions⟩ := handleOrderUpdate_refusal order known named noEmptyId
  have carried : (order.request info clientOrderId).clientOrderId = clientOrderId := rfl
  refine ⟨{ system with engine := engine, pendingWsOps := system.pendingWsOps.erase opId }, ?_, ?_⟩
  · rw [TradingSystem.onOpResponse, if_pos refused, if_pos ⟨rfl, opNamed⟩, pending]
    simp only [rejectedReport_request known fits, carried, Option.bind_eq_bind, Option.bind_some,
      ran]
  · rw [TradingSystem.positions, TradingSystem.positions, positions]
    exact noTrace_refused_iff (decide_eq_true_iff.trans recorded) frozenNonneg covered

end Refusal

/-! ## A refused margin SELL beside another order -/

def marginSell : SpotLimit :=
  { instrument := "BTC-USDT", side := .sell, tradeMode := .cross, positionSide := .net,
    price := 300, volume := 2 }

/-- Three BTC are frozen for another order when the margin SELL is pending. -/
def marginSellPending : TradingSystem :=
  { engine :=
      { positionManager :=
          { spotPositions := Finmap.singleton "BTC" { currency := "BTC", frozen := 3 } }
        liveOrderInstruments := Finmap.singleton "11" "BTC-USDT" }
    pendingWsOps := Finmap.singleton "op1" (marginSell.request btcUsdt "cts3") }

theorem marginSellPending_frozen (currency : String) :
    0 ≤ (marginSellPending.positions.spot currency).frozen := by
  have read : marginSellPending.positions.spot currency =
      if currency = "BTC" then { currency := "BTC", frozen := 3 } else {} :=
    UnorderedMap.getD_insert ∅ "BTC" currency _ _
  rw [read]
  split <;> norm_num

theorem refused_leaves_no_trace_iff_marginSell : ∃ after,
    marginSellPending.onOpResponse btcUsdtRegistry "order" "51008" "op1" = some after ∧
      (NoTrace "BTC" 0 marginSellPending.positions after.positions ↔
        CleanRefusal btcUsdt marginSell marginSellPending.positions) :=
  refused_leaves_no_trace_iff
    (show btcUsdtRegistry.get marginSell.instrument = some btcUsdt by decide) (by decide)
    marginSellPending (show "cts3" ≠ "" by decide) (by decide) (by decide) (by decide)
    (by decide +kernel) (by decide) marginSellPending_frozen (by decide +kernel)

/-- The refused margin SELL takes two of the three frozen BTC. -/
theorem refused_marginSell_leaves_trace :
    ¬ ∀ (registry : InstrumentRegistry) (info : InstrumentInfo) (order : SpotLimit)
        (system : TradingSystem) (clientOrderId opId code : String),
      registry.get order.instrument = some info → FitsBuffer order.instrument →
      clientOrderId ≠ "" → opId ≠ "" → code ≠ "0" →
      system.pendingWsOps.lookup opId = some (order.request info clientOrderId) →
      (clientOrderId ∈ system.engine.clientOrderIdToReservation ↔ 0 < order.reserves info) →
      "" ∉ system.engine.liveOrderInstruments →
      (∀ currency, 0 ≤ (system.positions.spot currency).frozen) →
      order.reserves info ≤ system.positions.reserved order.currency →
      0 < order.price → 0 < order.volume →
      ∃ after, system.onOpResponse registry "order" code opId = some after ∧
        NoTrace order.currency (order.reserves info) system.positions after.positions := by
  intro claim
  obtain ⟨after, ran, clean⟩ := claim btcUsdtRegistry btcUsdt marginSell marginSellPending "cts3"
    "op1" "51008" (by decide) (by decide) (by decide) (by decide) (by decide) (by decide)
    (by decide +kernel) (by decide) marginSellPending_frozen (by decide +kernel) (by decide)
    (by decide)
  have left : (marginSellPending.onOpResponse btcUsdtRegistry "order" "51008" "op1").map
      (fun after => (after.positions.spot "BTC").frozen) = some 1 := by decide +kernel
  have before : (marginSellPending.positions.spot "BTC").frozen = 3 := by decide +kernel
  rw [ran, Option.map_some, Option.some.injEq, clean.frozen, before] at left
  norm_num at left

end CryptoTrading
