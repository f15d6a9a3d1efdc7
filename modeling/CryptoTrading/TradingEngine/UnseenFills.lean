import CryptoTrading.TradingEngine.FillMeasure
import CryptoTrading.TradingEngine.OrderHistory

/-! # Cancels that carry fills

A CANCELLED report states what was filled before the cancel, and the order may
have been filled further than its tracker knows.  The cancel path looks at the
remainder only, so the balances keep the fills in between out of the account,
except where these fills come to nothing. -/
set_option autoImplicit false

namespace CryptoTrading

open TradingEngine

structure SameHoldings (left right : PositionManager) : Prop where
  available : ∀ currency, (left.spot currency).available = (right.spot currency).available
  frozen : ∀ currency, (left.spot currency).frozen = (right.spot currency).frozen
  contracts : ∀ instrument positionSide,
    (left.swap instrument positionSide).contracts = (right.swap instrument positionSide).contracts

def asPartialFill (report : ExecutionReport) : ExecutionReport :=
  { report with status := .partiallyFilled }

def SpotFillVoid (report : ExecutionReport) (volume : ℚ) : Prop :=
  match report.side with
  | .buy => report.avgFillPrice = 0 ∧
      report.feeCurrency = extractCurrency .base report.instrument ∧ report.fee = -volume
  | .sell => report.tradeMode ≠ .cash ∧
      report.avgFillPrice * volume +
        (if report.feeCurrency = extractCurrency .quote report.instrument then report.fee
          else 0) = 0 ∧
      (report.feeCurrency = extractCurrency .base report.instrument →
        report.feeCurrency ≠ extractCurrency .quote report.instrument → report.fee = 0)

/-- A fill of `volume` that changes nothing: on a closing swap order, one against
a position that is already empty. -/
def FillVoid (pm : PositionManager) (report : ExecutionReport) (volume : ℚ) : Prop :=
  match report.marketType with
  | .spot => SpotFillVoid report volume
  | .swap => Closes report ∧ pm.contractsOf report = 0

section Spot
variable {report : ExecutionReport} {volume : ℚ}

theorem spotFillVoid_buy (buys : report.side = .buy) (positive : 0 < volume) :
    ((∀ currency, PositionManager.fillCredit report volume currency +
        PositionManager.feeCredit report currency = 0) ∧
      report.avgFillPrice * volume = 0) ↔ SpotFillVoid report volume := by
  simp only [SpotFillVoid, PositionManager.fillCredit, buys, PositionManager.feeCredit]
  constructor
  · rintro ⟨credits, worthless⟩
    have base := credits (extractCurrency .base report.instrument)
    rw [if_pos rfl] at base
    have paid : extractCurrency .base report.instrument = report.feeCurrency := by
      by_contra other
      rw [if_neg fun both => other both.1, add_zero] at base
      exact positive.ne' base
    rw [if_pos ⟨paid, Or.inl rfl⟩] at base
    exact ⟨(mul_eq_zero.mp worthless).resolve_right positive.ne', paid.symm, by linarith⟩
  · rintro ⟨worthless, paid, fee⟩
    refine ⟨fun currency => ?_, by rw [worthless, zero_mul]⟩
    rw [paid, fee]
    by_cases isBase : currency = extractCurrency .base report.instrument
    · simp [isBase]
    · simp [isBase]

theorem spotFillVoid_sell (sells : report.side = .sell) :
    ((∀ currency, PositionManager.fillCredit report volume currency +
        PositionManager.feeCredit report currency = 0) ∧ report.tradeMode ≠ .cash) ↔
      SpotFillVoid report volume := by
  simp only [SpotFillVoid, PositionManager.fillCredit, sells, PositionManager.feeCredit]
  rw [and_comm]
  refine and_congr_right fun _ => ⟨fun credits => ⟨?_, fun isBase notQuote => ?_⟩, ?_⟩
  · have quote := credits (extractCurrency .quote report.instrument)
    rw [if_pos rfl] at quote
    simpa [eq_comm] using quote
  · have base := credits report.feeCurrency
    rwa [if_neg notQuote, if_pos ⟨rfl, Or.inl isBase⟩, zero_add] at base
  · rintro ⟨quote, base⟩ currency
    by_cases isQuote : currency = extractCurrency .quote report.instrument
    · subst isQuote
      simpa [eq_comm] using quote
    · rw [if_neg isQuote, zero_add]
      split
      · next paid =>
          obtain ⟨rfl, isBase | absurdity⟩ := paid
          · exact base isBase isQuote
          · exact absurd absurdity isQuote
      · rfl

end Spot

section Fill
variable {registry : InstrumentRegistry} {info : InstrumentInfo} {pm : PositionManager}
  {report : ExecutionReport}

theorem swap_updateSpotOnFill {after : PositionManager} {tradeMode : TradeMode}
    (fills : report.status = .filled ∨ report.status = .partiallyFilled)
    (ran : pm.updateSpotOnFill registry report tradeMode = some after) :
    after.swapPositions = pm.swapPositions := by
  rw [PositionManager.updateSpotOnFill_eq _ _ _ _ fills] at ran
  split at ran
  · rw [← Option.some.inj ran]
    rfl
  · obtain ⟨info, -, rfl⟩ := Option.map_eq_some_iff.mp ran
    rw [PositionManager.applySpotFill_frame]
    rfl

/-- A spot fill leaves the holdings as they are when it credits nothing and
consumes nothing. -/
theorem sameHoldings_spotFill_iff {after : PositionManager} {tradeMode : TradeMode} {volume : ℚ}
    (effect : PositionManager.SpotFillEffect pm after report tradeMode volume)
    (swap : after.swapPositions = pm.swapPositions) :
    SameHoldings pm after ↔
      (∀ currency, PositionManager.fillCredit report volume currency +
        (if 0 < volume then PositionManager.feeCredit report currency else 0) = 0) ∧
      (HoldsLock report.side tradeMode → PositionManager.fillConsumes report volume = 0) := by
  constructor
  · intro same
    refine ⟨fun currency => ?_, fun locks => ?_⟩
    · have available := same.available currency
      rw [effect.available, add_assoc] at available
      exact left_eq_add.mp available
    · have frozen := same.frozen (lockedCurrencyOf report.instrument report.side)
      rw [effect.frozen, if_pos ⟨locks, rfl⟩] at frozen
      linarith
  · rintro ⟨credits, consumes⟩
    refine ⟨fun currency => ?_, fun currency => ?_, fun instrument positionSide => ?_⟩
    · rw [effect.available, add_assoc, credits, add_zero]
    · rw [effect.frozen]
      split
      · next locked => rw [consumes locked.1, sub_zero]
      · rw [sub_zero]
    · rw [PositionManager.swap, PositionManager.swap, swap]

theorem spotPartialFill_void_iff (market : report.marketType = .spot)
    (known : registry.get report.instrument = some info)
    (ordered : pm.spotOrderFillTracker.getD report.orderId 0 ≤ report.filledVolume) :
    ∃ after, applyReport registry pm (asPartialFill report) = some after ∧
      (SameHoldings pm after ↔
        report.filledVolume = pm.spotOrderFillTracker.getD report.orderId 0 ∨
          SpotFillVoid report (decode
            (report.filledVolume - pm.spotOrderFillTracker.getD report.orderId 0)
            info.volumePrecision)) := by
  have partly : (asPartialFill report).status = .partiallyFilled := rfl
  have knownHere : registry.get (asPartialFill report).instrument = some info := known
  obtain ⟨after, ran, effect⟩ := PositionManager.updateSpotOnFill_spec
    (asPartialFill report).tradeMode knownHere (Or.inr partly) ordered
  have applied : applyReport registry pm (asPartialFill report) = some after := by
    rw [applyReport_spotFill (by exact market) (Or.inr partly) knownHere]
    exact ran
  have swap := swap_updateSpotOnFill (Or.inr partly) ran
  refine ⟨after, applied, ?_⟩
  generalize volumeIs : decode (report.filledVolume -
    pm.spotOrderFillTracker.getD report.orderId 0) info.volumePrecision = volume
  have same : SameHoldings pm after ↔
      (∀ currency, PositionManager.fillCredit report volume currency +
        (if 0 < volume then PositionManager.feeCredit report currency else 0) = 0) ∧
      (HoldsLock report.side report.tradeMode →
        PositionManager.fillConsumes report volume = 0) := by
    rw [← volumeIs]
    have general := sameHoldings_spotFill_iff effect swap
    exact general
  by_cases seen : report.filledVolume = pm.spotOrderFillTracker.getD report.orderId 0
  · have nothing : volume = 0 := by
      rw [← volumeIs, seen, sub_self, decode_zero]
    subst nothing
    refine iff_of_true (same.mpr ⟨fun currency => ?_, fun _ => ?_⟩) (Or.inl seen)
    · rw [PositionManager.fillCredit_zero, if_neg (lt_irrefl 0), add_zero]
    · rw [PositionManager.fillConsumes_zero]
  · have positive : 0 < volume := by
      rw [← volumeIs, decode_pos]
      omega
    simp only [if_pos positive] at same
    rw [same, or_iff_right seen]
    cases side : report.side with
    | buy =>
        rw [← spotFillVoid_buy side positive, PositionManager.fillConsumes, side]
        simp only [holdsLock_buy, forall_const]
    | sell =>
        rw [← spotFillVoid_sell side, PositionManager.fillConsumes, side]
        simp only [holdsLock_sell, positive.ne', imp_false, ne_eq]

theorem contracts_updateSwapOnFill {after : PositionManager}
    (known : registry.get report.instrument = some info)
    (ran : pm.updateSwapOnFill registry report = some after) (instrument : String)
    (positionSide : PosSide) :
    (after.swap instrument positionSide).contracts =
      if 0 < pm.swapIncrement report ∧
          (instrument, positionSide) = (report.instrument, report.positionSide) then
        PositionManager.contractsAfter report.positionSide report.side (pm.contractsOf report)
          (decode (pm.swapIncrement report) info.volumePrecision)
      else (pm.swap instrument positionSide).contracts := by
  rw [PositionManager.updateSwapOnFill_eq] at ran
  split at ran
  · next idle =>
      rw [← Option.some.inj ran, PositionManager.swap_trackSwapFill,
        PositionManager.contracts_nameSwap, if_neg fun moves => by omega]
  · next moves =>
      rw [known, Option.map_some, Option.some.injEq] at ran
      rw [← ran, PositionManager.contracts_applySwapFill]
      simp only [PositionManager.swap_trackSwapFill, PositionManager.contracts_nameSwap,
        PositionManager.contractsOf, not_le.mp moves, true_and]

/-- A fill leaves its position as it is only when it closes an empty one. -/
theorem contractsAfter_eq_self_iff {contracts volume : ℚ} (positive : 0 < volume) :
    contracts = PositionManager.contractsAfter report.positionSide report.side contracts volume ↔
      PositionManager.isOpening report.positionSide report.side = false ∧ contracts = 0 := by
  rw [PositionManager.contractsAfter]
  cases PositionManager.isOpening report.positionSide report.side with
  | true =>
      simp only [if_true, reduceCtorEq, false_and, iff_false]
      linarith
  | false =>
      simp only [Bool.false_eq_true, if_false, true_and]
      constructor
      · intro same
        rcases le_total (contracts - volume) 0 with short | enough
        · rwa [max_eq_left short] at same
        · rw [max_eq_right enough] at same
          linarith
      · rintro rfl
        rw [max_eq_left (by linarith)]

theorem swapPartialFill_void_iff (market : report.marketType = .swap)
    (known : registry.get report.instrument = some info)
    (ordered : pm.swapOrderFillTracker.getD report.orderId 0 ≤ report.filledVolume) :
    ∃ after, applyReport registry pm (asPartialFill report) = some after ∧
      (SameHoldings pm after ↔
        report.filledVolume = pm.swapOrderFillTracker.getD report.orderId 0 ∨
          Closes report ∧ pm.contractsOf report = 0) := by
  have partly : (asPartialFill report).status = .partiallyFilled := rfl
  have knownHere : registry.get (asPartialFill report).instrument = some info := known
  obtain ⟨after, ran⟩ := PositionManager.updateSwapOnFill_registered knownHere pm
  have applied : applyReport registry pm (asPartialFill report) = some after := by
    rw [applyReport_swapFill (by exact market) (Or.inr partly) knownHere]
    exact ran
  have contracts : ∀ instrument positionSide, (after.swap instrument positionSide).contracts =
      if 0 < pm.swapIncrement report ∧
          (instrument, positionSide) = (report.instrument, report.positionSide) then
        PositionManager.contractsAfter report.positionSide report.side (pm.contractsOf report)
          (decode (pm.swapIncrement report) info.volumePrecision)
      else (pm.swap instrument positionSide).contracts := by
    intro instrument positionSide
    have general := contracts_updateSwapOnFill knownHere ran instrument positionSide
    exact general
  have spot : ∀ currency, after.spot currency = pm.spot currency := by
    intro currency
    rw [PositionManager.spot, PositionManager.spot,
      (PositionManager.updateSwapOnFill_frame registry pm after _ ran).1]
  have same : SameHoldings pm after ↔
      ∀ instrument positionSide, (pm.swap instrument positionSide).contracts =
        (after.swap instrument positionSide).contracts :=
    ⟨SameHoldings.contracts, fun agree =>
      ⟨fun currency => by rw [spot], fun currency => by rw [spot], agree⟩⟩
  refine ⟨after, applied, ?_⟩
  rw [same]
  by_cases seen : report.filledVolume = pm.swapOrderFillTracker.getD report.orderId 0
  · refine iff_of_true (fun instrument positionSide => ?_) (Or.inl seen)
    rw [contracts, if_neg]
    rw [PositionManager.swapIncrement]
    omega
  · have moves : 0 < pm.swapIncrement report := by
      rw [PositionManager.swapIncrement]
      omega
    rw [or_iff_right seen, Closes, and_iff_right market,
      ← contractsAfter_eq_self_iff ((decode_pos info.volumePrecision).mpr moves)]
    constructor
    · intro agree
      have own := agree report.instrument report.positionSide
      rwa [contracts, if_pos ⟨moves, rfl⟩] at own
    · intro kept instrument positionSide
      rw [contracts]
      split
      · next own =>
          obtain ⟨rfl, rfl⟩ := Prod.mk.inj own.2
          exact kept
      · rfl

theorem partialFill_void_iff (known : registry.get report.instrument = some info)
    (ordered : pm.fillTracker report ≤ report.filledVolume) :
    ∃ after, applyReport registry pm (asPartialFill report) = some after ∧
      (SameHoldings pm after ↔ report.filledVolume = pm.fillTracker report ∨
        FillVoid pm report
          (decode (report.filledVolume - pm.fillTracker report) info.volumePrecision)) := by
  cases market : report.marketType with
  | spot =>
      have tracker : pm.fillTracker report = pm.spotOrderFillTracker.getD report.orderId 0 := by
        simp [PositionManager.fillTracker, market]
      rw [tracker] at ordered ⊢
      simp only [FillVoid, market]
      exact spotPartialFill_void_iff market known ordered
  | swap =>
      have tracker : pm.fillTracker report = pm.swapOrderFillTracker.getD report.orderId 0 := by
        simp [PositionManager.fillTracker, market]
      rw [tracker] at ordered ⊢
      simp only [FillVoid, market]
      exact swapPartialFill_void_iff market known ordered

/-! ## The cancel itself -/

/-- A cancel moves an amount from frozen to available that depends on the report
alone. -/
theorem applyReport_cancel_shift (known : registry.get report.instrument = some info)
    (cancels : report.status = .cancelled) :
    ∃ returned : String → ℚ, ∀ pm : PositionManager, ∃ after,
      applyReport registry pm report = some after ∧
        (∀ currency, (after.spot currency).available =
          (pm.spot currency).available + returned currency) ∧
        (∀ currency, (after.spot currency).frozen =
          (pm.spot currency).frozen - returned currency) ∧
        after.swapPositions = pm.swapPositions := by
  cases market : report.marketType with
  | spot =>
      by_cases returns : report.totalVolume - report.filledVolume > 0 ∧
          HoldsLock report.side report.tradeMode
      · refine ⟨fun currency =>
          if currency = lockedCurrencyOf report.instrument report.side then
            lockValue info report.side report.price (report.totalVolume - report.filledVolume)
          else 0, fun pm => ?_⟩
        rw [applyReport_spotCancel market cancels known,
          PositionManager.updateSpotOnCancel_eq _ _ _ _ cancels, if_pos returns.1, known,
          Option.map_some, if_pos returns.2]
        refine ⟨_, rfl, fun currency => ?_, fun currency => ?_, rfl⟩
        · rw [PositionManager.spot_untrackSpot, PositionManager.available_release]
        · rw [PositionManager.spot_untrackSpot, PositionManager.frozen_release]
      · refine ⟨fun _ => 0, fun pm => ⟨pm.untrackSpot report.orderId, ?_,
          fun _ => (add_zero _).symm, fun _ => (sub_zero _).symm, rfl⟩⟩
        rw [applyReport_spotCancel market cancels known,
          PositionManager.updateSpotOnCancel_eq _ _ _ _ cancels, known]
        split
        · next remains =>
            rw [Option.map_some, if_neg fun locks => returns ⟨remains, locks⟩]
        · rfl
  | swap =>
      refine ⟨fun _ => 0, fun pm => ⟨pm.updateSwapOnCancel report, ?_,
        fun _ => (add_zero _).symm, fun _ => (sub_zero _).symm, rfl⟩⟩
      rw [applyReport, cancels]
      exact if_pos market

theorem cancel_sameHoldings_iff (known : registry.get report.instrument = some info)
    (cancels : report.status = .cancelled) (left right : PositionManager) :
    ∃ leftAfter rightAfter, applyReport registry left report = some leftAfter ∧
      applyReport registry right report = some rightAfter ∧
      (SameHoldings leftAfter rightAfter ↔ SameHoldings left right) := by
  obtain ⟨returned, shifts⟩ := applyReport_cancel_shift known cancels
  obtain ⟨leftAfter, leftRan, leftAvailable, leftFrozen, leftSwap⟩ := shifts left
  obtain ⟨rightAfter, rightRan, rightAvailable, rightFrozen, rightSwap⟩ := shifts right
  refine ⟨leftAfter, rightAfter, leftRan, rightRan, ?_⟩
  constructor
  · intro same
    refine ⟨fun currency => ?_, fun currency => ?_, fun instrument positionSide => ?_⟩
    · have available := same.available currency
      rw [leftAvailable, rightAvailable] at available
      exact add_right_cancel available
    · have frozen := same.frozen currency
      rw [leftFrozen, rightFrozen] at frozen
      exact sub_left_inj.mp frozen
    · have contracts := same.contracts instrument positionSide
      rwa [PositionManager.swap, PositionManager.swap, leftSwap, rightSwap] at contracts
  · intro same
    refine ⟨fun currency => ?_, fun currency => ?_, fun instrument positionSide => ?_⟩
    · rw [leftAvailable, rightAvailable, same.available]
    · rw [leftFrozen, rightFrozen, same.frozen]
    · rw [PositionManager.swap, PositionManager.swap, leftSwap, rightSwap]
      exact same.contracts instrument positionSide

end Fill

/-! ## `HandleOrderUpdate` -/

/-- The cancel alone leaves the holdings that the missing fill report and the
cancel after it would have left. -/
def CarriesUnseenFills (registry : InstrumentRegistry) (engine : TradingEngine)
    (report : ExecutionReport) (clientOrderId : String) : Prop :=
  ∃ alone both, engine.handleOrderUpdate registry report clientOrderId = some alone ∧
    ((engine.handleOrderUpdate registry (asPartialFill report) clientOrderId).bind fun filled =>
      filled.handleOrderUpdate registry report clientOrderId) = some both ∧
    SameHoldings alone.positionManager both.positionManager

section Engine
variable {registry : InstrumentRegistry} {info : InstrumentInfo} {engine : TradingEngine}
  {report : ExecutionReport} {clientOrderId : String}

/-- What the recovery leaves behind: a report of the same order needs none, and
no fill of it has been touched. -/
structure Recovered (engine recovered : TradingEngine) (report : ExecutionReport)
    (clientOrderId : String) : Prop where
  settled : recovered.needsRecovery report clientOrderId = false
  tracker : recovered.positionManager.fillTracker report = engine.positionManager.fillTracker report
  swap : recovered.positionManager.swapPositions = engine.positionManager.swapPositions

theorem recoverMissedNew_recovered (known : registry.get report.instrument = some info)
    (engine : TradingEngine) (clientOrderId : String) : ∃ recovered,
      engine.recoverMissedNew registry report clientOrderId = some recovered ∧
        Recovered engine recovered report clientOrderId := by
  rw [recoverMissedNew]
  split
  · next needed =>
      have settled : ∀ positions : TradingEngine,
          (positions.insertLive report.orderId report.instrument).needsRecovery report
            clientOrderId = false :=
        fun positions => noRecovery_of_live (Finmap.mem_insert.mpr (Or.inl rfl)) clientOrderId
      rw [recoverPositions]
      split
      · cases applied : engine.positionManager.updateSpotOnNew registry report
            report.tradeMode with
        | none =>
            rw [PositionManager.updateSpotOnNew_eq, known] at applied
            cases applied
        | some pm =>
            have same := PositionManager.updateSpotOnNew_sameFills applied
            refine ⟨_, rfl, settled _, ?_, same.swapPositions⟩
            simp only [PositionManager.fillTracker, positionManager_insertLive,
              positionManager_setPositions, same.spotTracker, same.swapTracker]
      · exact ⟨_, rfl, settled _, rfl, rfl⟩
  · next idle => exact ⟨_, rfl, Bool.eq_false_iff.mpr idle, rfl, rfl⟩

theorem recoverMissedNew_asPartialFill (cancels : report.status = .cancelled) :
    engine.recoverMissedNew registry (asPartialFill report) clientOrderId =
      engine.recoverMissedNew registry report clientOrderId := by
  have same : engine.needsRecovery (asPartialFill report) clientOrderId =
      engine.needsRecovery report clientOrderId := by
    simp [needsRecovery, asPartialFill, cancels]
  rw [recoverMissedNew, recoverMissedNew, same]
  rfl

theorem finishUpdate_asPartialFill (clientOrderId : String) {pm : PositionManager}
    (applied : applyReport registry engine.positionManager (asPartialFill report) = some pm) :
    ∃ filled, engine.finishUpdate registry (asPartialFill report) clientOrderId = some filled ∧
      filled.positionManager = pm ∧
      filled.liveOrderInstruments = engine.liveOrderInstruments ∧
      filled.clientOrderIdToReservation = engine.clientOrderIdToReservation := by
  obtain ⟨filled, ran, effect⟩ := finishUpdate_effect clientOrderId
    (by simp [isDuplicateCancel, asPartialFill]) applied
  refine ⟨filled, ran, effect.positions, effect.live, ?_⟩
  rw [effect.reservations, eraseReservation, if_neg]
  simp [asPartialFill, endsReservation]

theorem fillVoid_congr {left right : PositionManager} {volume : ℚ}
    (same : left.swapPositions = right.swapPositions) :
    FillVoid left report volume ↔ FillVoid right report volume := by
  simp only [FillVoid, PositionManager.contractsOf, PositionManager.swap, same]

end Engine

/-- A cancel carries its unseen fills exactly when there are none or they come
to nothing. -/
theorem carriesUnseenFills_iff {registry : InstrumentRegistry} {info : InstrumentInfo}
    {engine : TradingEngine} {report : ExecutionReport} (clientOrderId : String)
    (known : registry.get report.instrument = some info) (cancels : report.status = .cancelled)
    (ordered : engine.positionManager.fillTracker report ≤ report.filledVolume) :
    CarriesUnseenFills registry engine report clientOrderId ↔
      report.filledVolume = engine.positionManager.fillTracker report ∨
        FillVoid engine.positionManager report
          (decode (report.filledVolume - engine.positionManager.fillTracker report)
            info.volumePrecision) := by
  obtain ⟨recovered, recovery, after⟩ := recoverMissedNew_recovered known engine clientOrderId
  rw [← after.tracker] at ordered ⊢
  rw [← fillVoid_congr after.swap]
  obtain ⟨pm, applied, void⟩ := partialFill_void_iff known ordered
  rw [← void]
  obtain ⟨filled, ranFill, positions, live, reservations⟩ :=
    finishUpdate_asPartialFill clientOrderId applied
  have settled : filled.needsRecovery report clientOrderId = false := by
    rw [← after.settled, needsRecovery, needsRecovery, live, reservations]
  have alone : engine.handleOrderUpdate registry report clientOrderId =
      recovered.finishUpdate registry report clientOrderId := by
    rw [handleOrderUpdate_eq, recovery, Option.bind_some]
  have both : ((engine.handleOrderUpdate registry (asPartialFill report) clientOrderId).bind
      fun filled => filled.handleOrderUpdate registry report clientOrderId) =
        filled.finishUpdate registry report clientOrderId := by
    rw [handleOrderUpdate_eq, recoverMissedNew_asPartialFill cancels, recovery, Option.bind_some,
      ranFill, Option.bind_some, handleOrderUpdate_of_noRecovery settled]
  have sameCheck : filled.isDuplicateCancel report = recovered.isDuplicateCancel report := by
    rw [isDuplicateCancel, isDuplicateCancel, live]
  rw [CarriesUnseenFills, alone, both]
  by_cases duplicate : recovered.isDuplicateCancel report = true
  · rw [finishUpdate, finishUpdate, sameCheck, if_pos duplicate, if_pos duplicate]
    simp [positions]
  · have fresh := Bool.eq_false_iff.mpr duplicate
    obtain ⟨left, right, leftRan, rightRan, same⟩ :=
      cancel_sameHoldings_iff known cancels recovered.positionManager filled.positionManager
    obtain ⟨leftAfter, leftDone, leftEffect⟩ := finishUpdate_effect clientOrderId fresh leftRan
    obtain ⟨rightAfter, rightDone, rightEffect⟩ :=
      finishUpdate_effect clientOrderId (sameCheck.trans fresh) rightRan
    rw [leftDone, rightDone, ← positions, ← same, ← leftEffect.positions,
      ← rightEffect.positions]
    simp

def liveTracked (tracked : Int) : TradingEngine :=
  { positionManager :=
      { spotPositions := Finmap.insert "USDT" { currency := "USDT", frozen := 200 } ∅
        spotOrderFillTracker := Finmap.insert "7" tracked ∅ }
    liveOrderInstruments := Finmap.insert "7" "BTC-USDT" ∅ }

def cancelAfterOne : ExecutionReport :=
  { instrument := "BTC-USDT", orderId := "7", status := .cancelled, price := 100,
    filledVolume := 1, totalVolume := 2, avgFillPrice := 100 }

theorem carriesUnseenFills_iff_seen :
    CarriesUnseenFills btcUsdtRegistry (liveTracked 1) cancelAfterOne "cts7" ↔
      cancelAfterOne.filledVolume = (liveTracked 1).positionManager.fillTracker cancelAfterOne ∨
        FillVoid (liveTracked 1).positionManager cancelAfterOne
          (decode (cancelAfterOne.filledVolume -
            (liveTracked 1).positionManager.fillTracker cancelAfterOne)
            btcUsdt.volumePrecision) :=
  carriesUnseenFills_iff "cts7" (by decide) rfl (by decide +kernel)

/-- When the report of that unit was missed, no BTC arrives. -/
theorem cancel_loses_unseen_fill :
    ¬ ∀ (registry : InstrumentRegistry) (info : InstrumentInfo) (engine : TradingEngine)
        (report : ExecutionReport) (clientOrderId : String),
      registry.get report.instrument = some info → report.status = .cancelled →
      engine.positionManager.fillTracker report ≤ report.filledVolume →
      CarriesUnseenFills registry engine report clientOrderId := by
  intro claim
  obtain ⟨alone, both, ranAlone, ranBoth, same⟩ := claim btcUsdtRegistry btcUsdt (liveTracked 0)
    cancelAfterOne "cts7" (by decide) rfl (by decide +kernel)
  have left : ((liveTracked 0).handleOrderUpdate btcUsdtRegistry cancelAfterOne "cts7").map
      (fun engine => (engine.positionManager.spot "BTC").available) = some 0 := by
    decide +kernel
  have right : (((liveTracked 0).handleOrderUpdate btcUsdtRegistry (asPartialFill cancelAfterOne)
      "cts7").bind fun filled =>
        filled.handleOrderUpdate btcUsdtRegistry cancelAfterOne "cts7").map
      (fun engine => (engine.positionManager.spot "BTC").available) = some 1 := by
    decide +kernel
  rw [ranAlone, Option.map_some, Option.some.injEq] at left
  rw [ranBoth, Option.map_some, Option.some.injEq] at right
  have available := same.available "BTC"
  rw [left, right] at available
  exact absurd available (by decide)

end CryptoTrading
