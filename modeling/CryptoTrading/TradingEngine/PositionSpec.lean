import CryptoTrading.TradingEngine.PositionManager

/-! # What each position update does

One equation per update: a NEW locks an amount of one currency, a fill consumes
from the lock, a cancel returns the remainder and a rejection decides between
the two by the frozen total.  Everything later is derived from these and never
unfolds an update again. -/
set_option autoImplicit false

namespace CryptoTrading

/-- The side of the pair an order takes its funds from. -/
def lockedPart : Side → CurrencyPart
  | .buy => .quote
  | .sell => .base

def lockedCurrencyOf (instrument : String) (side : Side) : String :=
  extractCurrency (lockedPart side) instrument

/-- Only a margin SELL locks nothing. -/
def HoldsLock (side : Side) (tradeMode : TradeMode) : Prop := side = .buy ∨ tradeMode = .cash

instance (side : Side) (tradeMode : TradeMode) : Decidable (HoldsLock side tradeMode) :=
  inferInstanceAs (Decidable (side = .buy ∨ tradeMode = .cash))

@[simp] theorem holdsLock_buy (tradeMode : TradeMode) : HoldsLock .buy tradeMode := Or.inl rfl

@[simp] theorem holdsLock_sell (tradeMode : TradeMode) :
    HoldsLock .sell tradeMode ↔ tradeMode = .cash := by
  simp [HoldsLock]

/-- The value of `volume` scaled units of an order in its locked currency. -/
def lockValue (info : InstrumentInfo) (side : Side) (price volume : Int) : ℚ :=
  match side with
  | .buy => decode price info.pricePrecision * decode volume info.volumePrecision
  | .sell => decode volume info.volumePrecision

theorem lockValue_sub (info : InstrumentInfo) (side : Side) (price left right : Int) :
    lockValue info side price (left - right) =
      lockValue info side price left - lockValue info side price right := by
  cases side
  · simp only [lockValue, decode_sub, mul_sub]
  · simp only [lockValue, decode_sub]

@[simp] theorem lockValue_zero (info : InstrumentInfo) (side : Side) (price : Int) :
    lockValue info side price 0 = 0 := by
  cases side <;> simp [lockValue]

theorem lockValue_nonneg (info : InstrumentInfo) (side : Side) {price volume : Int}
    (priceNonneg : 0 ≤ price) (volumeNonneg : 0 ≤ volume) :
    0 ≤ lockValue info side price volume := by
  have volumeValue := (decode_nonneg info.volumePrecision).mpr volumeNonneg
  cases side
  · exact mul_nonneg ((decode_nonneg info.pricePrecision).mpr priceNonneg) volumeValue
  · exact volumeValue

theorem lockValue_pos (info : InstrumentInfo) (side : Side) {price volume : Int}
    (pricePos : 0 < price) (volumePos : 0 < volume) :
    0 < lockValue info side price volume := by
  have volumeValue := (decode_pos info.volumePrecision).mpr volumePos
  cases side
  · exact mul_pos ((decode_pos info.pricePrecision).mpr pricePos) volumeValue
  · exact volumeValue

namespace PositionManager

/-! ## Reads after writes -/

@[simp] theorem spot_modifySpot (pm : PositionManager) (currency other : String)
    (change : SpotPosition → SpotPosition) :
    (pm.modifySpot currency change).spot other =
      if other = currency then change (pm.spot currency) else pm.spot other :=
  UnorderedMap.getD_insert ..

@[simp] theorem reserved_modifySpot (pm : PositionManager) (currency : String)
    (change : SpotPosition → SpotPosition) (other : String) :
    (pm.modifySpot currency change).reserved other = pm.reserved other := rfl

@[simp] theorem spot_setReserved (pm : PositionManager) (currency : String) (amount : ℚ)
    (other : String) : (pm.setReserved currency amount).spot other = pm.spot other := rfl

@[simp] theorem reserved_setReserved (pm : PositionManager) (currency other : String)
    (amount : ℚ) : (pm.setReserved currency amount).reserved other =
      if other = currency then amount else pm.reserved other :=
  UnorderedMap.getD_insert ..

@[simp] theorem spot_releaseReserved (pm : PositionManager) (currency : String) (amount : ℚ)
    (other : String) : (pm.releaseReserved currency amount).spot other = pm.spot other := rfl

@[simp] theorem reserved_releaseReserved (pm : PositionManager) (currency other : String)
    (amount : ℚ) : (pm.releaseReserved currency amount).reserved other =
      if other = currency then max 0 (pm.reserved currency - amount) else pm.reserved other :=
  reserved_setReserved ..

@[simp] theorem spot_trackSpotFill (pm : PositionManager) (report : ExecutionReport)
    (other : String) : (pm.trackSpotFill report).spot other = pm.spot other := rfl

@[simp] theorem reserved_trackSpotFill (pm : PositionManager) (report : ExecutionReport)
    (other : String) : (pm.trackSpotFill report).reserved other = pm.reserved other := rfl

@[simp] theorem swap_modifySwap (pm : PositionManager) (instrument other : String)
    (positionSide otherSide : PosSide) (change : SwapPosition → SwapPosition) :
    (pm.modifySwap instrument positionSide change).swap other otherSide =
      if (other, otherSide) = (instrument, positionSide) then
        change (pm.swap instrument positionSide)
      else pm.swap other otherSide :=
  UnorderedMap.getD_insert ..

@[simp] theorem spotOrderFillTracker_modifySpot (pm : PositionManager) (currency : String)
    (change : SpotPosition → SpotPosition) :
    (pm.modifySpot currency change).spotOrderFillTracker = pm.spotOrderFillTracker := rfl

@[simp] theorem spotOrderFillTracker_releaseReserved (pm : PositionManager) (currency : String)
    (amount : ℚ) :
    (pm.releaseReserved currency amount).spotOrderFillTracker = pm.spotOrderFillTracker := rfl

/-! ## NEW -/

/-- Moving `amount` from reserved and available to frozen. -/
def lock (pm : PositionManager) (currency : String) (amount : ℚ) : PositionManager :=
  (pm.releaseReserved currency amount).modifySpot currency fun position =>
    { position with
      currency := currency
      available := position.available - amount
      frozen := position.frozen + amount }

theorem updateSpotOnNew_eq (registry : InstrumentRegistry) (pm : PositionManager)
    (report : ExecutionReport) (tradeMode : TradeMode) :
    updateSpotOnNew registry pm report tradeMode =
      (registry.get report.instrument).map fun info =>
        if HoldsLock report.side tradeMode then
          pm.lock (lockedCurrencyOf report.instrument report.side)
            (lockValue info report.side report.price report.totalVolume)
        else pm := by
  unfold updateSpotOnNew
  cases registry.get report.instrument with
  | none => rfl
  | some info =>
      cases sideCase : report.side with
      | buy => simp [HoldsLock, lock, lockedCurrencyOf, lockedPart, lockValue]
      | sell =>
          by_cases cash : tradeMode = .cash <;>
            simp [HoldsLock, lock, lockedCurrencyOf, lockedPart, lockValue, cash]

theorem available_lock (pm : PositionManager) (currency other : String) (amount : ℚ) :
    ((pm.lock currency amount).spot other).available =
      (pm.spot other).available - if other = currency then amount else 0 := by
  rw [lock, spot_modifySpot]
  split <;> simp_all

theorem frozen_lock (pm : PositionManager) (currency other : String) (amount : ℚ) :
    ((pm.lock currency amount).spot other).frozen =
      (pm.spot other).frozen + if other = currency then amount else 0 := by
  rw [lock, spot_modifySpot]
  split <;> simp_all

theorem reserved_lock (pm : PositionManager) (currency other : String) (amount : ℚ) :
    (pm.lock currency amount).reserved other =
      if other = currency then max 0 (pm.reserved currency - amount) else pm.reserved other := by
  rw [lock, reserved_modifySpot, reserved_releaseReserved]

@[simp] theorem spotOrderFillTracker_lock (pm : PositionManager) (currency : String)
    (amount : ℚ) : (pm.lock currency amount).spotOrderFillTracker = pm.spotOrderFillTracker := rfl

@[simp] theorem swapOrderFillTracker_lock (pm : PositionManager) (currency : String)
    (amount : ℚ) : (pm.lock currency amount).swapOrderFillTracker = pm.swapOrderFillTracker := rfl

@[simp] theorem swap_lock (pm : PositionManager) (currency : String) (amount : ℚ)
    (instrument : String) (positionSide : PosSide) :
    (pm.lock currency amount).swap instrument positionSide = pm.swap instrument positionSide := rfl

/-! ## Fills -/

def spotIncrement (pm : PositionManager) (report : ExecutionReport) : Int :=
  report.filledVolume - pm.spotOrderFillTracker.getD report.orderId 0

theorem updateSpotOnFill_eq (registry : InstrumentRegistry) (pm : PositionManager)
    (report : ExecutionReport) (tradeMode : TradeMode)
    (fills : report.status = .filled ∨ report.status = .partiallyFilled) :
    updateSpotOnFill registry pm report tradeMode =
      if pm.spotIncrement report ≤ 0 then some (pm.trackSpotFill report)
      else (registry.get report.instrument).map fun info =>
        (pm.trackSpotFill report).applySpotFill report tradeMode
          (decode (pm.spotIncrement report) info.volumePrecision) := by
  rw [updateSpotOnFill, if_pos fills]
  cases registry.get report.instrument <;> rfl

section Shift
variable (pm : PositionManager) (currency other : String) (amount : ℚ)

@[simp] theorem available_nameSpot :
    ((pm.nameSpot currency).spot other).available = (pm.spot other).available := by
  rw [nameSpot, spot_modifySpot]
  split <;> simp_all

@[simp] theorem frozen_nameSpot :
    ((pm.nameSpot currency).spot other).frozen = (pm.spot other).frozen := by
  rw [nameSpot, spot_modifySpot]
  split <;> simp_all

@[simp] theorem available_addAvailable :
    ((pm.addAvailable currency amount).spot other).available =
      (pm.spot other).available + if other = currency then amount else 0 := by
  rw [addAvailable, spot_modifySpot]
  split <;> simp_all

@[simp] theorem frozen_addAvailable :
    ((pm.addAvailable currency amount).spot other).frozen = (pm.spot other).frozen := by
  rw [addAvailable, spot_modifySpot]
  split <;> simp_all

@[simp] theorem available_subFrozen :
    ((pm.subFrozen currency amount).spot other).available = (pm.spot other).available := by
  rw [subFrozen, spot_modifySpot]
  split <;> simp_all

@[simp] theorem frozen_subFrozen :
    ((pm.subFrozen currency amount).spot other).frozen =
      (pm.spot other).frozen - if other = currency then amount else 0 := by
  rw [subFrozen, spot_modifySpot]
  split <;> simp_all

end Shift

/-- The fee reaches a balance only when it is paid in one of the two currencies. -/
def feeCredit (report : ExecutionReport) (other : String) : ℚ :=
  if other = report.feeCurrency ∧
      (other = extractCurrency .base report.instrument ∨
        other = extractCurrency .quote report.instrument) then report.fee
  else 0

theorem available_creditFee (pm : PositionManager) (report : ExecutionReport)
    (first second other : String) :
    ((pm.creditFee report first second).spot other).available =
      (pm.spot other).available +
        if other = report.feeCurrency ∧ (other = first ∨ other = second) then report.fee
        else 0 := by
  rw [creditFee]
  by_cases isFirst : report.feeCurrency = first
  · rw [if_pos isFirst, available_addAvailable, isFirst]
    by_cases equal : other = first <;> simp [equal]
  · rw [if_neg isFirst]
    by_cases isSecond : report.feeCurrency = second
    · rw [if_pos isSecond, available_addAvailable, isSecond]
      by_cases equal : other = second <;> simp [equal]
    · rw [if_neg isSecond, if_neg, add_zero]
      rintro ⟨rfl, equal | equal⟩
      · exact isFirst equal
      · exact isSecond equal

@[simp] theorem frozen_creditFee (pm : PositionManager) (report : ExecutionReport)
    (first second other : String) :
    ((pm.creditFee report first second).spot other).frozen = (pm.spot other).frozen := by
  rw [creditFee]
  split_ifs <;> simp

def fillConsumes (report : ExecutionReport) (incremental : ℚ) : ℚ :=
  match report.side with
  | .buy => report.avgFillPrice * incremental
  | .sell => incremental

@[simp] theorem fillConsumes_zero (report : ExecutionReport) : fillConsumes report 0 = 0 := by
  rw [fillConsumes]
  cases report.side <;> simp

theorem frozen_applySpotFill (pm : PositionManager) (report : ExecutionReport)
    (tradeMode : TradeMode) (incremental : ℚ) (other : String) :
    ((pm.applySpotFill report tradeMode incremental).spot other).frozen =
      (pm.spot other).frozen -
        if HoldsLock report.side tradeMode ∧
            other = lockedCurrencyOf report.instrument report.side then
          fillConsumes report incremental
        else 0 := by
  cases sideCase : report.side with
  | buy =>
      simp [applySpotFill, sideCase, HoldsLock, lockedCurrencyOf, lockedPart, fillConsumes]
  | sell =>
      by_cases cash : tradeMode = .cash <;>
        simp [applySpotFill, sideCase, HoldsLock, lockedCurrencyOf, lockedPart, fillConsumes, cash]

/-- The currency a fill pays into, and how much. -/
def fillCredit (report : ExecutionReport) (incremental : ℚ) (other : String) : ℚ :=
  match report.side with
  | .buy => if other = extractCurrency .base report.instrument then incremental else 0
  | .sell =>
      if other = extractCurrency .quote report.instrument then
        report.avgFillPrice * incremental
      else 0

@[simp] theorem fillCredit_zero (report : ExecutionReport) (other : String) :
    fillCredit report 0 other = 0 := by
  rw [fillCredit]
  cases report.side <;> simp

theorem available_applySpotFill (pm : PositionManager) (report : ExecutionReport)
    (tradeMode : TradeMode) (incremental : ℚ) (other : String) :
    ((pm.applySpotFill report tradeMode incremental).spot other).available =
      (pm.spot other).available + fillCredit report incremental other +
        feeCredit report other := by
  cases sideCase : report.side with
  | buy =>
      simp [applySpotFill, sideCase, fillCredit, feeCredit, available_creditFee]
  | sell =>
      by_cases cash : tradeMode = .cash <;>
        simp [applySpotFill, sideCase, fillCredit, feeCredit, available_creditFee, cash, or_comm]

theorem applySpotFill_frame (pm : PositionManager) (report : ExecutionReport)
    (tradeMode : TradeMode) (incremental : ℚ) :
    pm.applySpotFill report tradeMode incremental =
      { pm with spotPositions :=
          (pm.applySpotFill report tradeMode incremental).spotPositions } := by
  unfold applySpotFill creditFee
  dsimp only
  split_ifs <;> rfl

theorem reserved_applySpotFill (pm : PositionManager) (report : ExecutionReport)
    (tradeMode : TradeMode) (incremental : ℚ) (other : String) :
    (pm.applySpotFill report tradeMode incremental).reserved other = pm.reserved other := by
  rw [applySpotFill_frame]
  rfl

@[simp] theorem swapOrderFillTracker_applySpotFill (pm : PositionManager)
    (report : ExecutionReport) (tradeMode : TradeMode) (incremental : ℚ) :
    (pm.applySpotFill report tradeMode incremental).swapOrderFillTracker =
      pm.swapOrderFillTracker := by
  rw [applySpotFill_frame]

@[simp] theorem spotOrderFillTracker_applySpotFill (pm : PositionManager)
    (report : ExecutionReport) (tradeMode : TradeMode) (incremental : ℚ) :
    (pm.applySpotFill report tradeMode incremental).spotOrderFillTracker =
      pm.spotOrderFillTracker := by
  rw [applySpotFill_frame]

/-- The tracker after a spot fill report, whether or not it carried an increment. -/
theorem tracker_trackSpotFill (pm : PositionManager) (report : ExecutionReport)
    (orderId : String) :
    (pm.trackSpotFill report).spotOrderFillTracker.getD orderId 0 =
      if orderId = report.orderId then
        if report.status = .filled then 0 else report.filledVolume
      else pm.spotOrderFillTracker.getD orderId 0 := by
  rw [trackSpotFill]
  split_ifs <;> simp_all

structure SpotFillEffect (pm after : PositionManager) (report : ExecutionReport)
    (tradeMode : TradeMode) (incremental : ℚ) : Prop where
  frozen : ∀ currency, (after.spot currency).frozen = (pm.spot currency).frozen -
    if HoldsLock report.side tradeMode ∧
        currency = lockedCurrencyOf report.instrument report.side then
      fillConsumes report incremental
    else 0
  available : ∀ currency, (after.spot currency).available = (pm.spot currency).available +
    fillCredit report incremental currency +
      if 0 < incremental then feeCredit report currency else 0
  reserved : ∀ currency, after.reserved currency = pm.reserved currency
  tracker : ∀ orderId, after.spotOrderFillTracker.getD orderId 0 =
    if orderId = report.orderId then
      if report.status = .filled then 0 else report.filledVolume
    else pm.spotOrderFillTracker.getD orderId 0

/-- The scaled volume a spot fill report is applied with: none when it is not
ahead of the tracker. -/
def spotApplied (pm : PositionManager) (report : ExecutionReport) : Int :=
  max 0 (pm.spotIncrement report)

theorem updateSpotOnFill_applied {registry : InstrumentRegistry} (pm : PositionManager)
    {report : ExecutionReport} {info : InstrumentInfo} (tradeMode : TradeMode)
    (known : registry.get report.instrument = some info)
    (fills : report.status = .filled ∨ report.status = .partiallyFilled) :
    ∃ after, updateSpotOnFill registry pm report tradeMode = some after ∧
      SpotFillEffect pm after report tradeMode
        (decode (pm.spotApplied report) info.volumePrecision) := by
  rw [updateSpotOnFill_eq registry pm report tradeMode fills, spotApplied]
  by_cases idle : pm.spotIncrement report ≤ 0
  · rw [if_pos idle, max_eq_left idle, decode_zero]
    refine ⟨_, rfl, ⟨fun currency => ?_, fun currency => ?_, fun _ => rfl,
      pm.tracker_trackSpotFill report⟩⟩
    · rw [fillConsumes_zero, ite_self, sub_zero, spot_trackSpotFill]
    · rw [fillCredit_zero, if_neg (lt_irrefl 0), add_zero, add_zero, spot_trackSpotFill]
  · rw [if_neg idle, known, Option.map_some, max_eq_right (not_le.mp idle).le]
    have positive : 0 < decode (pm.spotIncrement report) info.volumePrecision :=
      (decode_pos _).mpr (not_le.mp idle)
    refine ⟨_, rfl, ⟨fun currency => ?_, fun currency => ?_, fun currency => ?_,
      fun orderId => ?_⟩⟩
    · rw [frozen_applySpotFill, spot_trackSpotFill]
    · rw [available_applySpotFill, spot_trackSpotFill, if_pos positive]
    · rw [reserved_applySpotFill, reserved_trackSpotFill]
    · rw [spotOrderFillTracker_applySpotFill, tracker_trackSpotFill]

/-- A report that is not behind the tracker is applied with its increment. -/
theorem updateSpotOnFill_spec {registry : InstrumentRegistry} {pm : PositionManager}
    {report : ExecutionReport} {info : InstrumentInfo} (tradeMode : TradeMode)
    (known : registry.get report.instrument = some info)
    (fills : report.status = .filled ∨ report.status = .partiallyFilled)
    (ordered : pm.spotOrderFillTracker.getD report.orderId 0 ≤ report.filledVolume) :
    ∃ after, updateSpotOnFill registry pm report tradeMode = some after ∧
      SpotFillEffect pm after report tradeMode
        (decode (report.filledVolume - pm.spotOrderFillTracker.getD report.orderId 0)
          info.volumePrecision) := by
  have applied : pm.spotApplied report =
      report.filledVolume - pm.spotOrderFillTracker.getD report.orderId 0 :=
    max_eq_right (Int.sub_nonneg.mpr ordered)
  rw [← applied]
  exact updateSpotOnFill_applied pm tradeMode known fills

/-! ## CANCELLED -/

/-- Moving `amount` from frozen back to available. -/
def release (pm : PositionManager) (currency : String) (amount : ℚ) : PositionManager :=
  pm.modifySpot currency fun position =>
    { position with
      currency := currency
      frozen := position.frozen - amount
      available := position.available + amount }

def untrackSpot (pm : PositionManager) (orderId : String) : PositionManager :=
  { pm with spotOrderFillTracker := pm.spotOrderFillTracker.erase orderId }

theorem updateSpotOnCancel_eq (registry : InstrumentRegistry) (pm : PositionManager)
    (report : ExecutionReport) (tradeMode : TradeMode) (cancels : report.status = .cancelled) :
    updateSpotOnCancel registry pm report tradeMode =
      if report.totalVolume - report.filledVolume > 0 then
        (registry.get report.instrument).map fun info =>
          (if HoldsLock report.side tradeMode then
            pm.release (lockedCurrencyOf report.instrument report.side)
              (lockValue info report.side report.price
                (report.totalVolume - report.filledVolume))
          else pm).untrackSpot report.orderId
      else some (pm.untrackSpot report.orderId) := by
  rw [updateSpotOnCancel, if_pos cancels]
  by_cases remains : report.totalVolume - report.filledVolume > 0
  · rw [if_pos remains, if_pos remains]
    cases registry.get report.instrument with
    | none => rfl
    | some info =>
        cases sideCase : report.side with
        | buy =>
            simp [HoldsLock, release, lockedCurrencyOf, lockedPart, lockValue, untrackSpot,
              mul_comm]
        | sell =>
            by_cases cash : tradeMode = .cash <;>
              simp [HoldsLock, release, lockedCurrencyOf, lockedPart, lockValue, untrackSpot, cash]
  · rw [if_neg remains, if_neg remains]
    rfl

theorem available_release (pm : PositionManager) (currency other : String) (amount : ℚ) :
    ((pm.release currency amount).spot other).available =
      (pm.spot other).available + if other = currency then amount else 0 := by
  rw [release, spot_modifySpot]
  split <;> simp_all

theorem frozen_release (pm : PositionManager) (currency other : String) (amount : ℚ) :
    ((pm.release currency amount).spot other).frozen =
      (pm.spot other).frozen - if other = currency then amount else 0 := by
  rw [release, spot_modifySpot]
  split <;> simp_all

@[simp] theorem reserved_release (pm : PositionManager) (currency other : String) (amount : ℚ) :
    (pm.release currency amount).reserved other = pm.reserved other := rfl

@[simp] theorem spotOrderFillTracker_release (pm : PositionManager) (currency : String)
    (amount : ℚ) :
    (pm.release currency amount).spotOrderFillTracker = pm.spotOrderFillTracker := rfl

@[simp] theorem spot_untrackSpot (pm : PositionManager) (orderId other : String) :
    (pm.untrackSpot orderId).spot other = pm.spot other := rfl

@[simp] theorem reserved_untrackSpot (pm : PositionManager) (orderId other : String) :
    (pm.untrackSpot orderId).reserved other = pm.reserved other := rfl

@[simp] theorem tracker_untrackSpot (pm : PositionManager) (orderId other : String) :
    (pm.untrackSpot orderId).spotOrderFillTracker.getD other 0 =
      if other = orderId then 0 else pm.spotOrderFillTracker.getD other 0 :=
  UnorderedMap.getD_erase ..

/-! ## REJECTED -/

theorem updateSpotOnRejected_eq (registry : InstrumentRegistry) (pm : PositionManager)
    (report : ExecutionReport) (tradeMode : TradeMode) :
    updateSpotOnRejected registry pm report tradeMode =
      (registry.get report.instrument).map fun info =>
        if HoldsLock report.side tradeMode then
          pm.releaseRejected (lockedCurrencyOf report.instrument report.side)
            (lockValue info report.side report.price report.totalVolume)
        else pm := by
  unfold updateSpotOnRejected
  cases registry.get report.instrument with
  | none => rfl
  | some info =>
      cases sideCase : report.side with
      | buy => simp [HoldsLock, lockedCurrencyOf, lockedPart, lockValue]
      | sell =>
          by_cases cash : tradeMode = .cash <;>
            simp [HoldsLock, lockedCurrencyOf, lockedPart, lockValue, cash]

/-- The branch a rejection takes: the currency-wide frozen amount covers it. -/
def FrozenCovers (pm : PositionManager) (currency : String) (amount : ℚ) : Prop :=
  (pm.spot currency).frozen ≥ amount - frozenTolerance

section Rejected
variable {pm : PositionManager} {currency : String} {amount : ℚ}

theorem spot_modifySpot_self (other : String) :
    (pm.modifySpot currency fun position => position).spot other = pm.spot other := by
  rw [spot_modifySpot]
  split
  · next equal => rw [equal]
  · rfl

theorem releaseRejected_frozen (covers : pm.FrozenCovers currency amount) (other : String) :
    ((pm.releaseRejected currency amount).spot other).available =
        (pm.spot other).available + (if other = currency then amount else 0) ∧
      ((pm.releaseRejected currency amount).spot other).frozen =
        (pm.spot other).frozen - (if other = currency then amount else 0) ∧
      (pm.releaseRejected currency amount).reserved other = pm.reserved other := by
  have branch : ((pm.modifySpot currency fun position => position).spot currency).frozen ≥
      amount - frozenTolerance := by
    rw [spot_modifySpot_self]
    exact covers
  rw [releaseRejected, if_pos branch, spot_modifySpot]
  refine ⟨?_, ?_, rfl⟩ <;> split <;> simp_all

theorem releaseRejected_reserved (lacks : ¬ pm.FrozenCovers currency amount) (other : String) :
    (pm.releaseRejected currency amount).spot other = pm.spot other ∧
      (pm.releaseRejected currency amount).reserved other =
        if other = currency then max 0 (pm.reserved currency - amount)
        else pm.reserved other := by
  have branch : ¬ ((pm.modifySpot currency fun position => position).spot currency).frozen ≥
      amount - frozenTolerance := by
    rw [spot_modifySpot_self]
    exact lacks
  rw [releaseRejected, if_neg branch, spot_releaseReserved, reserved_releaseReserved]
  exact ⟨spot_modifySpot_self other, rfl⟩

theorem releaseRejected_frame :
    (pm.releaseRejected currency amount).spotOrderFillTracker = pm.spotOrderFillTracker ∧
      (pm.releaseRejected currency amount).swapOrderFillTracker = pm.swapOrderFillTracker ∧
      (pm.releaseRejected currency amount).swapPositions = pm.swapPositions := by
  rw [releaseRejected]
  split_ifs <;> exact ⟨rfl, rfl, rfl⟩

end Rejected

/-! ## Swap fills -/

def swapIncrement (pm : PositionManager) (report : ExecutionReport) : Int :=
  report.filledVolume - pm.swapOrderFillTracker.getD report.orderId 0

theorem updateSwapOnFill_eq (registry : InstrumentRegistry) (pm : PositionManager)
    (report : ExecutionReport) :
    updateSwapOnFill registry pm report =
      if pm.swapIncrement report ≤ 0 then some ((pm.nameSwap report).trackSwapFill report)
      else (registry.get report.instrument).map fun info =>
        ((pm.nameSwap report).trackSwapFill report).applySwapFill report
          (decode (pm.swapIncrement report) info.volumePrecision) := by
  rw [updateSwapOnFill]
  cases registry.get report.instrument <;> rfl

theorem updateSwapOnFill_registered {registry : InstrumentRegistry} {report : ExecutionReport}
    {info : InstrumentInfo} (known : registry.get report.instrument = some info)
    (pm : PositionManager) : ∃ after, updateSwapOnFill registry pm report = some after := by
  rw [updateSwapOnFill_eq, known]
  split
  · exact ⟨_, rfl⟩
  · exact ⟨_, rfl⟩

def contractsAfter (positionSide : PosSide) (side : Side) (contracts incremental : ℚ) : ℚ :=
  if isOpening positionSide side then contracts + incremental
  else max 0 (contracts - incremental)

@[simp] theorem contracts_nameSwap (pm : PositionManager) (report : ExecutionReport)
    (instrument : String) (positionSide : PosSide) :
    ((pm.nameSwap report).swap instrument positionSide).contracts =
      (pm.swap instrument positionSide).contracts := by
  rw [nameSwap, swap_modifySwap]
  split <;> simp_all

@[simp] theorem swap_trackSwapFill (pm : PositionManager) (report : ExecutionReport)
    (instrument : String) (positionSide : PosSide) :
    (pm.trackSwapFill report).swap instrument positionSide = pm.swap instrument positionSide := rfl

theorem contracts_applySwapFill (pm : PositionManager) (report : ExecutionReport)
    (incremental : ℚ) (instrument : String) (positionSide : PosSide) :
    ((pm.applySwapFill report incremental).swap instrument positionSide).contracts =
      if (instrument, positionSide) = (report.instrument, report.positionSide) then
        contractsAfter report.positionSide report.side
          (pm.swap report.instrument report.positionSide).contracts incremental
      else (pm.swap instrument positionSide).contracts := by
  rw [applySwapFill, swap_modifySwap]
  split
  · rw [contractsAfter]
    split_ifs with opening
    · rfl
    · dsimp only
      split_ifs with negative
      · exact (max_eq_left negative.le).symm
      · exact (max_eq_right (not_lt.mp negative)).symm
  · rfl

theorem tracker_trackSwapFill (pm : PositionManager) (report : ExecutionReport)
    (orderId : String) :
    (pm.trackSwapFill report).swapOrderFillTracker.getD orderId 0 =
      if orderId = report.orderId then
        if report.status = .filled then 0 else report.filledVolume
      else pm.swapOrderFillTracker.getD orderId 0 := by
  rw [trackSwapFill]
  split_ifs <;> simp_all

theorem updateSwapOnFill_frame (registry : InstrumentRegistry) (pm after : PositionManager)
    (report : ExecutionReport) (ran : updateSwapOnFill registry pm report = some after) :
    after.spotPositions = pm.spotPositions ∧ after.spotReserved = pm.spotReserved ∧
      after.spotOrderFillTracker = pm.spotOrderFillTracker ∧
      after.swapOrderFillTracker = (pm.trackSwapFill report).swapOrderFillTracker := by
  rw [updateSwapOnFill_eq] at ran
  split at ran
  · cases Option.some.inj ran
    exact ⟨rfl, rfl, rfl, rfl⟩
  · obtain ⟨info, _, result⟩ := Option.map_eq_some_iff.mp ran
    subst result
    exact ⟨rfl, rfl, rfl, rfl⟩

end PositionManager

end CryptoTrading
