import CryptoTrading.Lib.Runs
import CryptoTrading.TradingEngine.PositionSpec

/-! # The fill reports of one spot order

A spot order with what its reports echo, the shape of its sequence of fill
reports, and what running `UpdateSpotOnFill` over such a sequence does: every
report consumes its own increment over the previous one, and nothing else of
the position state moves. -/
set_option autoImplicit false

namespace CryptoTrading

structure SpotOrder where
  orderId : String
  clientOrderId : String
  instrument : String
  side : Side
  tradeMode : TradeMode
  price : Int
  totalVolume : Int
  deriving DecidableEq

structure ReportOf (order : SpotOrder) (report : ExecutionReport) : Prop where
  orderId : report.orderId = order.orderId
  instrument : report.instrument = order.instrument
  side : report.side = order.side
  tradeMode : report.tradeMode = order.tradeMode
  marketType : report.marketType = .spot
  price : report.price = order.price
  totalVolume : report.totalVolume = order.totalVolume

def SpotOrder.report (order : SpotOrder) (status : OrderStatus) (filledVolume : Int)
    (avgFillPrice : ℚ) : ExecutionReport :=
  { orderId := order.orderId, instrument := order.instrument, side := order.side,
    tradeMode := order.tradeMode, price := order.price, totalVolume := order.totalVolume,
    status := status, filledVolume := filledVolume, avgFillPrice := avgFillPrice }

theorem SpotOrder.report_echoes (order : SpotOrder) (status : OrderStatus) (filledVolume : Int)
    (avgFillPrice : ℚ) : ReportOf order (order.report status filledVolume avgFillPrice) :=
  ⟨rfl, rfl, rfl, rfl, rfl, rfl, rfl⟩

/-- Fill reports whose cumulative volume never falls below `seen` or below an
earlier one, the only FILLED one being the last. -/
def FillsFrom (order : SpotOrder) : Int → List ExecutionReport → Prop
  | _, [] => True
  | seen, report :: rest =>
      ReportOf order report ∧ seen ≤ report.filledVolume ∧
        (report.status = .partiallyFilled ∨ report.status = .filled ∧ rest = []) ∧
        FillsFrom order report.filledVolume rest

def runSpotFills (registry : InstrumentRegistry) :
    PositionManager → List ExecutionReport → Option PositionManager :=
  Runs.run fun pm report => pm.updateSpotOnFill registry report report.tradeMode

/-- What the reports take from the lock, increment by increment. -/
def consumedFrom (info : InstrumentInfo) : Int → List ExecutionReport → ℚ
  | _, [] => 0
  | seen, report :: rest =>
      PositionManager.fillConsumes report
          (decode (report.filledVolume - seen) info.volumePrecision) +
        consumedFrom info report.filledVolume rest

/-- What the reports pay into a currency, fees aside. -/
def creditedFrom (info : InstrumentInfo) (currency : String) : Int → List ExecutionReport → ℚ
  | _, [] => 0
  | seen, report :: rest =>
      PositionManager.fillCredit report
          (decode (report.filledVolume - seen) info.volumePrecision) currency +
        creditedFrom info currency report.filledVolume rest

/-- The fees of the reports that carried an increment. -/
def feesFrom (info : InstrumentInfo) (currency : String) : Int → List ExecutionReport → ℚ
  | _, [] => 0
  | seen, report :: rest =>
      (if 0 < decode (report.filledVolume - seen) info.volumePrecision then
          PositionManager.feeCredit report currency
        else 0) + feesFrom info currency report.filledVolume rest

variable {registry : InstrumentRegistry} {info : InstrumentInfo} {order : SpotOrder}

theorem runSpotFills_spec (known : registry.get order.instrument = some info)
    (reports : List ExecutionReport) : ∀ (pm : PositionManager) (seen : Int),
      pm.spotOrderFillTracker.getD order.orderId 0 = seen → FillsFrom order seen reports →
      ∃ after, runSpotFills registry pm reports = some after ∧
        (∀ currency, (after.spot currency).frozen = (pm.spot currency).frozen -
          if HoldsLock order.side order.tradeMode ∧
              currency = lockedCurrencyOf order.instrument order.side then
            consumedFrom info seen reports
          else 0) ∧
        (∀ currency, (after.spot currency).available = (pm.spot currency).available +
          creditedFrom info currency seen reports + feesFrom info currency seen reports) ∧
        ∀ currency, after.reserved currency = pm.reserved currency := by
  induction reports with
  | nil =>
      intro pm seen _ _
      refine ⟨pm, rfl, fun currency => ?_, fun currency => ?_, fun _ => rfl⟩
      · simp [consumedFrom]
      · simp [creditedFrom, feesFrom]
  | cons report rest ih =>
      intro pm seen tracked fills
      obtain ⟨echo, ordered, status, fillsRest⟩ := fills
      have knownHere : registry.get report.instrument = some info := by
        rw [echo.instrument]
        exact known
      rw [← echo.orderId] at tracked
      have isFill : report.status = .filled ∨ report.status = .partiallyFilled :=
        status.symm.imp And.left id
      obtain ⟨middle, stepped, effect⟩ := PositionManager.updateSpotOnFill_spec
        report.tradeMode knownHere isFill (tracked.le.trans ordered)
      rw [tracked, echo.tradeMode] at effect
      -- After a FILLED report nothing follows, so the tracker matters only after a partial one.
      have continues : ∃ after, runSpotFills registry middle rest = some after ∧
          (∀ currency, (after.spot currency).frozen = (middle.spot currency).frozen -
            if HoldsLock order.side order.tradeMode ∧
                currency = lockedCurrencyOf order.instrument order.side then
              consumedFrom info report.filledVolume rest
            else 0) ∧
          (∀ currency, (after.spot currency).available = (middle.spot currency).available +
            creditedFrom info currency report.filledVolume rest +
              feesFrom info currency report.filledVolume rest) ∧
          ∀ currency, after.reserved currency = middle.reserved currency := by
        rcases status with partially | ⟨_, last⟩
        · refine ih middle report.filledVolume ?_ fillsRest
          rw [effect.tracker, if_pos echo.orderId.symm, if_neg (by rw [partially]; decide)]
        · subst last
          refine ⟨middle, rfl, fun currency => ?_, fun currency => ?_, fun _ => rfl⟩
          · simp [consumedFrom]
          · simp [creditedFrom, feesFrom]
      obtain ⟨after, ranRest, frozenRest, availableRest, reservedRest⟩ := continues
      refine ⟨after, ?_, fun currency => ?_, fun currency => ?_, fun currency => ?_⟩
      · rw [runSpotFills, Runs.run_cons, stepped]
        exact ranRest
      · rw [frozenRest, effect.frozen, echo.instrument, echo.side, consumedFrom]
        split <;> ring
      · rw [availableRest, effect.available, creditedFrom, feesFrom]
        ring
      · rw [reservedRest, effect.reserved]

/-! ## A registry with one instrument -/

def btcUsdt : InstrumentInfo :=
  { instrument := "BTC-USDT", pricePrecision := 0, volumePrecision := 0 }

def btcUsdtRegistry : InstrumentRegistry := InstrumentRegistry.add ∅ btcUsdt

end CryptoTrading
