import CryptoTrading.TradingEngine.EngineSpec
import CryptoTrading.TradingEngine.OrderHistory

/-! # What an order leaves in the frozen balance

NEW locks the order at its limit price, fills consume the lock at the price they
were made at and a cancel returns what is unfilled, again at the limit price.
The difference per filled unit is the residue: it stays in the frozen balance. -/
set_option autoImplicit false

namespace CryptoTrading

/-- The reports of an order after its NEW, `seen` units being filled already:
partial fills, then FILLED at the total volume or CANCELLED where they stopped. -/
inductive LifecycleFrom (order : SpotOrder) : Int → List ExecutionReport → Prop where
  | filled (seen : Int) (report : ExecutionReport) (echo : ReportOf order report)
      (status : report.status = .filled) (complete : report.filledVolume = order.totalVolume)
      (ordered : seen ≤ report.filledVolume) : LifecycleFrom order seen [report]
  | cancelled (seen : Int) (report : ExecutionReport) (echo : ReportOf order report)
      (status : report.status = .cancelled) (last : report.filledVolume = seen)
      (within : seen ≤ order.totalVolume) : LifecycleFrom order seen [report]
  | partiallyFilled (seen : Int) (report : ExecutionReport) (rest : List ExecutionReport)
      (echo : ReportOf order report) (status : report.status = .partiallyFilled)
      (ordered : seen ≤ report.filledVolume)
      (continued : LifecycleFrom order report.filledVolume rest) :
      LifecycleFrom order seen (report :: rest)

def SpotOrder.frozenIn (order : SpotOrder) (engine : TradingEngine) : ℚ :=
  (engine.positionManager.spot (lockedCurrencyOf order.instrument order.side)).frozen

/-- The value of each increment in the lock less what its fill consumes. -/
def residueFrom (info : InstrumentInfo) (order : SpotOrder) : Int → List ExecutionReport → ℚ
  | _, [] => 0
  | seen, report :: rest =>
      lockValue info order.side order.price (report.filledVolume - seen) -
          PositionManager.fillConsumes report
            (decode (report.filledVolume - seen) info.volumePrecision) +
        residueFrom info order report.filledVolume rest

/-- Every report that adds a fill has the limit price as its average. -/
def PaidAtLimit (info : InstrumentInfo) (order : SpotOrder) : Int → List ExecutionReport → Prop
  | _, [] => True
  | seen, report :: rest =>
      (seen < report.filledVolume →
          report.avgFillPrice = decode order.price info.pricePrecision) ∧
        PaidAtLimit info order report.filledVolume rest

section Lifecycle
variable {registry : InstrumentRegistry} {info : InstrumentInfo} {order : SpotOrder}
  {engine : TradingEngine} {report : ExecutionReport} {seen : Int}

/-! ## One report -/

theorem frozenIn_new (engine : TradingEngine) (known : registry.get order.instrument = some info)
    (holds : HoldsLock order.side order.tradeMode) (clientOrderId : String)
    (echo : ReportOf order report) (isNew : report.status = .new) :
    ∃ after, engine.handleOrderUpdate registry report clientOrderId = some after ∧
      order.frozenIn after =
        order.frozenIn engine + lockValue info order.side order.price order.totalVolume ∧
      order.orderId ∈ after.liveOrderInstruments ∧
      after.positionManager.spotOrderFillTracker =
        engine.positionManager.spotOrderFillTracker := by
  have applied := TradingEngine.applyReport_spotNew registry echo.marketType isNew
    engine.positionManager
  rw [PositionManager.updateSpotOnNew_eq, echo.instrument, known, Option.map_some, echo.side,
    echo.tradeMode, if_pos holds, echo.price, echo.totalVolume] at applied
  obtain ⟨after, ran, effect⟩ := TradingEngine.handleOrderUpdate_new clientOrderId isNew applied
  refine ⟨after, ran, ?_, ?_, ?_⟩
  · rw [SpotOrder.frozenIn, effect.positions, PositionManager.frozen_lock, if_pos rfl]
    rfl
  · rw [effect.live, TradingEngine.mem_updateLiveOrders, echo.orderId]
    exact Or.inr ⟨rfl, Or.inl isNew⟩
  · rw [effect.positions, PositionManager.spotOrderFillTracker_lock]

theorem frozenIn_fill (known : registry.get order.instrument = some info)
    (holds : HoldsLock order.side order.tradeMode) (clientOrderId : String)
    (live : order.orderId ∈ engine.liveOrderInstruments)
    (tracked : engine.positionManager.spotOrderFillTracker.getD order.orderId 0 = seen)
    (echo : ReportOf order report)
    (fills : report.status = .filled ∨ report.status = .partiallyFilled)
    (ordered : seen ≤ report.filledVolume) :
    ∃ after, engine.handleOrderUpdate registry report clientOrderId = some after ∧
      order.frozenIn after = order.frozenIn engine - PositionManager.fillConsumes report
        (decode (report.filledVolume - seen) info.volumePrecision) ∧
      (report.status = .partiallyFilled → order.orderId ∈ after.liveOrderInstruments ∧
        after.positionManager.spotOrderFillTracker.getD order.orderId 0 =
          report.filledVolume) := by
  have knownHere : registry.get report.instrument = some info := by
    rw [echo.instrument]
    exact known
  rw [← echo.orderId] at tracked live
  obtain ⟨pm, stepped, fill⟩ := PositionManager.updateSpotOnFill_spec report.tradeMode knownHere
    fills (tracked.le.trans ordered)
  have applied := TradingEngine.applyReport_spotFill echo.marketType fills knownHere
    engine.positionManager
  rw [stepped] at applied
  obtain ⟨after, ran, effect⟩ := TradingEngine.handleOrderUpdate_live clientOrderId live applied
  refine ⟨after, ran, ?_, fun isPartial => ⟨?_, ?_⟩⟩
  · rw [SpotOrder.frozenIn, effect.positions, fill.frozen, tracked, echo.side, echo.tradeMode,
      echo.instrument, if_pos ⟨holds, rfl⟩]
    rfl
  · rw [effect.live, TradingEngine.mem_updateLiveOrders, ← echo.orderId, isPartial]
    exact Or.inr ⟨rfl, Or.inr ⟨rfl, live⟩⟩
  · rw [effect.positions, fill.tracker, if_pos echo.orderId.symm, isPartial]
    rfl

theorem frozenIn_cancel (known : registry.get order.instrument = some info)
    (holds : HoldsLock order.side order.tradeMode) (clientOrderId : String)
    (live : order.orderId ∈ engine.liveOrderInstruments) (echo : ReportOf order report)
    (cancels : report.status = .cancelled) (last : report.filledVolume = seen)
    (within : seen ≤ order.totalVolume) :
    ∃ after, engine.handleOrderUpdate registry report clientOrderId = some after ∧
      order.frozenIn after = order.frozenIn engine -
        lockValue info order.side order.price (order.totalVolume - seen) := by
  have knownHere : registry.get report.instrument = some info := by
    rw [echo.instrument]
    exact known
  rw [← echo.orderId] at live
  have applied := TradingEngine.applyReport_spotCancel echo.marketType cancels knownHere
    engine.positionManager
  rw [PositionManager.updateSpotOnCancel_eq _ _ _ _ cancels, knownHere, Option.map_some, echo.side,
    echo.tradeMode, if_pos holds, echo.price, echo.totalVolume, last, echo.instrument] at applied
  by_cases remains : order.totalVolume - seen > 0
  · rw [if_pos remains] at applied
    obtain ⟨after, ran, effect⟩ := TradingEngine.handleOrderUpdate_live clientOrderId live applied
    refine ⟨after, ran, ?_⟩
    rw [SpotOrder.frozenIn, effect.positions, PositionManager.spot_untrackSpot,
      PositionManager.frozen_release, if_pos rfl]
    rfl
  · rw [if_neg remains] at applied
    obtain ⟨after, ran, effect⟩ := TradingEngine.handleOrderUpdate_live clientOrderId live applied
    refine ⟨after, ran, ?_⟩
    have complete : order.totalVolume - seen = 0 := by omega
    rw [SpotOrder.frozenIn, effect.positions, PositionManager.spot_untrackSpot, complete,
      lockValue_zero, sub_zero]
    rfl

/-! ## The whole lifecycle -/

theorem frozenIn_lifecycle (known : registry.get order.instrument = some info)
    (holds : HoldsLock order.side order.tradeMode) (clientOrderId : String)
    {reports : List ExecutionReport} (lifecycle : LifecycleFrom order seen reports) :
    ∀ engine : TradingEngine, order.orderId ∈ engine.liveOrderInstruments →
      engine.positionManager.spotOrderFillTracker.getD order.orderId 0 = seen →
      ∃ after, handleReports registry clientOrderId engine reports = some after ∧
        order.frozenIn after = order.frozenIn engine -
          lockValue info order.side order.price (order.totalVolume - seen) +
            residueFrom info order seen reports := by
  induction lifecycle with
  | filled seen report echo status complete ordered =>
      intro engine live tracked
      obtain ⟨after, ran, frozen, _⟩ := frozenIn_fill known holds clientOrderId live tracked echo
        (Or.inl status) ordered
      refine ⟨after, ?_, ?_⟩
      · rw [handleReports, Runs.run_cons, ran]
        rfl
      · rw [frozen, residueFrom, residueFrom, complete]
        ring
  | cancelled seen report echo status last within =>
      intro engine live tracked
      obtain ⟨after, ran, frozen⟩ := frozenIn_cancel known holds clientOrderId live echo status
        last within
      refine ⟨after, ?_, ?_⟩
      · rw [handleReports, Runs.run_cons, ran]
        rfl
      · rw [frozen, residueFrom, residueFrom, last, sub_self, decode_zero, lockValue_zero,
          PositionManager.fillConsumes_zero]
        ring
  | partiallyFilled seen report rest echo status ordered continued ih =>
      intro engine live tracked
      obtain ⟨middle, stepped, frozen, kept⟩ := frozenIn_fill known holds clientOrderId live tracked
        echo (Or.inr status) ordered
      obtain ⟨liveMiddle, trackedMiddle⟩ := kept status
      obtain ⟨after, ran, frozenRest⟩ := ih middle liveMiddle trackedMiddle
      refine ⟨after, ?_, ?_⟩
      · rw [handleReports, Runs.run_cons, stepped]
        exact ran
      · rw [frozenRest, frozen, residueFrom, lockValue_sub, lockValue_sub, lockValue_sub]
        ring

/-! ## When the residue vanishes -/

theorem residueFrom_sell (sells : order.side = .sell) {reports : List ExecutionReport}
    (lifecycle : LifecycleFrom order seen reports) : residueFrom info order seen reports = 0 := by
  have cancelsOut : ∀ {report : ExecutionReport} (volume : Int), ReportOf order report →
      lockValue info order.side order.price volume -
        PositionManager.fillConsumes report (decode volume info.volumePrecision) = 0 := by
    intro report volume echo
    rw [PositionManager.fillConsumes, echo.side, sells, lockValue]
    exact sub_self _
  induction lifecycle with
  | filled seen report echo => rw [residueFrom, residueFrom, cancelsOut _ echo, add_zero]
  | cancelled seen report echo => rw [residueFrom, residueFrom, cancelsOut _ echo, add_zero]
  | partiallyFilled seen report rest echo status ordered continued ih =>
      rw [residueFrom, cancelsOut _ echo, ih, add_zero]

theorem residue_buy_step (info : InstrumentInfo) (buys : order.side = .buy)
    (echo : ReportOf order report)
    (bounded : report.avgFillPrice ≤ decode order.price info.pricePrecision)
    (ordered : seen ≤ report.filledVolume) :
    0 ≤ lockValue info order.side order.price (report.filledVolume - seen) -
        PositionManager.fillConsumes report
          (decode (report.filledVolume - seen) info.volumePrecision) ∧
      (lockValue info order.side order.price (report.filledVolume - seen) -
          PositionManager.fillConsumes report
            (decode (report.filledVolume - seen) info.volumePrecision) = 0 ↔
        (seen < report.filledVolume →
          report.avgFillPrice = decode order.price info.pricePrecision)) := by
  have shortfall : lockValue info order.side order.price (report.filledVolume - seen) -
      PositionManager.fillConsumes report
        (decode (report.filledVolume - seen) info.volumePrecision) =
      (decode order.price info.pricePrecision - report.avgFillPrice) *
        decode (report.filledVolume - seen) info.volumePrecision := by
    rw [PositionManager.fillConsumes, echo.side, buys, lockValue]
    ring
  rw [shortfall]
  constructor
  · exact mul_nonneg (sub_nonneg.mpr bounded) ((decode_nonneg _).mpr (Int.sub_nonneg.mpr ordered))
  · rw [mul_eq_zero, sub_eq_zero]
    constructor
    · rintro (atLimit | idle) increased
      · exact atLimit.symm
      · have positive := (decode_pos info.volumePrecision).mpr (Int.sub_pos.mpr increased)
        exact absurd idle positive.ne'
    · intro atLimit
      rcases ordered.lt_or_eq with increased | same
      · exact Or.inl (atLimit increased).symm
      · right
        rw [same, sub_self, decode_zero]

theorem residueFrom_buy (buys : order.side = .buy) {reports : List ExecutionReport}
    (lifecycle : LifecycleFrom order seen reports)
    (bounded : ∀ report ∈ reports,
      report.avgFillPrice ≤ decode order.price info.pricePrecision) :
    0 ≤ residueFrom info order seen reports ∧
      (residueFrom info order seen reports = 0 ↔ PaidAtLimit info order seen reports) := by
  induction lifecycle with
  | filled seen report echo status complete ordered =>
      have step := residue_buy_step info buys echo (bounded report List.mem_cons_self)
        ordered
      rw [residueFrom, residueFrom, add_zero, PaidAtLimit, PaidAtLimit, and_true]
      exact step
  | cancelled seen report echo status last within =>
      have step := residue_buy_step info buys echo (bounded report List.mem_cons_self)
        last.ge
      rw [residueFrom, residueFrom, add_zero, PaidAtLimit, PaidAtLimit, and_true]
      exact step
  | partiallyFilled seen report rest echo status ordered continued ih =>
      obtain ⟨stepNonneg, stepZero⟩ := residue_buy_step info buys echo
        (bounded report List.mem_cons_self) ordered
      obtain ⟨restNonneg, restZero⟩ := ih fun other member =>
        bounded other (List.mem_cons_of_mem _ member)
      rw [residueFrom, PaidAtLimit]
      exact ⟨add_nonneg stepNonneg restNonneg, (add_eq_zero_iff_of_nonneg stepNonneg
        restNonneg).trans (and_congr stepZero restZero)⟩

end Lifecycle

/-- The frozen amount of the locked currency is back where it was before the NEW
exactly when the order is a SELL or every one of its fills was made at the limit
price. -/
theorem frozen_restored_iff {registry : InstrumentRegistry} {info : InstrumentInfo}
    {order : SpotOrder} (known : registry.get order.instrument = some info)
    (holds : HoldsLock order.side order.tradeMode) (engine : TradingEngine)
    (untracked : order.orderId ∉ engine.positionManager.spotOrderFillTracker)
    (new : ExecutionReport) (echo : ReportOf order new) (isNew : new.status = .new)
    (reports : List ExecutionReport) (lifecycle : LifecycleFrom order 0 reports)
    (bounded : order.side = .buy → ∀ report ∈ reports,
      report.avgFillPrice ≤ decode order.price info.pricePrecision) :
    ∃ after, handleReports registry order.clientOrderId engine (new :: reports) = some after ∧
      (order.frozenIn after = order.frozenIn engine ↔
        order.side = .sell ∨ PaidAtLimit info order 0 reports) := by
  obtain ⟨accepted, ranNew, frozenNew, live, tracker⟩ := frozenIn_new engine known holds
    order.clientOrderId echo isNew
  have fresh : accepted.positionManager.spotOrderFillTracker.getD order.orderId 0 = 0 := by
    rw [tracker]
    exact UnorderedMap.getD_of_notMem untracked 0
  obtain ⟨after, ran, frozen⟩ := frozenIn_lifecycle known holds order.clientOrderId lifecycle
    accepted live fresh
  have residue : order.frozenIn after = order.frozenIn engine ↔
      residueFrom info order 0 reports = 0 := by
    rw [frozen, frozenNew, sub_zero, add_sub_cancel_right, add_eq_left]
  refine ⟨after, ?_, ?_⟩
  · rw [handleReports, Runs.run_cons, ranNew]
    exact ran
  · rw [residue]
    cases sideCase : order.side with
    | buy =>
        rw [(residueFrom_buy sideCase lifecycle (bounded sideCase)).2]
        simp
    | sell =>
        rw [residueFrom_sell sideCase lifecycle]
        simp

/-! ## A buy filled below its limit -/

def buyOne : SpotOrder :=
  { orderId := "8", clientOrderId := "cts2", instrument := "BTC-USDT", side := .buy,
    tradeMode := .cash, price := 300, totalVolume := 1 }

theorem buyOne_filled (avgFillPrice : ℚ) :
    LifecycleFrom buyOne 0 [buyOne.report .filled 1 avgFillPrice] :=
  .filled 0 _ (buyOne.report_echoes ..) rfl rfl Int.one_nonneg

theorem frozen_restored_iff_buyOne : ∃ after,
    handleReports btcUsdtRegistry buyOne.clientOrderId {}
        [buyOne.report .new 0 0, buyOne.report .filled 1 100] = some after ∧
      (buyOne.frozenIn after = buyOne.frozenIn {} ↔
        buyOne.side = .sell ∨ PaidAtLimit btcUsdt buyOne 0 [buyOne.report .filled 1 100]) :=
  frozen_restored_iff (by decide) (Or.inl rfl) {} (by decide) (buyOne.report .new 0 0)
    (buyOne.report_echoes ..) rfl _ (buyOne_filled 100) fun _ report member => by
      rw [List.mem_singleton.mp member]
      norm_num [SpotOrder.report, buyOne, btcUsdt, decode, kPow10]

/-- A BUY at limit 300 filled at 100 leaves 200 frozen. -/
theorem frozen_residue_remains :
    ¬ ∀ (registry : InstrumentRegistry) (info : InstrumentInfo) (order : SpotOrder)
        (engine : TradingEngine) (new : ExecutionReport) (reports : List ExecutionReport),
      registry.get order.instrument = some info →
      HoldsLock order.side order.tradeMode →
      order.orderId ∉ engine.positionManager.spotOrderFillTracker →
      ReportOf order new → new.status = .new → LifecycleFrom order 0 reports →
      (order.side = .buy → ∀ report ∈ reports,
        report.avgFillPrice ≤ decode order.price info.pricePrecision) →
      ∃ after, handleReports registry order.clientOrderId engine (new :: reports) = some after ∧
        order.frozenIn after = order.frozenIn engine := by
  intro claim
  obtain ⟨after, ran, restored⟩ := claim btcUsdtRegistry btcUsdt buyOne {} (buyOne.report .new 0 0)
    [buyOne.report .filled 1 100] (by decide) (Or.inl rfl) (by decide) (buyOne.report_echoes ..) rfl
    (buyOne_filled 100) fun _ report member => by
      rw [List.mem_singleton.mp member]
      norm_num [SpotOrder.report, buyOne, btcUsdt, decode, kPow10]
  have left : (handleReports btcUsdtRegistry buyOne.clientOrderId {}
      [buyOne.report .new 0 0, buyOne.report .filled 1 100]).map buyOne.frozenIn =
        some 200 := by decide +kernel
  rw [ran, Option.map_some, Option.some.injEq, restored] at left
  exact absurd left (by decide +kernel)

end CryptoTrading
