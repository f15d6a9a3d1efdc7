import CryptoTrading.Lib.Cumulative
import CryptoTrading.TradingEngine.OrderHistory

/-! # The quote amount a filled order moves

Every report is charged its own increment at the average price over everything
filled so far.  Summation by parts turns the total into the final cost less
the drift of that average, so the two agree exactly when the drift vanishes. -/
set_option autoImplicit false

namespace CryptoTrading

open Cumulative

def readings (info : InstrumentInfo) (reports : List ExecutionReport) : List (ℚ × ℚ) :=
  reports.map fun report => (decode report.filledVolume info.volumePrecision, report.avgFillPrice)

/-- The average prices are those of actual trades: each report adds its
increment at some positive trade price to the cost so far. -/
def AveragesOfTrades (info : InstrumentInfo) : Int → ℚ → List ExecutionReport → Prop
  | _, _, [] => True
  | seen, cost, report :: rest =>
      let total := report.avgFillPrice * decode report.filledVolume info.volumePrecision
      (∃ price, 0 < price ∧
        total = cost + price * decode (report.filledVolume - seen) info.volumePrecision) ∧
        AveragesOfTrades info report.filledVolume total rest

/-- What left the frozen quote balance (BUY) or reached the available one (SELL), fees aside. -/
def quoteMoved (info : InstrumentInfo) (order : SpotOrder) (reports : List ExecutionReport)
    (before after : PositionManager) : ℚ :=
  let quote := extractCurrency .quote order.instrument
  match order.side with
  | .buy => (before.spot quote).frozen - (after.spot quote).frozen
  | .sell => (after.spot quote).available - (before.spot quote).available -
      feesFrom info quote 0 reports

variable {registry : InstrumentRegistry} {info : InstrumentInfo} {order : SpotOrder}

theorem consumedFrom_eq_stepCost (info : InstrumentInfo) (buys : order.side = .buy)
    (reports : List ExecutionReport) :
    ∀ seen, FillsFrom order seen reports → consumedFrom info seen reports =
      stepCost (decode seen info.volumePrecision) (readings info reports) := by
  induction reports with
  | nil => intro _ _; rfl
  | cons report rest ih =>
      intro seen fills
      obtain ⟨echo, _, _, fillsRest⟩ := fills
      rw [consumedFrom, ih report.filledVolume fillsRest, PositionManager.fillConsumes,
        echo.side, buys, decode_sub]
      rfl

theorem creditedFrom_eq_stepCost (info : InstrumentInfo) (sells : order.side = .sell)
    (reports : List ExecutionReport) :
    ∀ seen, FillsFrom order seen reports →
      creditedFrom info (extractCurrency .quote order.instrument) seen reports =
        stepCost (decode seen info.volumePrecision) (readings info reports) := by
  induction reports with
  | nil => intro _ _; rfl
  | cons report rest ih =>
      intro seen fills
      obtain ⟨echo, _, _, fillsRest⟩ := fills
      rw [creditedFrom, ih report.filledVolume fillsRest, PositionManager.fillCredit,
        echo.side, sells, echo.instrument, decode_sub]
      simp only [if_true]
      rfl

theorem quoteMoved_eq_stepCost (known : registry.get order.instrument = some info)
    (pm : PositionManager) (fresh : order.orderId ∉ pm.spotOrderFillTracker)
    (reports : List ExecutionReport) (fills : FillsFrom order 0 reports) :
    ∃ after, runSpotFills registry pm reports = some after ∧
      quoteMoved info order reports pm after = stepCost 0 (readings info reports) := by
  obtain ⟨after, ran, frozen, available, _⟩ := runSpotFills_spec known reports pm 0
    (UnorderedMap.getD_of_notMem fresh 0) fills
  refine ⟨after, ran, ?_⟩
  rw [quoteMoved]
  cases sideCase : order.side with
  | buy =>
      have spent := consumedFrom_eq_stepCost info sideCase reports 0 fills
      rw [decode_zero] at spent
      dsimp only
      rw [frozen, sideCase, if_pos ⟨Or.inl rfl, rfl⟩, ← spent]
      ring
  | sell =>
      have earned := creditedFrom_eq_stepCost info sideCase reports 0 fills
      rw [decode_zero] at earned
      dsimp only
      rw [available, ← earned]
      ring

/-- The quote amount moved over the life of a filled order is its final average
price times its final volume exactly when the average has no drift. -/
theorem quoteMoved_eq_final_iff (known : registry.get order.instrument = some info)
    (pm : PositionManager) (fresh : order.orderId ∉ pm.spotOrderFillTracker)
    (partials : List ExecutionReport) (final : ExecutionReport)
    (fills : FillsFrom order 0 (partials ++ [final])) :
    ∃ after, runSpotFills registry pm (partials ++ [final]) = some after ∧
      (quoteMoved info order (partials ++ [final]) pm after =
          final.avgFillPrice * decode final.filledVolume info.volumePrecision ↔
        drift 0 0 (readings info (partials ++ [final])) = 0) := by
  obtain ⟨after, ran, moved⟩ := quoteMoved_eq_stepCost known pm fresh (partials ++ [final]) fills
  refine ⟨after, ran, ?_⟩
  rw [moved, readings, List.map_append]
  exact stepCost_eq_finalCost_iff _ _ _

/-! ## A second fill at another price -/

def buyTwo : SpotOrder :=
  { orderId := "7", clientOrderId := "cts1", instrument := "BTC-USDT", side := .buy,
    tradeMode := .cash, price := 300, totalVolume := 2 }

/-- One unit at 100, then one at 200: the averages read 100 and 150. -/
def risingFills : List ExecutionReport := [buyTwo.report .partiallyFilled 1 100]

theorem risingFills_shape :
    FillsFrom buyTwo 0 (risingFills ++ [buyTwo.report .filled 2 150]) ∧
      AveragesOfTrades btcUsdt 0 0 (risingFills ++ [buyTwo.report .filled 2 150]) := by
  refine ⟨⟨buyTwo.report_echoes .., by decide, Or.inl rfl, buyTwo.report_echoes .., by decide,
    Or.inr ⟨rfl, rfl⟩, trivial⟩, ⟨100, by norm_num, ?_⟩, ⟨200, by norm_num, ?_⟩, trivial⟩ <;>
  norm_num [SpotOrder.report, btcUsdt, decode, kPow10]

/-- The two units are locked at 150, and another order has filled one unit. -/
def lockedForTwo : PositionManager :=
  { spotPositions := Finmap.insert "USDT" { currency := "USDT", available := 40, frozen := 300 } ∅
    spotOrderFillTracker := Finmap.insert "8" 1 ∅ }

/-- Two fills at different prices: 250 is moved, not the 300 of the final average. -/
theorem quoteMoved_eq_final_iff_rising : ∃ after,
    runSpotFills btcUsdtRegistry lockedForTwo
        (risingFills ++ [buyTwo.report .filled 2 150]) = some after ∧
      drift 0 0 (readings btcUsdt (risingFills ++ [buyTwo.report .filled 2 150])) ≠ 0 ∧
      quoteMoved btcUsdt buyTwo (risingFills ++ [buyTwo.report .filled 2 150]) lockedForTwo after ≠
        150 * decode 2 btcUsdt.volumePrecision := by
  obtain ⟨after, ran, exactly⟩ := quoteMoved_eq_final_iff
    (show btcUsdtRegistry.get buyTwo.instrument = some btcUsdt by decide) lockedForTwo
    (by decide) risingFills (buyTwo.report .filled 2 150) risingFills_shape.1
  have drifts : drift 0 0 (readings btcUsdt (risingFills ++ [buyTwo.report .filled 2 150])) ≠ 0 := by
    decide +kernel
  exact ⟨after, ran, drifts, fun moved => drifts (exactly.mp moved)⟩

/-- The two fills take 250 from the frozen quote balance; they cost 300. -/
theorem quoteMoved_not_path_independent :
    ¬ ∀ (registry : InstrumentRegistry) (info : InstrumentInfo) (order : SpotOrder)
        (pm : PositionManager) (partials : List ExecutionReport) (final : ExecutionReport),
      registry.get order.instrument = some info →
      order.orderId ∉ pm.spotOrderFillTracker →
      FillsFrom order 0 (partials ++ [final]) → final.status = .filled →
      AveragesOfTrades info 0 0 (partials ++ [final]) →
      ∃ after, runSpotFills registry pm (partials ++ [final]) = some after ∧
        quoteMoved info order (partials ++ [final]) pm after =
          final.avgFillPrice * decode final.filledVolume info.volumePrecision := by
  intro claim
  obtain ⟨fills, averages⟩ := risingFills_shape
  obtain ⟨after, ran, moved⟩ := claim btcUsdtRegistry btcUsdt buyTwo {} risingFills
    (buyTwo.report .filled 2 150) (by decide) (by decide) fills rfl averages
  have frozen : (runSpotFills btcUsdtRegistry {}
      (risingFills ++ [buyTwo.report .filled 2 150])).map
        (fun after => (after.spot "USDT").frozen) = some (-250) := by decide +kernel
  rw [ran, Option.map_some, Option.some.injEq] at frozen
  have final : (0 : ℚ) - (after.spot "USDT").frozen = 150 * decode 2 0 := moved
  rw [frozen] at final
  norm_num [decode, kPow10] at final

end CryptoTrading
