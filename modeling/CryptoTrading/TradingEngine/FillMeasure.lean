import CryptoTrading.TradingEngine.EngineSpec
import Mathlib.Algebra.Order.Group.MinMax

/-! # What a fill report moves

The base that a spot report credits or debits and the contracts that a swap
report adds or removes, read off the positions before and after the handler:
later results add them up over runs.  A closing swap fill cannot remove more
contracts than the position has, and a margin SELL debits no base. -/
set_option autoImplicit false

namespace CryptoTrading

def isFill : OrderStatus → Bool
  | .filled => true
  | .partiallyFilled => true
  | .new => false
  | .cancelled => false
  | .cancelFailed => false
  | .rejected => false

theorem isFill_iff {status : OrderStatus} :
    isFill status = true ↔ status = .filled ∨ status = .partiallyFilled := by
  cases status <;> simp [isFill]

/-- A swap order on the side that reduces its position. -/
def Closes (report : ExecutionReport) : Prop :=
  report.marketType = .swap ∧
    PositionManager.isOpening report.positionSide report.side = false

instance (report : ExecutionReport) : Decidable (Closes report) :=
  inferInstanceAs (Decidable (_ ∧ _))

/-- A spot SELL in another mode than cash: it locks no base, and no base leaves with its fills. -/
def MarginSell (report : ExecutionReport) : Prop :=
  report.marketType = .spot ∧ ¬ HoldsLock report.side report.tradeMode

instance (report : ExecutionReport) : Decidable (MarginSell report) :=
  inferInstanceAs (Decidable (_ ∧ _))

theorem MarginSell.not_closes {report : ExecutionReport} (margin : MarginSell report) :
    ¬ Closes report := by
  rintro ⟨swap, _⟩
  rw [margin.1] at swap
  cases swap

namespace PositionManager

def contractsOf (pm : PositionManager) (report : ExecutionReport) : ℚ :=
  (pm.swap report.instrument report.positionSide).contracts

/-- The fee that a spot fill report credits in `currency`; one that is not ahead of
the tracker credits none. -/
def creditedFee (pm : PositionManager) (report : ExecutionReport) (currency : String) : ℚ :=
  if 0 < pm.spotIncrement report then feeCredit report currency else 0

/-- The base that a spot fill report has credited or debited: what a BUY has added
to the available amount, its fee aside, and what a SELL has taken from the frozen amount. -/
def baseMoved (pm after : PositionManager) (report : ExecutionReport) : ℚ :=
  let base := extractCurrency .base report.instrument
  match report.side with
  | .buy => (after.spot base).available - (pm.spot base).available - pm.creditedFee report base
  | .sell => (pm.spot base).frozen - (after.spot base).frozen

/-- The contracts that a swap fill report has added or removed. -/
def contractsMoved (pm after : PositionManager) (report : ExecutionReport) : ℚ :=
  |after.contractsOf report - pm.contractsOf report|

/-- What handling `report` has moved for its order, from `pm` to `after`. -/
def fillMoved (pm after : PositionManager) (report : ExecutionReport) : ℚ :=
  if isFill report.status then
    if report.marketType = .swap then pm.contractsMoved after report
    else pm.baseMoved after report
  else 0

/-- The cumulative volume already handled for the order of `report`. -/
def fillTracker (pm : PositionManager) (report : ExecutionReport) : Int :=
  if report.marketType = .swap then pm.swapOrderFillTracker.getD report.orderId 0
  else pm.spotOrderFillTracker.getD report.orderId 0

/-- What is moved of `volume`: all of it, what the closed position has left, or
nothing for a margin SELL. -/
def movable (pm : PositionManager) (report : ExecutionReport) (volume : ℚ) : ℚ :=
  if Closes report then min (pm.contractsOf report) volume
  else if MarginSell report then 0 else volume

section Measure
variable {registry : InstrumentRegistry} {info : InstrumentInfo} {pm : PositionManager}
  {report : ExecutionReport}

theorem creditedFee_eq (pm : PositionManager) (report : ExecutionReport) (currency : String)
    (precision : Nat) : pm.creditedFee report currency =
      if 0 < decode (pm.spotApplied report) precision then feeCredit report currency else 0 := by
  have ahead : 0 < decode (pm.spotApplied report) precision ↔ 0 < pm.spotIncrement report := by
    rw [decode_pos, spotApplied, lt_max_iff]
    exact or_iff_right (lt_irrefl 0)
  rw [creditedFee]
  exact if_congr ahead.symm rfl rfl

/-- The base moved is the volume applied, unless the report is a margin SELL's. -/
theorem SpotFillEffect.baseMoved {after : PositionManager} {tradeMode : TradeMode}
    (effect : SpotFillEffect pm after report tradeMode
      (decode (pm.spotApplied report) info.volumePrecision)) :
    pm.baseMoved after report = if HoldsLock report.side tradeMode then
      decode (pm.spotApplied report) info.volumePrecision else 0 := by
  rw [PositionManager.baseMoved]
  cases sideCase : report.side with
  | buy =>
      have credited := effect.available (extractCurrency .base report.instrument)
      rw [fillCredit, sideCase, ← creditedFee_eq pm report _ info.volumePrecision] at credited
      dsimp only at credited ⊢
      rw [if_pos rfl] at credited
      rw [if_pos (holdsLock_buy tradeMode), credited]
      ring
  | sell =>
      have debited := effect.frozen (extractCurrency .base report.instrument)
      rw [fillConsumes, sideCase, lockedCurrencyOf] at debited
      dsimp only at debited ⊢
      rw [debited]
      by_cases holds : HoldsLock .sell tradeMode
      · rw [if_pos ⟨holds, rfl⟩, if_pos holds]
        ring
      · rw [if_neg fun both => holds both.1, if_neg holds]
        ring

/-! ## Swap fills -/

structure SwapFillEffect (pm after : PositionManager) (report : ExecutionReport)
    (incremental : ℚ) : Prop where
  contracts : after.contractsOf report =
    contractsAfter report.positionSide report.side (pm.contractsOf report) incremental
  tracker : ∀ orderId, after.swapOrderFillTracker.getD orderId 0 =
    if orderId = report.orderId then
      if report.status = .filled then 0 else report.filledVolume
    else pm.swapOrderFillTracker.getD orderId 0

theorem contractsAfter_zero (positionSide : PosSide) (side : Side) {contracts : ℚ}
    (nonneg : 0 ≤ contracts) : contractsAfter positionSide side contracts 0 = contracts := by
  rw [contractsAfter, add_zero, sub_zero, max_eq_right nonneg, ite_self]

theorem contractsAfter_nonneg (positionSide : PosSide) (side : Side) {contracts incremental : ℚ}
    (nonneg : 0 ≤ contracts) (added : 0 ≤ incremental) :
    0 ≤ contractsAfter positionSide side contracts incremental := by
  rw [contractsAfter]
  split
  · exact add_nonneg nonneg added
  · exact le_max_left ..

theorem updateSwapOnFill_spec (known : registry.get report.instrument = some info)
    (nonneg : 0 ≤ pm.contractsOf report)
    (ordered : pm.swapOrderFillTracker.getD report.orderId 0 ≤ report.filledVolume) :
    ∃ after, pm.updateSwapOnFill registry report = some after ∧
      SwapFillEffect pm after report
        (decode (report.filledVolume - pm.swapOrderFillTracker.getD report.orderId 0)
          info.volumePrecision) := by
  have tracked : ∀ orderId,
      ((pm.nameSwap report).trackSwapFill report).swapOrderFillTracker.getD orderId 0 =
        if orderId = report.orderId then
          if report.status = .filled then 0 else report.filledVolume
        else pm.swapOrderFillTracker.getD orderId 0 :=
    fun orderId => tracker_trackSwapFill (pm.nameSwap report) report orderId
  rw [updateSwapOnFill_eq, ← swapIncrement]
  by_cases idle : pm.swapIncrement report ≤ 0
  · have none : pm.swapIncrement report = 0 := by
      rw [swapIncrement] at idle ⊢
      omega
    rw [if_pos idle, none, decode_zero]
    refine ⟨_, rfl, ⟨?_, tracked⟩⟩
    rw [contractsAfter_zero _ _ nonneg, contractsOf, swap_trackSwapFill, contracts_nameSwap]
    rfl
  · rw [if_neg idle, known, Option.map_some]
    refine ⟨_, rfl, ⟨?_, tracked⟩⟩
    rw [contractsOf, contracts_applySwapFill, if_pos rfl, swap_trackSwapFill, contracts_nameSwap]
    rfl

/-! ## One fill report of either market -/

theorem SwapFillEffect.contractsMoved {after : PositionManager} {incremental : ℚ}
    (effect : SwapFillEffect pm after report incremental) (nonneg : 0 ≤ pm.contractsOf report)
    (added : 0 ≤ incremental) :
    pm.contractsMoved after report =
      if isOpening report.positionSide report.side then incremental
      else min (pm.contractsOf report) incremental := by
  rw [PositionManager.contractsMoved, effect.contracts, contractsAfter]
  split
  · rw [add_sub_cancel_left, abs_of_nonneg added]
  · rcases le_total (pm.contractsOf report) incremental with short | enough
    · rw [max_eq_left (sub_nonpos.mpr short), zero_sub, abs_neg, abs_of_nonneg nonneg,
        min_eq_left short]
    · rw [max_eq_right (sub_nonneg.mpr enough), sub_sub_cancel_left, abs_neg,
        abs_of_nonneg added, min_eq_right enough]

theorem movable_of_closes (closes : Closes report) (volume : ℚ) :
    pm.movable report volume = min (pm.contractsOf report) volume := if_pos closes

theorem movable_of_not_closes (keeps : ¬ Closes report) (volume : ℚ) :
    pm.movable report volume = if MarginSell report then 0 else volume := if_neg keeps

theorem movable_zero (nonneg : report.marketType = .swap → 0 ≤ pm.contractsOf report) :
    pm.movable report 0 = 0 := by
  rw [movable]
  split
  · next closes => exact min_eq_right (nonneg closes.1)
  · exact ite_self 0

theorem min_add_min_of_nonneg {contracts first second : ℚ} (secondNonneg : 0 ≤ second) :
    min contracts first + min (max 0 (contracts - first)) second =
      min contracts (first + second) := by
  rcases le_total contracts first with short | enough
  · rw [min_eq_left short, max_eq_left (sub_nonpos.mpr short), min_eq_left secondNonneg,
      min_eq_left (short.trans (le_add_of_nonneg_right secondNonneg)), add_zero]
  · rw [min_eq_right enough, max_eq_right (sub_nonneg.mpr enough), ← min_add_add_left,
      add_sub_cancel]

/-- What handling a fill report of `pending` does to the measures of that order. -/
structure FillStep (info : InstrumentInfo) (pm after : PositionManager)
    (report : ExecutionReport) : Prop where
  moved : pm.fillMoved after report =
    pm.movable report (decode (report.filledVolume - pm.fillTracker report) info.volumePrecision)
  rest : ∀ volume, 0 ≤ volume → after.movable report volume +
      pm.movable report
        (decode (report.filledVolume - pm.fillTracker report) info.volumePrecision) =
    pm.movable report
      (decode (report.filledVolume - pm.fillTracker report) info.volumePrecision + volume)
  contracts : report.marketType = .swap → 0 ≤ after.contractsOf report
  tracker : after.fillTracker report =
    if report.status = .filled then 0 else report.filledVolume

theorem applyReport_fillStep (known : registry.get report.instrument = some info)
    (fills : report.status = .filled ∨ report.status = .partiallyFilled)
    (nonneg : report.marketType = .swap → 0 ≤ pm.contractsOf report)
    (ordered : pm.fillTracker report ≤ report.filledVolume) :
    ∃ after, TradingEngine.applyReport registry pm report = some after ∧
      FillStep info pm after report := by
  cases market : report.marketType with
  | spot =>
      have keeps : ¬ Closes report := fun closes => by
        rw [Closes, market] at closes
        exact absurd closes.1 (by decide)
      have notSwap : ¬ report.marketType = .swap := by
        rw [market]
        decide
      have tracker : ∀ state : PositionManager, state.fillTracker report =
          state.spotOrderFillTracker.getD report.orderId 0 := fun _ => if_neg notSwap
      rw [tracker] at ordered
      obtain ⟨after, ran, effect⟩ := updateSpotOnFill_spec report.tradeMode known fills ordered
      refine ⟨after, ?_, ⟨?_, fun volume _ => ?_, fun swap => absurd swap notSwap, ?_⟩⟩
      · rw [TradingEngine.applyReport_spotFill market fills known, ran]
      · have applied : pm.spotApplied report =
            report.filledVolume - pm.spotOrderFillTracker.getD report.orderId 0 :=
          max_eq_right (Int.sub_nonneg.mpr ordered)
        have margin : MarginSell report ↔ ¬ HoldsLock report.side report.tradeMode :=
          and_iff_right market
        rw [← applied] at effect
        rw [fillMoved, isFill_iff.mpr fills, if_pos rfl, if_neg notSwap, effect.baseMoved,
          movable_of_not_closes keeps, tracker, applied]
        by_cases holds : HoldsLock report.side report.tradeMode
        · rw [if_pos holds, if_neg fun sold => margin.mp sold holds]
        · rw [if_neg holds, if_pos (margin.mpr holds)]
      · rw [movable_of_not_closes keeps, movable_of_not_closes keeps, movable_of_not_closes keeps]
        split
        · exact add_zero 0
        · exact add_comm _ _
      · rw [tracker, effect.tracker, if_pos rfl]
  | swap =>
      have tracker : ∀ state : PositionManager, state.fillTracker report =
          state.swapOrderFillTracker.getD report.orderId 0 := fun _ => if_pos market
      rw [tracker] at ordered
      obtain ⟨after, ran, effect⟩ := updateSwapOnFill_spec known (nonneg market) ordered
      have added : 0 ≤ decode (report.filledVolume -
          pm.swapOrderFillTracker.getD report.orderId 0) info.volumePrecision :=
        (decode_nonneg _).mpr (Int.sub_nonneg.mpr ordered)
      refine ⟨after, ?_, ⟨?_, fun volume volumeNonneg => ?_, fun _ => ?_, ?_⟩⟩
      · rw [TradingEngine.applyReport_swapFill market fills known, ran]
      · rw [fillMoved, isFill_iff.mpr fills, if_pos rfl, if_pos market,
          effect.contractsMoved (nonneg market) added, tracker, movable]
        cases opening : isOpening report.positionSide report.side <;>
          simp [Closes, MarginSell, market, opening]
      · rw [tracker]
        by_cases closes : Closes report
        · rw [movable_of_closes closes, movable_of_closes closes, movable_of_closes closes,
            effect.contracts, contractsAfter, closes.2, if_neg Bool.false_ne_true, add_comm,
            min_add_min_of_nonneg volumeNonneg]
        · have notMargin : ¬ MarginSell report := fun margin => by
            rw [margin.1] at market
            cases market
          rw [movable_of_not_closes closes, movable_of_not_closes closes,
            movable_of_not_closes closes, if_neg notMargin, if_neg notMargin, if_neg notMargin,
            add_comm]
      · rw [effect.contracts]
        exact contractsAfter_nonneg _ _ (nonneg market) added
      · rw [tracker, effect.tracker, if_pos rfl]

end Measure

/-! ## What a report leaves alone -/

section Frame
variable {registry : InstrumentRegistry} {report : ExecutionReport} {pm after : PositionManager}

def ContractsNonneg (pm : PositionManager) : Prop :=
  ∀ instrument positionSide, 0 ≤ (pm.swap instrument positionSide).contracts

/-- What a report leaves alone: the trackers of the other orders and the sign of
every swap position. -/
structure ReportFrame (pm after : PositionManager) (report : ExecutionReport) : Prop where
  spotTracker : ∀ id, id ≠ report.orderId →
    after.spotOrderFillTracker.getD id 0 = pm.spotOrderFillTracker.getD id 0
  swapTracker : ∀ id, id ≠ report.orderId →
    after.swapOrderFillTracker.getD id 0 = pm.swapOrderFillTracker.getD id 0
  contracts : pm.ContractsNonneg → after.ContractsNonneg

/-- The fields that spot reports other than fills and cancels do not touch. -/
structure SameFills (pm after : PositionManager) : Prop where
  spotTracker : after.spotOrderFillTracker = pm.spotOrderFillTracker
  swapTracker : after.swapOrderFillTracker = pm.swapOrderFillTracker
  swapPositions : after.swapPositions = pm.swapPositions

theorem SameFills.refl (pm : PositionManager) : SameFills pm pm := ⟨rfl, rfl, rfl⟩

theorem SameFills.frame (same : SameFills pm after) (report : ExecutionReport) :
    ReportFrame pm after report := by
  refine ⟨fun id _ => ?_, fun id _ => ?_, fun nonneg instrument positionSide => ?_⟩
  · rw [same.spotTracker]
  · rw [same.swapTracker]
  · rw [swap, same.swapPositions]
    exact nonneg instrument positionSide

theorem updateSpotOnNew_sameFills {tradeMode : TradeMode}
    (ran : pm.updateSpotOnNew registry report tradeMode = some after) : SameFills pm after := by
  rw [updateSpotOnNew_eq] at ran
  obtain ⟨info, _, rfl⟩ := Option.map_eq_some_iff.mp ran
  split <;> exact ⟨rfl, rfl, rfl⟩

theorem updateSpotOnRejected_sameFills {tradeMode : TradeMode}
    (ran : pm.updateSpotOnRejected registry report tradeMode = some after) :
    SameFills pm after := by
  rw [updateSpotOnRejected_eq] at ran
  obtain ⟨info, _, rfl⟩ := Option.map_eq_some_iff.mp ran
  split
  · exact ⟨releaseRejected_frame.1, releaseRejected_frame.2.1, releaseRejected_frame.2.2⟩
  · exact SameFills.refl pm

theorem trackSpotFill_frame (pm : PositionManager) (report : ExecutionReport) :
    ReportFrame pm (pm.trackSpotFill report) report := by
  refine ⟨fun id other => ?_, fun _ _ => rfl, fun nonneg => nonneg⟩
  rw [tracker_trackSpotFill, if_neg other]

theorem ReportFrame.trans {middle : PositionManager} (first : ReportFrame pm middle report)
    (second : ReportFrame middle after report) : ReportFrame pm after report :=
  ⟨fun id other => (second.spotTracker id other).trans (first.spotTracker id other),
    fun id other => (second.swapTracker id other).trans (first.swapTracker id other),
    fun nonneg => second.contracts (first.contracts nonneg)⟩

theorem updateSpotOnFill_frame {tradeMode : TradeMode}
    (fills : report.status = .filled ∨ report.status = .partiallyFilled)
    (ran : pm.updateSpotOnFill registry report tradeMode = some after) :
    ReportFrame pm after report := by
  rw [updateSpotOnFill_eq _ _ _ _ fills] at ran
  split at ran
  · cases ran
    exact trackSpotFill_frame pm report
  · obtain ⟨info, _, rfl⟩ := Option.map_eq_some_iff.mp ran
    refine (trackSpotFill_frame pm report).trans (SameFills.frame ⟨?_, ?_, ?_⟩ report)
    · exact spotOrderFillTracker_applySpotFill ..
    · exact swapOrderFillTracker_applySpotFill ..
    · rw [applySpotFill_frame]

theorem updateSpotOnCancel_frame {tradeMode : TradeMode} (cancels : report.status = .cancelled)
    (ran : pm.updateSpotOnCancel registry report tradeMode = some after) :
    ReportFrame pm after report := by
  have untracked : ∀ state : PositionManager,
      ReportFrame state (state.untrackSpot report.orderId) report := by
    intro state
    refine ⟨fun id other => ?_, fun _ _ => rfl, fun nonneg => nonneg⟩
    rw [tracker_untrackSpot, if_neg other]
  rw [updateSpotOnCancel_eq _ _ _ _ cancels] at ran
  split at ran
  · obtain ⟨info, _, rfl⟩ := Option.map_eq_some_iff.mp ran
    refine ReportFrame.trans ?_ (untracked _)
    split
    · have same : SameFills pm (pm.release (lockedCurrencyOf report.instrument report.side)
          (lockValue info report.side report.price (report.totalVolume - report.filledVolume))) :=
        ⟨rfl, rfl, rfl⟩
      exact same.frame report
    · exact (SameFills.refl pm).frame report
  · cases ran
    exact untracked pm

theorem trackSwapFill_frame (pm : PositionManager) (report : ExecutionReport) :
    ReportFrame pm ((pm.nameSwap report).trackSwapFill report) report := by
  refine ⟨fun _ _ => rfl, fun id other => ?_, fun nonneg instrument positionSide => ?_⟩
  · rw [tracker_trackSwapFill, if_neg other]
    rfl
  · rw [swap_trackSwapFill, contracts_nameSwap]
    exact nonneg instrument positionSide

theorem updateSwapOnFill_reportFrame (ran : pm.updateSwapOnFill registry report = some after) :
    ReportFrame pm after report := by
  rw [updateSwapOnFill_eq] at ran
  split at ran
  · cases ran
    exact trackSwapFill_frame pm report
  · next added =>
      obtain ⟨info, _, rfl⟩ := Option.map_eq_some_iff.mp ran
      refine (trackSwapFill_frame pm report).trans
        ⟨fun _ _ => rfl, fun _ _ => rfl, fun nonneg instrument positionSide => ?_⟩
      rw [contracts_applySwapFill]
      split
      · exact contractsAfter_nonneg _ _ (nonneg _ _) ((decode_nonneg _).mpr (by omega))
      · exact nonneg instrument positionSide

/-- No report touches the fill state of another order or makes a position negative. -/
theorem applyReport_frame (ran : TradingEngine.applyReport registry pm report = some after) :
    ReportFrame pm after report := by
  rw [TradingEngine.applyReport] at ran
  cases statusCase : report.status with
  | filled | partiallyFilled =>
      simp only [statusCase, Option.bind_eq_bind] at ran
      split at ran
      · simp only [Option.bind_eq_some_iff] at ran
        obtain ⟨moved, filled, _, _, same⟩ := ran
        cases same
        exact updateSwapOnFill_reportFrame filled
      · simp only [Option.bind_eq_some_iff] at ran
        obtain ⟨moved, filled, _, _, same⟩ := ran
        cases same
        exact updateSpotOnFill_frame (by simp [statusCase]) filled
  | cancelled =>
      simp only [statusCase] at ran
      split at ran
      · cases ran
        refine ⟨fun _ _ => rfl, fun id other => ?_, fun nonneg => nonneg⟩
        rw [updateSwapOnCancel, UnorderedMap.getD_erase, if_neg other]
      · simp only [Option.bind_eq_bind, Option.bind_eq_some_iff] at ran
        obtain ⟨moved, cancelled, _, _, same⟩ := ran
        cases same
        exact updateSpotOnCancel_frame statusCase cancelled
  | rejected =>
      simp only [statusCase] at ran
      split at ran
      · cases ran
        exact (SameFills.refl pm).frame report
      · exact (updateSpotOnRejected_sameFills ran).frame report
  | new =>
      simp only [statusCase] at ran
      split at ran
      · simp only [Option.bind_eq_bind, Option.bind_eq_some_iff] at ran
        obtain ⟨moved, locked, _, _, same⟩ := ran
        cases same
        exact (updateSpotOnNew_sameFills locked).frame report
      · cases ran
        exact (SameFills.refl pm).frame report
  | cancelFailed =>
      simp only [statusCase] at ran
      cases ran
      exact (SameFills.refl pm).frame report

theorem applyReport_new (isNew : report.status = .new)
    (ran : TradingEngine.applyReport registry pm report = some after) : SameFills pm after := by
  rw [TradingEngine.applyReport, isNew] at ran
  dsimp only at ran
  split at ran
  · simp only [Option.bind_eq_bind, Option.bind_eq_some_iff] at ran
    obtain ⟨moved, locked, _, _, same⟩ := ran
    cases same
    exact updateSpotOnNew_sameFills locked
  · cases ran
    exact SameFills.refl pm

end Frame

end PositionManager

end CryptoTrading
