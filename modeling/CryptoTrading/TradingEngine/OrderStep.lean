import CryptoTrading.TradingEngine.FillMeasure
import CryptoTrading.TradingEngine.OrderFlow

/-! # One report of one own order

What `HandleOrderUpdate` does with a report of a spot LIMIT order of this
process: to everything else nothing, and to the amounts of its own currency
what its lock accounts for. -/
set_option autoImplicit false

namespace CryptoTrading

open TradingEngine

/-! ## Everything else is unchanged -/

section Frame
variable {registry : InstrumentRegistry} {report : ExecutionReport}

/-- What a report of one order leaves alone. -/
structure OrderFrame (before after : TradingEngine) (orderId clientOrderId : String) : Prop where
  live : ∀ id, id ≠ orderId →
    (id ∈ after.liveOrderInstruments ↔ id ∈ before.liveOrderInstruments)
  tracker : ∀ id, id ≠ orderId → after.positionManager.spotOrderFillTracker.getD id 0 =
    before.positionManager.spotOrderFillTracker.getD id 0
  reservations : ∀ other, other ≠ clientOrderId →
    (other ∈ after.clientOrderIdToReservation ↔ other ∈ before.clientOrderIdToReservation)

theorem OrderFrame.refl (engine : TradingEngine) (orderId clientOrderId : String) :
    OrderFrame engine engine orderId clientOrderId :=
  ⟨fun _ _ => Iff.rfl, fun _ _ => rfl, fun _ _ => Iff.rfl⟩

theorem OrderFrame.trans {first second third : TradingEngine} {orderId clientOrderId : String}
    (left : OrderFrame first second orderId clientOrderId)
    (right : OrderFrame second third orderId clientOrderId) :
    OrderFrame first third orderId clientOrderId :=
  ⟨fun id other => (right.live id other).trans (left.live id other),
    fun id other => (right.tracker id other).trans (left.tracker id other),
    fun key other => (right.reservations key other).trans (left.reservations key other)⟩

theorem frame_finishUpdate {engine after : TradingEngine} {clientOrderId : String}
    (ran : engine.finishUpdate registry report clientOrderId = some after) :
    OrderFrame engine after report.orderId clientOrderId := by
  by_cases duplicate : engine.isDuplicateCancel report = true
  · rw [finishUpdate, if_pos duplicate] at ran
    rw [← Option.some.inj ran]
    exact OrderFrame.refl ..
  · have fresh := Bool.eq_false_iff.mpr duplicate
    rw [finishUpdate, if_neg duplicate] at ran
    obtain ⟨pm, applied, _⟩ := Option.map_eq_some_iff.mp ran
    obtain ⟨same, ranSame, effect⟩ := finishUpdate_effect clientOrderId fresh applied
    rw [finishUpdate, if_neg duplicate] at ranSame
    obtain rfl := Option.some.inj (ranSame.symm.trans ran)
    refine ⟨fun id other => ?_, fun id other => ?_, fun key other => ?_⟩
    · rw [effect.live, mem_updateLiveOrders]
      simp [other]
    · rw [effect.positions, (PositionManager.applyReport_frame applied).spotTracker id other]
    · rw [effect.reservations, mem_eraseReservation]
      simp [other]

theorem frame_recoverMissedNew {engine recovered : TradingEngine} {clientOrderId : String}
    (ran : engine.recoverMissedNew registry report clientOrderId = some recovered) :
    OrderFrame engine recovered report.orderId clientOrderId := by
  rw [recoverMissedNew] at ran
  split at ran
  · obtain ⟨locked, stepped, rfl⟩ := Option.map_eq_some_iff.mp ran
    have same : locked.liveOrderInstruments = engine.liveOrderInstruments ∧
        locked.positionManager.spotOrderFillTracker =
          engine.positionManager.spotOrderFillTracker ∧
        locked.clientOrderIdToReservation = engine.clientOrderIdToReservation := by
      rw [recoverPositions] at stepped
      split at stepped
      · rw [PositionManager.updateSpotOnNew_eq] at stepped
        obtain ⟨pm, applied, rfl⟩ := Option.map_eq_some_iff.mp stepped
        obtain ⟨info, _, rfl⟩ := Option.map_eq_some_iff.mp applied
        refine ⟨rfl, ?_, rfl⟩
        rw [positionManager_setPositions]
        split <;> rfl
      · rw [← Option.some.inj stepped]
        exact ⟨rfl, rfl, rfl⟩
    refine ⟨fun id other => ?_, fun id _ => ?_, fun key _ => ?_⟩
    · rw [insertLive, Finmap.mem_insert, same.1]
      simp [other]
    · rw [positionManager_insertLive, same.2.1]
    · rw [reservations_insertLive, same.2.2]
  · rw [← Option.some.inj ran]
    exact OrderFrame.refl ..

theorem frame_handleOrderUpdate {engine after : TradingEngine} {clientOrderId : String}
    (ran : engine.handleOrderUpdate registry report clientOrderId = some after) :
    OrderFrame engine after report.orderId clientOrderId := by
  rw [handleOrderUpdate_eq] at ran
  obtain ⟨recovered, recovery, finished⟩ := Option.bind_eq_some_iff.mp ran
  exact (frame_recoverMissedNew recovery).trans (frame_finishUpdate finished)

end Frame

/-! ## The amounts of the order's own currency -/

/-- The values of `order` that its reports repeat.  The report of a refused
request has lost its trade mode, which only matters for a SELL. -/
structure EchoesOrder (order : SpotLimit) (report : ExecutionReport) : Prop where
  instrument : report.instrument = order.instrument
  side : report.side = order.side
  marketType : report.marketType = .spot
  price : report.price = order.price
  totalVolume : report.totalVolume = order.volume
  tradeMode : order.side = .sell → report.tradeMode = order.tradeMode

def SpotLimit.remainder (info : InstrumentInfo) (order : SpotLimit) (filled : Int) : ℚ :=
  lockValue info order.side order.price (order.volume - filled)

section Amounts
variable {registry : InstrumentRegistry} {info : InstrumentInfo} {order : SpotLimit}
  {report : ExecutionReport}

theorem EchoesOrder.holds (echo : EchoesOrder order report) :
    HoldsLock report.side report.tradeMode ↔ HoldsLock order.side order.tradeMode := by
  rw [echo.side]
  cases sideCase : order.side with
  | buy => simp
  | sell => rw [echo.tradeMode sideCase]

theorem EchoesOrder.known (echo : EchoesOrder order report)
    (known : registry.get order.instrument = some info) :
    registry.get report.instrument = some info := by
  rw [echo.instrument]
  exact known

theorem remainder_zero : order.remainder info 0 = order.value info := by
  rw [SpotLimit.remainder, sub_zero, SpotLimit.value]

theorem remainder_nonneg (info : InstrumentInfo) (price : 0 < order.price) {filled : Int}
    (within : filled ≤ order.volume) :
    0 ≤ order.remainder info filled :=
  lockValue_nonneg info order.side price.le (Int.sub_nonneg.mpr within)

theorem remainder_sub (first second : Int) :
    order.remainder info first - order.remainder info second =
      lockValue info order.side order.price (second - first) := by
  rw [SpotLimit.remainder, SpotLimit.remainder, lockValue_sub, lockValue_sub, lockValue_sub]
  ring

theorem remainder_antitone (info : InstrumentInfo) (price : 0 < order.price) {first second : Int}
    (ordered : first ≤ second) : order.remainder info second ≤ order.remainder info first := by
  rw [← sub_nonneg, remainder_sub]
  exact lockValue_nonneg info order.side price.le (Int.sub_nonneg.mpr ordered)

/-- A fill never consumes more than the lock of its increment. -/
theorem fillConsumes_le (info : InstrumentInfo) (echo : EchoesOrder order report) {increment : Int}
    (added : 0 ≤ increment)
    (bounded : order.side = .buy → report.avgFillPrice ≤ decode order.price info.pricePrecision) :
    PositionManager.fillConsumes report (decode increment info.volumePrecision) ≤
      lockValue info order.side order.price increment := by
  rw [PositionManager.fillConsumes, echo.side]
  cases sideCase : order.side with
  | buy => exact mul_le_mul_of_nonneg_right (bounded sideCase) ((decode_nonneg _).mpr added)
  | sell => exact le_refl _

/-- The new cumulative fill of a live order that goes on, or nothing. -/
def remainderAfter (info : InstrumentInfo) (order : SpotLimit) (report : ExecutionReport) : ℚ :=
  if report.status = .partiallyFilled then order.remainder info report.filledVolume else 0

/-- What a report of a locked order does to the position manager: nothing to
the reservations, and to the frozen amount at most what the order's lock loses. -/
structure LiveEffect (info : InstrumentInfo) (order : SpotLimit) (report : ExecutionReport)
    (filled : Int) (pm after : PositionManager) : Prop where
  reserved : ∀ currency, after.reserved currency = pm.reserved currency
  frozen : ∀ currency, (pm.spot currency).frozen -
    (if currency = order.currency then
      order.remainder info filled - remainderAfter info order report
    else 0) ≤ (after.spot currency).frozen
  tracker : report.status = .partiallyFilled →
    after.spotOrderFillTracker.getD report.orderId 0 = report.filledVolume

theorem applyReport_liveFill (known : registry.get order.instrument = some info)
    (holds : HoldsLock order.side order.tradeMode) (price : 0 < order.price)
    (echo : EchoesOrder order report) {pm : PositionManager} {filled : Int}
    (fills : report.status = .filled ∨ report.status = .partiallyFilled)
    (tracked : pm.spotOrderFillTracker.getD report.orderId 0 = filled)
    (ordered : filled ≤ report.filledVolume) (within : report.filledVolume ≤ order.volume)
    (bounded : order.side = .buy → report.avgFillPrice ≤ decode order.price info.pricePrecision) :
    ∃ after, applyReport registry pm report = some after ∧
      LiveEffect info order report filled pm after := by
  obtain ⟨after, ran, effect⟩ := PositionManager.updateSpotOnFill_spec report.tradeMode
    (echo.known known) fills (tracked.le.trans ordered)
  rw [tracked] at effect
  refine ⟨after, ?_, ⟨effect.reserved, fun currency => ?_, fun isPartial => ?_⟩⟩
  · rw [applyReport_spotFill echo.marketType fills (echo.known known), ran]
  · have consumed := fillConsumes_le info echo (Int.sub_nonneg.mpr ordered) bounded
    rw [← remainder_sub] at consumed
    have left : remainderAfter info order report ≤ order.remainder info report.filledVolume := by
      rw [remainderAfter]
      split
      · exact le_refl _
      · exact remainder_nonneg info price within
    have sameCurrency : lockedCurrencyOf report.instrument report.side = order.currency := by
      rw [echo.instrument, echo.side, SpotLimit.currency]
    rw [effect.frozen, sameCurrency]
    by_cases here : currency = order.currency
    · rw [if_pos here, if_pos ⟨echo.holds.mpr holds, here⟩]
      linarith
    · rw [if_neg here, if_neg (fun both => here both.2)]
  · rw [effect.tracker, if_pos rfl, isPartial]
    rfl

theorem applyReport_liveCancel (known : registry.get order.instrument = some info)
    (holds : HoldsLock order.side order.tradeMode) (price : 0 < order.price)
    (echo : EchoesOrder order report) {pm : PositionManager} {filled : Int}
    (cancels : report.status = .cancelled) (ordered : filled ≤ report.filledVolume)
    (within : report.filledVolume ≤ order.volume) :
    ∃ after, applyReport registry pm report = some after ∧
      LiveEffect info order report filled pm after := by
  have notPartial : report.status ≠ .partiallyFilled := by
    rw [cancels]
    decide
  have ended : remainderAfter info order report = 0 := if_neg notPartial
  have released := remainder_antitone info price ordered
  have value : lockValue info report.side report.price (report.totalVolume - report.filledVolume) =
      order.remainder info report.filledVolume := by
    rw [echo.side, echo.price, echo.totalVolume, SpotLimit.remainder]
  rw [applyReport_spotCancel echo.marketType cancels (echo.known known),
    PositionManager.updateSpotOnCancel_eq _ _ _ _ cancels, echo.known known,
    Option.map_some, value, if_pos (echo.holds.mpr holds)]
  by_cases remains : report.totalVolume - report.filledVolume > 0
  · rw [if_pos remains]
    refine ⟨_, rfl, ⟨fun _ => rfl, fun currency => ?_,
      fun isPartial => absurd isPartial notPartial⟩⟩
    rw [PositionManager.spot_untrackSpot, PositionManager.frozen_release, ended, sub_zero,
      echo.instrument, echo.side, ← SpotLimit.currency]
    split <;> linarith
  · rw [if_neg remains]
    refine ⟨_, rfl, ⟨fun _ => rfl, fun currency => ?_,
      fun isPartial => absurd isPartial notPartial⟩⟩
    have nonneg := remainder_nonneg info price (ordered.trans within)
    rw [PositionManager.spot_untrackSpot, ended, sub_zero]
    split <;> linarith

theorem applyReport_liveRejected (known : registry.get order.instrument = some info)
    (holds : HoldsLock order.side order.tradeMode) (echo : EchoesOrder order report)
    {pm : PositionManager} (rejects : report.status = .rejected)
    (covered : order.remainder info 0 ≤ (pm.spot order.currency).frozen) :
    ∃ after, applyReport registry pm report = some after ∧
      LiveEffect info order report 0 pm after := by
  have notPartial : report.status ≠ .partiallyFilled := by
    rw [rejects]
    decide
  have ended : remainderAfter info order report = 0 := if_neg notPartial
  have value : lockValue info report.side report.price report.totalVolume =
      order.remainder info 0 := by
    rw [echo.side, echo.price, echo.totalVolume, remainder_zero, SpotLimit.value]
  have covers : pm.FrozenCovers order.currency (order.remainder info 0) := by
    rw [PositionManager.FrozenCovers, PositionManager.frozenTolerance]
    linarith
  have released := PositionManager.releaseRejected_frozen covers
  rw [applyReport_spotRejected echo.marketType rejects, PositionManager.updateSpotOnRejected_eq,
    echo.known known, Option.map_some, if_pos (echo.holds.mpr holds), value, echo.instrument,
    echo.side, ← SpotLimit.currency]
  refine ⟨_, rfl, ⟨fun currency => (released currency).2.2, fun currency => ?_,
    fun isPartial => absurd isPartial notPartial⟩⟩
  rw [(released currency).2.1, ended, sub_zero]

end Amounts

/-! ## The stages of an order -/

/-- How far the handling of an order has come: no report yet, a report but no
terminal one, or a terminal one. -/
inductive Progress where
  | silent
  | live (orderId : String) (filled : Int)
  | ended (orderId : String)
  deriving DecidableEq

def Progress.next (report : ExecutionReport) : Progress :=
  if isTerminal report.status then .ended report.orderId
  else .live report.orderId (if report.status = .new then 0 else report.filledVolume)

/-- The reports that can come next.  `fresh` are the ids no other order has; the
empty id belongs to a refused request. -/
structure NextReport (info : InstrumentInfo) (fresh : String → Prop) (order : SpotLimit)
    (progress : Progress) (report : ExecutionReport) : Prop where
  echo : EchoesOrder order report
  exchanged : report.status ≠ .cancelFailed
  filledNonneg : 0 ≤ report.filledVolume
  within : report.filledVolume ≤ order.volume
  bounded : report.status = .filled ∨ report.status = .partiallyFilled → order.side = .buy →
    report.avgFillPrice ≤ decode order.price info.pricePrecision
  noMarginRejection : report.status = .rejected → HoldsLock order.side order.tradeMode
  stage : match progress with
    | .silent => fresh report.orderId ∨ report.orderId = "" ∧ report.status = .rejected
    | .live orderId filled => report.orderId = orderId ∧ report.status ≠ .new ∧
        filled ≤ report.filledVolume ∧ (report.status = .rejected → filled = 0)
    | .ended _ => False

def SpotLimit.outstanding (info : InstrumentInfo) (order : SpotLimit) : Progress → ℚ
  | .silent => order.reserves info
  | .live _ _ => 0
  | .ended _ => 0

def SpotLimit.held (info : InstrumentInfo) (order : SpotLimit) : Progress → ℚ
  | .silent => 0
  | .live _ filled =>
      if HoldsLock order.side order.tradeMode then order.remainder info filled else 0
  | .ended _ => 0

structure OrderEffect (info : InstrumentInfo) (order : SpotLimit) (progress : Progress)
    (report : ExecutionReport) (before after : TradingEngine) : Prop where
  reserved : ∀ currency, after.positionManager.reserved currency =
    before.positionManager.reserved currency -
      if currency = order.currency then order.outstanding info progress else 0
  frozen : ∀ currency, (before.positionManager.spot currency).frozen -
      (if currency = order.currency then
        order.held info progress - order.held info (Progress.next report)
      else 0) ≤ (after.positionManager.spot currency).frozen
  live : HoldsLock order.side order.tradeMode → isTerminal report.status = false →
    report.orderId ∈ after.liveOrderInstruments
  gone : isTerminal report.status = true → HoldsLock order.side order.tradeMode →
    report.orderId ∉ after.liveOrderInstruments
  tracker : HoldsLock order.side order.tradeMode → ∀ filled,
    Progress.next report = .live report.orderId filled →
      after.positionManager.spotOrderFillTracker.getD report.orderId 0 = filled

section Stages
variable {registry : InstrumentRegistry} {info : InstrumentInfo} {order : SpotLimit}
  {report : ExecutionReport} {engine : TradingEngine} {clientOrderId : String}
  {fresh : String → Prop}

/-- Once a report is handled nothing is reserved for the order any more. -/
theorem outstanding_next : order.outstanding info (Progress.next report) = 0 := by
  rw [Progress.next]
  split <;> rfl

theorem held_next (holds : HoldsLock order.side order.tradeMode) (notNew : report.status ≠ .new)
    (exchanged : report.status ≠ .cancelFailed) :
    order.held info (Progress.next report) = remainderAfter info order report := by
  cases statusCase : report.status <;>
    simp_all [Progress.next, SpotLimit.held, remainderAfter, isTerminal]

theorem applyReport_live {progress : Progress}
    (known : registry.get order.instrument = some info)
    (holds : HoldsLock order.side order.tradeMode) (price : 0 < order.price)
    (next : NextReport info fresh order progress report) {pm : PositionManager} {filled : Int}
    (notNew : report.status ≠ .new) (ordered : filled ≤ report.filledVolume)
    (unfilled : report.status = .rejected → filled = 0)
    (tracked : report.status ≠ .rejected →
      pm.spotOrderFillTracker.getD report.orderId 0 = filled)
    (covered : order.remainder info filled ≤ (pm.spot order.currency).frozen) :
    ∃ after, applyReport registry pm report = some after ∧
      LiveEffect info order report filled pm after := by
  cases statusCase : report.status with
  | new => exact absurd statusCase notNew
  | cancelFailed => exact absurd statusCase next.exchanged
  | filled =>
      exact applyReport_liveFill known holds price next.echo (Or.inl statusCase)
        (tracked (by rw [statusCase]; decide)) ordered next.within
        (next.bounded (Or.inl statusCase))
  | partiallyFilled =>
      exact applyReport_liveFill known holds price next.echo (Or.inr statusCase)
        (tracked (by rw [statusCase]; decide)) ordered next.within
        (next.bounded (Or.inr statusCase))
  | cancelled =>
      exact applyReport_liveCancel known holds price next.echo statusCase ordered next.within
  | rejected =>
      have none := unfilled statusCase
      subst none
      exact applyReport_liveRejected known holds next.echo statusCase covered

theorem finishUpdate_live (clientOrderId : String) {progress : Progress}
    (known : registry.get order.instrument = some info)
    (holds : HoldsLock order.side order.tradeMode) (price : 0 < order.price)
    (next : NextReport info fresh order progress report) {filled : Int}
    (notNew : report.status ≠ .new) (ordered : filled ≤ report.filledVolume)
    (unfilled : report.status = .rejected → filled = 0)
    (live : report.orderId ∈ engine.liveOrderInstruments)
    (tracked : report.status ≠ .rejected →
      engine.positionManager.spotOrderFillTracker.getD report.orderId 0 = filled)
    (covered : order.remainder info filled ≤
      (engine.positionManager.spot order.currency).frozen) :
    ∃ after, engine.finishUpdate registry report clientOrderId = some after ∧
      LiveEffect info order report filled engine.positionManager after.positionManager ∧
      (isTerminal report.status = false → report.orderId ∈ after.liveOrderInstruments) ∧
      (isTerminal report.status = true → report.orderId ∉ after.liveOrderInstruments) := by
  obtain ⟨pm, applied, moved⟩ := applyReport_live known holds price next notNew ordered unfilled
    tracked covered
  obtain ⟨after, ran, effect⟩ := finishUpdate_effect clientOrderId
    (noDuplicate_of_live live) applied
  refine ⟨after, ran, ?_, fun goesOn => ?_, fun terminal => ?_⟩
  · rw [effect.positions]
    exact moved
  · rw [effect.live, mem_updateLiveOrders]
    exact Or.inr ⟨rfl, Or.inr ⟨goesOn, live⟩⟩
  · rw [effect.live, mem_updateLiveOrders]
    simp [notNew, terminal]

theorem next_live_partial {filled : Int} (notNew : report.status ≠ .new)
    (exchanged : report.status ≠ .cancelFailed)
    (goesOn : Progress.next report = .live report.orderId filled) :
    report.status = .partiallyFilled ∧ filled = report.filledVolume := by
  cases statusCase : report.status <;> simp_all [Progress.next, isTerminal]

theorem effect_live {orderId : String} {filled : Int}
    (known : registry.get order.instrument = some info)
    (holds : HoldsLock order.side order.tradeMode) (price : 0 < order.price)
    (next : NextReport info fresh order (.live orderId filled) report)
    (live : orderId ∈ engine.liveOrderInstruments)
    (tracked : engine.positionManager.spotOrderFillTracker.getD orderId 0 = filled)
    (covered : order.remainder info filled ≤
      (engine.positionManager.spot order.currency).frozen) :
    ∃ after, engine.handleOrderUpdate registry report clientOrderId = some after ∧
      OrderEffect info order (.live orderId filled) report engine after := by
  obtain ⟨same, notNew, ordered, unfilled⟩ := next.stage
  rw [← same] at live tracked
  obtain ⟨after, ran, moved, stays, leaves⟩ := finishUpdate_live clientOrderId known holds price
    next notNew ordered unfilled live (fun _ => tracked) covered
  refine ⟨after, ?_, ⟨fun currency => ?_, fun currency => ?_, fun _ => stays, fun terminal _ =>
    leaves terminal, fun _ volume goesOn => ?_⟩⟩
  · rw [handleOrderUpdate_of_noRecovery (noRecovery_of_live live clientOrderId), ran]
  · rw [moved.reserved, SpotLimit.outstanding, ite_self, sub_zero]
  · rw [held_next holds notNew next.exchanged, SpotLimit.held, if_pos holds]
    exact moved.frozen currency
  · obtain ⟨isPartial, rfl⟩ := next_live_partial notNew next.exchanged goesOn
    exact moved.tracker isPartial

theorem effect_new (known : registry.get order.instrument = some info)
    (holds : HoldsLock order.side order.tradeMode)
    (next : NextReport info fresh order .silent report) (isNew : report.status = .new)
    (untracked : engine.positionManager.spotOrderFillTracker.getD report.orderId 0 = 0)
    (reserved : order.value info ≤ engine.positionManager.reserved order.currency) :
    ∃ after, engine.handleOrderUpdate registry report clientOrderId = some after ∧
      OrderEffect info order .silent report engine after := by
  have applied := applyReport_spotNew registry next.echo.marketType isNew
    engine.positionManager
  have value : lockValue info report.side report.price report.totalVolume = order.value info := by
    rw [next.echo.side, next.echo.price, next.echo.totalVolume, SpotLimit.value]
  rw [PositionManager.updateSpotOnNew_eq, next.echo.known known, Option.map_some,
    if_pos (next.echo.holds.mpr holds), value, next.echo.instrument, next.echo.side,
    ← SpotLimit.currency] at applied
  obtain ⟨after, ran, effect⟩ := handleOrderUpdate_new clientOrderId isNew applied
  have started : Progress.next report = .live report.orderId 0 := by
    simp [Progress.next, isNew, isTerminal]
  refine ⟨after, ran, ⟨fun currency => ?_, fun currency => ?_, fun _ _ => ?_, fun terminal => ?_,
    fun _ volume goesOn => ?_⟩⟩
  · rw [effect.positions, PositionManager.reserved_lock, SpotLimit.outstanding, SpotLimit.reserves,
      if_pos holds]
    split
    · next same => rw [same, max_eq_right (sub_nonneg.mpr reserved)]
    · rw [sub_zero]
  · rw [effect.positions, PositionManager.frozen_lock, started, SpotLimit.held, SpotLimit.held,
      if_pos holds, remainder_zero]
    split <;> linarith
  · rw [effect.live, mem_updateLiveOrders]
    exact Or.inr ⟨rfl, Or.inl isNew⟩
  · rw [isNew] at terminal
    exact absurd terminal (by decide)
  · rw [started] at goesOn
    cases goesOn
    rw [effect.positions, PositionManager.spotOrderFillTracker_lock, untracked]

theorem effect_missedNew (known : registry.get order.instrument = some info)
    (holds : HoldsLock order.side order.tradeMode) (price : 0 < order.price)
    (next : NextReport info fresh order .silent report) (notNew : report.status ≠ .new)
    (named : clientOrderId ≠ "") (recorded : clientOrderId ∈ engine.clientOrderIdToReservation)
    (unknown : report.orderId ∉ engine.liveOrderInstruments)
    (untracked : report.status ≠ .rejected →
      engine.positionManager.spotOrderFillTracker.getD report.orderId 0 = 0)
    (reserved : order.value info ≤ engine.positionManager.reserved order.currency)
    (frozen : 0 ≤ (engine.positionManager.spot order.currency).frozen) :
    ∃ after, engine.handleOrderUpdate registry report clientOrderId = some after ∧
      OrderEffect info order .silent report engine after := by
  have needed : engine.needsRecovery report clientOrderId = true :=
    needsRecovery_iff.mpr ⟨notNew, named, unknown, recorded⟩
  have value : lockValue info report.side report.price report.totalVolume = order.value info := by
    rw [next.echo.side, next.echo.price, next.echo.totalVolume, SpotLimit.value]
  have recovered : engine.recoverPositions registry report = some (engine.setPositions
      (engine.positionManager.lock order.currency (order.value info))) := by
    rw [recoverPositions, if_pos next.echo.marketType, PositionManager.updateSpotOnNew_eq,
      next.echo.known known, Option.map_some, if_pos (next.echo.holds.mpr holds), value,
      next.echo.instrument, next.echo.side, ← SpotLimit.currency]
    rfl
  have covered : order.remainder info 0 ≤
      ((engine.positionManager.lock order.currency (order.value info)).spot
        order.currency).frozen := by
    rw [PositionManager.frozen_lock, if_pos rfl, remainder_zero]
    linarith
  have nowLive : report.orderId ∈ ((engine.setPositions (engine.positionManager.lock
      order.currency (order.value info))).insertLive report.orderId
        report.instrument).liveOrderInstruments := Finmap.mem_insert.mpr (Or.inl rfl)
  obtain ⟨after, ran, moved, stays, leaves⟩ := finishUpdate_live clientOrderId known holds price
    next notNew next.filledNonneg (fun _ => rfl) nowLive untracked covered
  rw [positionManager_insertLive, positionManager_setPositions] at moved
  refine ⟨after, ?_, ⟨fun currency => ?_, fun currency => ?_, fun _ => stays, fun terminal _ =>
    leaves terminal, fun _ volume goesOn => ?_⟩⟩
  · rw [handleOrderUpdate_of_recovery needed, recovered]
    exact ran
  · rw [moved.reserved, PositionManager.reserved_lock, SpotLimit.outstanding, SpotLimit.reserves,
      if_pos holds]
    split
    · next same => rw [same, max_eq_right (sub_nonneg.mpr reserved)]
    · rw [sub_zero]
  · have released := moved.frozen currency
    rw [PositionManager.frozen_lock, remainder_zero] at released
    rw [held_next holds notNew next.exchanged, SpotLimit.held]
    split at released
    · next same =>
        rw [if_pos same]
        linarith
    · next other =>
        rw [if_neg other]
        linarith
  · obtain ⟨isPartial, rfl⟩ := next_live_partial notNew next.exchanged goesOn
    exact moved.tracker isPartial

/-! ## Orders without a lock -/

def SameAmounts (pm after : PositionManager) : Prop :=
  ∀ currency, after.reserved currency = pm.reserved currency ∧
    (after.spot currency).frozen = (pm.spot currency).frozen

theorem applyReport_margin {progress : Progress}
    (known : registry.get order.instrument = some info)
    (margin : ¬ HoldsLock order.side order.tradeMode)
    (next : NextReport info fresh order progress report) (pm : PositionManager) :
    ∃ after, applyReport registry pm report = some after ∧ SameAmounts pm after := by
  have echoed : ¬ HoldsLock report.side report.tradeMode :=
    fun holds => margin (next.echo.holds.mp holds)
  have fill : (report.status = .filled ∨ report.status = .partiallyFilled) →
      ∃ after, applyReport registry pm report = some after ∧ SameAmounts pm after := by
    intro fills
    obtain ⟨after, ran, effect⟩ := PositionManager.updateSpotOnFill_applied pm report.tradeMode
      (next.echo.known known) fills
    refine ⟨after, ?_, fun currency => ⟨effect.reserved currency, ?_⟩⟩
    · rw [applyReport_spotFill next.echo.marketType fills (next.echo.known known), ran]
    · rw [effect.frozen, if_neg (fun both => echoed both.1), sub_zero]
  cases statusCase : report.status with
  | filled => exact fill (Or.inl statusCase)
  | partiallyFilled => exact fill (Or.inr statusCase)
  | cancelFailed => exact absurd statusCase next.exchanged
  | rejected => exact absurd (next.noMarginRejection statusCase) margin
  | new =>
      rw [applyReport_spotNew registry next.echo.marketType statusCase,
        PositionManager.updateSpotOnNew_eq,
        next.echo.known known, Option.map_some, if_neg echoed]
      exact ⟨pm, rfl, fun _ => ⟨rfl, rfl⟩⟩
  | cancelled =>
      rw [applyReport_spotCancel next.echo.marketType statusCase (next.echo.known known),
        PositionManager.updateSpotOnCancel_eq _ _ _ _ statusCase, next.echo.known known,
        Option.map_some, if_neg echoed]
      split <;> exact ⟨_, rfl, fun _ => ⟨rfl, rfl⟩⟩

/-- A margin SELL moves neither reserved nor frozen amounts, on either path. -/
theorem effect_margin {progress : Progress} (known : registry.get order.instrument = some info)
    (margin : ¬ HoldsLock order.side order.tradeMode)
    (next : NextReport info fresh order progress report) :
    ∃ after, engine.handleOrderUpdate registry report clientOrderId = some after ∧
      OrderEffect info order progress report engine after := by
  have echoed : ¬ HoldsLock report.side report.tradeMode :=
    fun holds => margin (next.echo.holds.mp holds)
  have recovery : ∃ recovered, engine.recoverMissedNew registry report clientOrderId =
      some recovered ∧ recovered.positionManager = engine.positionManager := by
    rw [recoverMissedNew, recoverPositions, if_pos next.echo.marketType,
      PositionManager.updateSpotOnNew_eq, next.echo.known known, Option.map_some, if_neg echoed]
    split <;> exact ⟨_, rfl, rfl⟩
  obtain ⟨recovered, recovers, samePositions⟩ := recovery
  have finish : ∃ after, recovered.finishUpdate registry report clientOrderId = some after ∧
      SameAmounts engine.positionManager after.positionManager := by
    rw [← samePositions]
    by_cases duplicate : recovered.isDuplicateCancel report = true
    · rw [finishUpdate, if_pos duplicate]
      exact ⟨recovered, rfl, fun _ => ⟨rfl, rfl⟩⟩
    · obtain ⟨pm, applied, same⟩ := applyReport_margin known margin next
        recovered.positionManager
      obtain ⟨after, ran, effect⟩ := finishUpdate_effect clientOrderId
        (Bool.eq_false_iff.mpr duplicate) applied
      rw [← effect.positions] at same
      exact ⟨after, ran, same⟩
  obtain ⟨after, ran, same⟩ := finish
  have nothingHeld : ∀ stage, order.held info stage = 0 := by
    intro stage
    cases stage <;> simp [SpotLimit.held, margin]
  have nothingReserved : order.outstanding info progress = 0 := by
    cases progress <;> simp [SpotLimit.outstanding, SpotLimit.reserves, margin]
  refine ⟨after, ?_, ⟨fun currency => ?_, fun currency => ?_, fun holds => absurd holds margin,
    fun _ holds => absurd holds margin, fun holds => absurd holds margin⟩⟩
  · rw [handleOrderUpdate_eq, recovers, Option.bind_some, ran]
  · rw [(same currency).1, nothingReserved, ite_self, sub_zero]
  · rw [(same currency).2, nothingHeld, nothingHeld, sub_zero, ite_self, sub_zero]

/-! ## Any report of any order -/

def StageKnown (info : InstrumentInfo) (order : SpotLimit) (engine : TradingEngine)
    (clientOrderId : String) (report : ExecutionReport) : Progress → Prop
  | .silent => clientOrderId ∈ engine.clientOrderIdToReservation ∧
      report.orderId ∉ engine.liveOrderInstruments ∧
      (report.status ≠ .rejected →
        engine.positionManager.spotOrderFillTracker.getD report.orderId 0 = 0) ∧
      order.value info ≤ engine.positionManager.reserved order.currency ∧
      0 ≤ (engine.positionManager.spot order.currency).frozen
  | .live orderId filled => orderId ∈ engine.liveOrderInstruments ∧
      engine.positionManager.spotOrderFillTracker.getD orderId 0 = filled ∧
      order.remainder info filled ≤ (engine.positionManager.spot order.currency).frozen
  | .ended _ => True

theorem handleOrderUpdate_effect {progress : Progress}
    (known : registry.get order.instrument = some info) (price : 0 < order.price)
    (next : NextReport info fresh order progress report) (named : clientOrderId ≠ "")
    (stage : HoldsLock order.side order.tradeMode →
      StageKnown info order engine clientOrderId report progress) :
    ∃ after, engine.handleOrderUpdate registry report clientOrderId = some after ∧
      OrderEffect info order progress report engine after := by
  by_cases holds : HoldsLock order.side order.tradeMode
  · cases progress with
    | silent =>
        obtain ⟨recorded, unknown, untracked, reserved, frozen⟩ := stage holds
        by_cases isNew : report.status = .new
        · exact effect_new known holds next isNew (untracked (by rw [isNew]; decide)) reserved
        · exact effect_missedNew known holds price next isNew named recorded unknown untracked
            reserved frozen
    | live orderId filled =>
        obtain ⟨live, tracked, covered⟩ := stage holds
        exact effect_live known holds price next live tracked covered
    | ended orderId => exact next.stage.elim
  · exact effect_margin known holds next

end Stages

end CryptoTrading
