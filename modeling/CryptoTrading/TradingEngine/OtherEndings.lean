import CryptoTrading.Clients.OkxOrder
import CryptoTrading.Lib.Histories
import CryptoTrading.TradingEngine.OrderHistory
import CryptoTrading.TradingEngine.OrderStep
import CryptoTrading.TradingEngine.Restart

/-! # Orders that end under another name

A state string outside the four known ones decodes to REJECTED, and REJECTED is
handled as the refusal of a whole order that was never placed: it releases the
total volume rather than what is left of it, from frozen or from reserved by the
currency's frozen total, and keeps the order's tracker entry. -/
set_option autoImplicit false

namespace CryptoTrading

open TradingEngine

/-- Any state the parser does not know is a rejection. -/
theorem okxParseOrderState_other {state : String}
    (other : state ∉ ["live", "partially_filled", "filled", "canceled"]) :
    okxParseOrderState state = .rejected := by
  simp only [List.mem_cons, List.not_mem_nil, or_false, not_or] at other
  obtain ⟨notLive, notPartial, notFilled, notCanceled⟩ := other
  rw [okxParseOrderState, if_neg notFilled, if_neg notPartial, if_neg notCanceled, if_neg notLive]

/-! ## The tracker entry of an order -/

/-- Whether an order has a tracker entry after a spot report of it. -/
def tracksAfter (status : OrderStatus) (tracked : Prop) : Prop :=
  match status with
  | .partiallyFilled => True
  | .filled => False
  | .cancelled => False
  | .new => tracked
  | .rejected => tracked
  | .cancelFailed => tracked

section Tracker
variable {registry : InstrumentRegistry} {report : ExecutionReport} {pm moved : PositionManager}

theorem spotTracker_spotFill (fills : report.status = .filled ∨ report.status = .partiallyFilled)
    (ran : pm.updateSpotOnFill registry report report.tradeMode = some moved) :
    moved.spotOrderFillTracker = (pm.trackSpotFill report).spotOrderFillTracker := by
  rw [PositionManager.updateSpotOnFill_eq _ _ _ _ fills] at ran
  split at ran
  · rw [← Option.some.inj ran]
  · obtain ⟨info, -, rfl⟩ := Option.map_eq_some_iff.mp ran
    exact PositionManager.spotOrderFillTracker_applySpotFill ..

theorem spotTracker_spotCancel (cancels : report.status = .cancelled)
    (ran : pm.updateSpotOnCancel registry report report.tradeMode = some moved) :
    moved.spotOrderFillTracker = pm.spotOrderFillTracker.erase report.orderId := by
  rw [PositionManager.updateSpotOnCancel_eq _ _ _ _ cancels] at ran
  split at ran
  · obtain ⟨info, -, rfl⟩ := Option.map_eq_some_iff.mp ran
    split <;> rfl
  · rw [← Option.some.inj ran]
    rfl

theorem mem_tracker_applyReport (ran : applyReport registry pm report = some moved)
    (orderId : String) : orderId ∈ moved.spotOrderFillTracker ↔
      if report.marketType = .spot ∧ orderId = report.orderId then
        tracksAfter report.status (orderId ∈ pm.spotOrderFillTracker)
      else orderId ∈ pm.spotOrderFillTracker := by
  cases market : report.marketType with
  | spot =>
      have applied := applyReport_spot market ran
      cases statusCase : report.status with
      | new =>
          rw [statusCase] at applied
          rw [(PositionManager.updateSpotOnNew_sameFills applied).spotTracker, tracksAfter,
            ite_self]
      | rejected =>
          rw [statusCase] at applied
          rw [(PositionManager.updateSpotOnRejected_sameFills applied).spotTracker, tracksAfter,
            ite_self]
      | cancelFailed =>
          rw [statusCase] at applied
          rw [applied, tracksAfter, ite_self]
      | filled =>
          rw [statusCase] at applied
          rw [spotTracker_spotFill (Or.inl statusCase) applied, PositionManager.trackSpotFill,
            if_pos statusCase]
          by_cases same : orderId = report.orderId <;> simp [same, tracksAfter]
      | partiallyFilled =>
          rw [statusCase] at applied
          rw [spotTracker_spotFill (Or.inr statusCase) applied, PositionManager.trackSpotFill,
            if_neg (by simp [statusCase])]
          by_cases same : orderId = report.orderId <;> simp [same, tracksAfter]
      | cancelled =>
          rw [statusCase] at applied
          rw [spotTracker_spotCancel statusCase applied]
          by_cases same : orderId = report.orderId <;> simp [same, tracksAfter]
  | swap =>
      simp only [reduceCtorEq, false_and, if_false]
      by_cases fills : report.status = .filled ∨ report.status = .partiallyFilled
      · have applied : pm.updateSwapOnFill registry report = some moved := by
          rw [applyReport] at ran
          rcases fills with isFill | isFill <;>
          · simp only [isFill, market, if_true, Option.bind_eq_bind, Option.bind_eq_some_iff] at ran
            obtain ⟨filled, applied, -, -, same⟩ := ran
            exact applied.trans same
        rw [(PositionManager.updateSwapOnFill_frame registry pm moved report applied).2.2.1]
      · rw [applyReport] at ran
        cases statusCase : report.status with
        | filled => exact absurd (Or.inl statusCase) fills
        | partiallyFilled => exact absurd (Or.inr statusCase) fills
        | new | cancelled | rejected | cancelFailed =>
            simp only [statusCase, market, ne_eq, not_true_eq_false, if_true, if_false,
              Option.some.injEq] at ran
            subst ran
            exact Iff.rfl

theorem tracker_recoverMissedNew {engine recovered : TradingEngine} {clientOrderId : String}
    (ran : engine.recoverMissedNew registry report clientOrderId = some recovered) :
    recovered.positionManager.spotOrderFillTracker =
      engine.positionManager.spotOrderFillTracker := by
  rw [recoverMissedNew] at ran
  split at ran
  · obtain ⟨locked, stepped, rfl⟩ := Option.map_eq_some_iff.mp ran
    rw [positionManager_insertLive]
    rw [recoverPositions] at stepped
    split at stepped
    · obtain ⟨pm, applied, rfl⟩ := Option.map_eq_some_iff.mp stepped
      exact (PositionManager.updateSpotOnNew_sameFills applied).spotTracker
    · rw [← Option.some.inj stepped]
  · rw [← Option.some.inj ran]

theorem mem_tracker_handleOrderUpdate {engine after : TradingEngine} {clientOrderId : String}
    (ran : engine.handleOrderUpdate registry report clientOrderId = some after) (orderId : String)
    (keeps : orderId = report.orderId → report.status ≠ .cancelled) :
    orderId ∈ after.positionManager.spotOrderFillTracker ↔
      if report.marketType = .spot ∧ orderId = report.orderId then
        tracksAfter report.status (orderId ∈ engine.positionManager.spotOrderFillTracker)
      else orderId ∈ engine.positionManager.spotOrderFillTracker := by
  rw [handleOrderUpdate_eq] at ran
  obtain ⟨recovered, recovery, finished⟩ := Option.bind_eq_some_iff.mp ran
  rw [← tracker_recoverMissedNew recovery]
  rw [finishUpdate] at finished
  split at finished
  · next duplicate =>
      have other : orderId ≠ report.orderId := by
        intro same
        have isCancel : report.status = .cancelled := by
          simp only [isDuplicateCancel, decide_eq_true_eq] at duplicate
          exact duplicate.1
        exact keeps same isCancel
      rw [← Option.some.inj finished]
      simp [other]
  · obtain ⟨pm, applied, rfl⟩ := Option.map_eq_some_iff.mp finished
    rw [positionManager_pushReport, positionManager_setPositions]
    exact mem_tracker_applyReport applied orderId

end Tracker

/-! ## Up to the last report -/

def handleUpdates (registry : InstrumentRegistry) :
    TradingEngine → List PendingOrderInfo → Option TradingEngine :=
  Runs.run fun engine update =>
    engine.handleOrderUpdate registry update.report update.clientOrderId

def reportsOn (orderId : String) (updates : List PendingOrderInfo) : List ExecutionReport :=
  (Histories.history (fun update => update.report.orderId) orderId updates).map
    PendingOrderInfo.report

theorem reportsOn_append_own {orderId : String} (front : List PendingOrderInfo)
    {update : PendingOrderInfo} (own : update.report.orderId = orderId) :
    reportsOn orderId (front ++ [update]) = reportsOn orderId front ++ [update.report] := by
  subst own
  rw [reportsOn, Histories.history_append_self, List.map_append]
  rfl

theorem reportsOn_append_other {orderId : String} (front : List PendingOrderInfo)
    {update : PendingOrderInfo} (other : update.report.orderId ≠ orderId) :
    reportsOn orderId (front ++ [update]) = reportsOn orderId front := by
  rw [reportsOn, Histories.history_append_other front other]
  rfl

/-- NEW first, and nothing after it that ends the order. -/
structure StillOpen (reports : List ExecutionReport) : Prop where
  head : ∀ first ∈ reports.head?, first.status = .new
  spot : ∀ report ∈ reports, report.marketType = .spot
  status : ∀ report ∈ reports, report.status = .new ∨ report.status = .partiallyFilled

theorem StillOpen.front {reports : List ExecutionReport} {last : ExecutionReport}
    (still : StillOpen (reports ++ [last])) : StillOpen reports := by
  refine ⟨fun first isHead => still.head first ?_, fun report member => ?_,
    fun report member => ?_⟩
  · cases reports with
    | nil => cases isHead
    | cons head rest => exact isHead
  · exact still.spot report (List.mem_append_left _ member)
  · exact still.status report (List.mem_append_left _ member)

/-- NEW, then PARTIALLY_FILLED reports of non-decreasing volume. -/
structure PartlyFilled (order : SpotOrder) (fills reports : List ExecutionReport) : Prop where
  begins : ∃ first : ExecutionReport,
    first.status = .new ∧ ReportOf order first ∧ reports = first :: fills
  volumes : FillsFrom order 0 fills
  partly : ∀ report ∈ fills, report.status = .partiallyFilled

theorem FillsFrom.echo {order : SpotOrder} {fills : List ExecutionReport} :
    ∀ {seen : Int}, FillsFrom order seen fills → ∀ report ∈ fills, ReportOf order report := by
  induction fills with
  | nil =>
      intro seen _ report member
      cases member
  | cons first rest ih =>
      intro seen volumes report member
      rcases List.mem_cons.mp member with rfl | later
      · exact volumes.1
      · exact ih volumes.2.2.2 report later

theorem PartlyFilled.stillOpen {order : SpotOrder} {fills reports : List ExecutionReport}
    (partly : PartlyFilled order fills reports) : StillOpen reports := by
  obtain ⟨first, isNew, echo, rfl⟩ := partly.begins
  refine ⟨fun head isHead => ?_, fun report member => ?_, fun report member => ?_⟩
  · cases Option.some.inj isHead
    exact isNew
  · rcases List.mem_cons.mp member with rfl | later
    · exact echo.marketType
    · exact (partly.volumes.echo report later).marketType
  · rcases List.mem_cons.mp member with rfl | later
    · exact Or.inl isNew
    · exact Or.inr (partly.partly report later)

/-- What has been reported of an order decides whether it is live and tracked. -/
structure Standing (orderId : String) (reports : List ExecutionReport) (engine : TradingEngine) :
    Prop where
  live : reports ≠ [] → orderId ∈ engine.liveOrderInstruments
  tracked : orderId ∈ engine.positionManager.spotOrderFillTracker ↔
    ∃ report ∈ reports, report.status = .partiallyFilled

section Reach
variable {registry : InstrumentRegistry} {engine after : TradingEngine} {orderId : String}
  {reports : List ExecutionReport} {update : PendingOrderInfo}

theorem Standing.own (standing : Standing update.report.orderId reports engine)
    (still : StillOpen (reports ++ [update.report]))
    (ran : engine.handleOrderUpdate registry update.report update.clientOrderId = some after) :
    Standing update.report.orderId (reports ++ [update.report]) after := by
  have member : update.report ∈ reports ++ [update.report] := by simp
  have spot := still.spot _ member
  have status := still.status _ member
  have notCancelled : update.report.status ≠ .cancelled := by
    rcases status with isNew | partly
    · simp [isNew]
    · simp [partly]
  have idle : engine.needsRecovery update.report update.clientOrderId = false := by
    cases reports with
    | nil => exact noRecovery_of_new (still.head _ rfl) _
    | cons first rest => exact noRecovery_of_live (standing.live (List.cons_ne_nil _ _)) _
  have tracker := mem_tracker_handleOrderUpdate ran update.report.orderId fun _ => notCancelled
  refine ⟨fun _ => ?_, ?_⟩
  · rw [handleOrderUpdate_of_noRecovery idle, finishUpdate] at ran
    split at ran
    · next duplicate => simp [isDuplicateCancel, notCancelled] at duplicate
    · obtain ⟨pm, -, rfl⟩ := Option.map_eq_some_iff.mp ran
      rw [live_pushReport, live_setPositions, live_eraseReservation, mem_updateLiveOrders]
      rcases status with isNew | partly
      · exact Or.inr ⟨rfl, Or.inl isNew⟩
      · cases reports with
        | nil =>
            have isNew : update.report.status = .new := still.head _ rfl
            exact Or.inr ⟨rfl, Or.inl isNew⟩
        | cons first rest =>
            refine Or.inr ⟨rfl, Or.inr ⟨?_, standing.live (List.cons_ne_nil _ _)⟩⟩
            rw [partly]
            rfl
  · rw [tracker, if_pos ⟨spot, rfl⟩]
    rcases status with isNew | partly
    · rw [isNew, tracksAfter, standing.tracked]
      simp [or_and_right, exists_or, isNew]
    · simp [partly, tracksAfter, or_and_right, exists_or]

theorem Standing.other (standing : Standing orderId reports engine)
    (different : orderId ≠ update.report.orderId)
    (ran : engine.handleOrderUpdate registry update.report update.clientOrderId = some after) :
    Standing orderId reports after := by
  have tracker := mem_tracker_handleOrderUpdate ran orderId fun same => absurd same different
  refine ⟨fun reported => ?_, ?_⟩
  · rw [(frame_handleOrderUpdate ran).live orderId different]
    exact standing.live reported
  · rw [tracker, if_neg fun own => different own.2]
    exact standing.tracked

theorem standing_handleUpdates {start : TradingEngine}
    (untracked : orderId ∉ start.positionManager.spotOrderFillTracker)
    (updates : List PendingOrderInfo) : ∀ {engine : TradingEngine},
      handleUpdates registry start updates = some engine →
      StillOpen (reportsOn orderId updates) →
        Standing orderId (reportsOn orderId updates) engine := by
  induction updates using List.reverseRecOn with
  | nil =>
      intro engine ran _
      cases Option.some.inj ran
      exact ⟨fun reported => absurd rfl reported, by simp [untracked, reportsOn, Histories.history]⟩
  | append_singleton front update ih =>
      intro engine ran still
      rw [handleUpdates, Runs.run_append_singleton] at ran
      obtain ⟨middle, reached, stepped⟩ := Option.bind_eq_some_iff.mp ran
      by_cases own : update.report.orderId = orderId
      · rw [reportsOn_append_own front own] at still ⊢
        have standing := ih reached still.front
        subst own
        exact standing.own still stepped
      · rw [reportsOn_append_other front own] at still ⊢
        exact (ih reached still).other (Ne.symm own) stepped

end Reach

/-! ## The last report -/

/-- What is left of the order goes from frozen to available, and nothing else
happens but that the order is forgotten. -/
structure EndsExactly (info : InstrumentInfo) (order : SpotOrder) (filled : Int)
    (before after : PositionManager) : Prop where
  available : ∀ currency, (after.spot currency).available = (before.spot currency).available +
    if currency = lockedCurrencyOf order.instrument order.side then
      lockValue info order.side order.price (order.totalVolume - filled)
    else 0
  frozen : ∀ currency, (after.spot currency).frozen = (before.spot currency).frozen -
    if currency = lockedCurrencyOf order.instrument order.side then
      lockValue info order.side order.price (order.totalVolume - filled)
    else 0
  reserved : ∀ currency, after.reserved currency = before.reserved currency
  untracked : order.orderId ∉ after.spotOrderFillTracker

section Rejected
variable {registry : InstrumentRegistry} {info : InstrumentInfo} {order : SpotOrder}
  {report : ExecutionReport}

theorem handleOrderUpdate_liveRejected (known : registry.get order.instrument = some info)
    (locks : HoldsLock order.side order.tradeMode) (echo : ReportOf order report)
    (rejects : report.status = .rejected) {engine : TradingEngine} (clientOrderId : String)
    (live : order.orderId ∈ engine.liveOrderInstruments) :
    ∃ after, engine.handleOrderUpdate registry report clientOrderId = some after ∧
      after.positionManager = engine.positionManager.releaseRejected
        (lockedCurrencyOf order.instrument order.side)
        (lockValue info order.side order.price order.totalVolume) := by
  have liveHere : report.orderId ∈ engine.liveOrderInstruments := by
    rw [echo.orderId]
    exact live
  have applied : applyReport registry engine.positionManager report =
      some (engine.positionManager.releaseRejected (lockedCurrencyOf order.instrument order.side)
        (lockValue info order.side order.price order.totalVolume)) := by
    rw [applyReport_spotRejected echo.marketType rejects, PositionManager.updateSpotOnRejected_eq,
      echo.instrument, known, echo.side, echo.tradeMode, echo.price, echo.totalVolume,
      Option.map_some, if_pos locks]
  obtain ⟨after, ran, effect⟩ := handleOrderUpdate_live clientOrderId liveHere applied
  exact ⟨after, ran, effect.positions⟩

/-- Releasing the whole order is what an order without fills calls for, when it
is released from frozen or was for nothing. -/
theorem releaseRejected_exact_iff (pm : PositionManager) :
    EndsExactly info order 0 pm (pm.releaseRejected (lockedCurrencyOf order.instrument order.side)
        (lockValue info order.side order.price order.totalVolume)) ↔
      order.orderId ∉ pm.spotOrderFillTracker ∧
        (pm.FrozenCovers (lockedCurrencyOf order.instrument order.side)
            (lockValue info order.side order.price order.totalVolume) ∨
          lockValue info order.side order.price order.totalVolume = 0 ∧
            0 ≤ pm.reserved (lockedCurrencyOf order.instrument order.side)) := by
  generalize currencyIs : lockedCurrencyOf order.instrument order.side = currency
  generalize amountIs : lockValue info order.side order.price order.totalVolume = amount
  have tracker : (pm.releaseRejected currency amount).spotOrderFillTracker =
      pm.spotOrderFillTracker := PositionManager.releaseRejected_frame.1
  by_cases covers : pm.FrozenCovers currency amount
  · constructor
    · intro ends
      rw [← tracker]
      exact ⟨ends.untracked, Or.inl covers⟩
    · rintro ⟨untracked, -⟩
      have released := PositionManager.releaseRejected_frozen covers
      refine ⟨fun other => ?_, fun other => ?_, fun other => (released other).2.2, ?_⟩
      · rw [(released other).1, currencyIs, sub_zero, amountIs]
      · rw [(released other).2.1, currencyIs, sub_zero, amountIs]
      · rw [tracker]
        exact untracked
  · have released := PositionManager.releaseRejected_reserved covers
    constructor
    · intro ends
      have moved := ends.available currency
      rw [(released currency).1, currencyIs, if_pos rfl, sub_zero, amountIs] at moved
      have nothing : amount = 0 := by linarith
      have kept := ends.reserved currency
      rw [(released currency).2, if_pos rfl, nothing, sub_zero] at kept
      rw [← tracker]
      exact ⟨ends.untracked, Or.inr ⟨nothing, max_eq_right_iff.mp kept⟩⟩
    · rintro ⟨untracked, holds | ⟨nothing, nonneg⟩⟩
      · exact absurd holds covers
      · refine ⟨fun other => ?_, fun other => ?_, fun other => ?_, ?_⟩
        · rw [(released other).1, sub_zero, amountIs, nothing, ite_self, add_zero]
        · rw [(released other).1, sub_zero, amountIs, nothing, ite_self, sub_zero]
        · rw [(released other).2]
          split
          · next same => rw [nothing, sub_zero, same, max_eq_right nonneg]
          · rfl
        · rw [tracker]
          exact untracked

end Rejected

/-- An order that ends in an unknown state after NEW and partial fills: its
remainder is released as it should be exactly when nothing of it was filled and
the currency's frozen total covers it. -/
theorem otherEnding_exact_iff {registry : InstrumentRegistry} {info : InstrumentInfo}
    {order : SpotOrder} {start before : TradingEngine} {updates : List PendingOrderInfo}
    {fills : List ExecutionReport} {data : OrderRecord} {last : ExecutionReport}
    {clientOrderId : String}
    (known : registry.get order.instrument = some info)
    (locks : HoldsLock order.side order.tradeMode)
    (untracked : order.orderId ∉ start.positionManager.spotOrderFillTracker)
    (ran : handleUpdates registry start updates = some before)
    (partly : PartlyFilled order fills (reportsOn order.orderId updates))
    (decoded : decodeOrderUpdate registry data = some (last, clientOrderId))
    (other : data.state ∉ ["live", "partially_filled", "filled", "canceled"])
    (echo : ReportOf order last) (filled : last.filledVolume = finalVolume 0 fills) :
    (∃ after, before.handleOrderUpdate registry last clientOrderId = some after ∧
        EndsExactly info order last.filledVolume before.positionManager after.positionManager) ↔
      fills = [] ∧
        (before.positionManager.FrozenCovers (lockedCurrencyOf order.instrument order.side)
            (lockValue info order.side order.price order.totalVolume) ∨
          lockValue info order.side order.price order.totalVolume = 0 ∧
            0 ≤ before.positionManager.reserved
              (lockedCurrencyOf order.instrument order.side)) := by
  have rejects : last.status = .rejected := by
    rw [decodeOrderUpdate] at decoded
    split at decoded
    · cases decoded
    · cases Option.some.inj decoded
      exact okxParseOrderState_other other
  have standing := standing_handleUpdates untracked updates ran partly.stillOpen
  obtain ⟨first, isNew, -, reports⟩ := partly.begins
  have live : order.orderId ∈ before.liveOrderInstruments := by
    apply standing.live
    rw [reports]
    exact List.cons_ne_nil _ _
  have tracked : order.orderId ∈ before.positionManager.spotOrderFillTracker ↔ fills ≠ [] := by
    rw [standing.tracked, reports]
    constructor
    · rintro ⟨report, member, isPartial⟩ none
      rw [none, List.mem_singleton] at member
      rw [member, isNew] at isPartial
      cases isPartial
    · intro some
      obtain ⟨report, member⟩ := List.exists_mem_of_ne_nil fills some
      exact ⟨report, List.mem_cons_of_mem _ member, partly.partly report member⟩
  obtain ⟨after, handled, positions⟩ :=
    handleOrderUpdate_liveRejected known locks echo rejects clientOrderId live
  have only : (∃ after, before.handleOrderUpdate registry last clientOrderId = some after ∧
        EndsExactly info order last.filledVolume before.positionManager after.positionManager) ↔
      EndsExactly info order last.filledVolume before.positionManager
        after.positionManager := by
    rw [handled]
    simp
  rw [only, positions]
  by_cases none : fills = []
  · rw [filled, none, finalVolume, releaseRejected_exact_iff, tracked]
    simp [none]
  · simp only [none, false_and, iff_false]
    intro ends
    refine ends.untracked ?_
    rw [PositionManager.releaseRejected_frame.1, tracked]
    exact none

/-! ## A BUY ended by market maker protection -/

def protectedBuy : SpotOrder :=
  { orderId := "7", clientOrderId := "cts7", instrument := "BTC-USDT", side := .buy,
    tradeMode := .cash, price := 100, totalVolume := 2 }

def protectedUpdate (status : OrderStatus) (filled : Int) : PendingOrderInfo :=
  { report := protectedBuy.report status filled 100, clientOrderId := "cts7" }

def protectedEnd (filled : ℚ) : OrderRecord :=
  { instId := "BTC-USDT", ordId := "7", state := "mmp_canceled", side := "buy", posSide := "",
    feeCcy := "", tdMode := "cash", clOrdId := "cts7", px := some 100, accFillSz := some filled,
    sz := some 2, avgPx := some 100, fillFee := none }

def protectedLast (filled : Int) : ExecutionReport :=
  protectedBuy.report .rejected filled 100

theorem protected_partlyFilled :
    PartlyFilled protectedBuy [protectedBuy.report .partiallyFilled 1 100]
      (reportsOn "7" [protectedUpdate .new 0, protectedUpdate .partiallyFilled 1]) := by
  refine ⟨⟨protectedBuy.report .new 0 100, rfl, protectedBuy.report_echoes .new 0 100,
    by decide +kernel⟩, ⟨protectedBuy.report_echoes .partiallyFilled 1 100, by decide,
    Or.inl rfl, trivial⟩, ?_⟩
  intro report member
  rw [List.mem_singleton.mp member]
  rfl

theorem protected_unfilled :
    PartlyFilled protectedBuy [] (reportsOn "7" [protectedUpdate .new 0]) :=
  ⟨⟨protectedBuy.report .new 0 100, rfl, protectedBuy.report_echoes .new 0 100,
    by decide +kernel⟩, trivial, by simp⟩

/-- Ended before its first fill, it gets its 200 USDT back. -/
theorem otherEnding_exact_iff_unfilled : ∃ before after,
    handleUpdates btcUsdtRegistry {} [protectedUpdate .new 0] = some before ∧
      before.handleOrderUpdate btcUsdtRegistry (protectedLast 0) "cts7" = some after ∧
      EndsExactly btcUsdt protectedBuy 0 before.positionManager after.positionManager := by
  obtain ⟨before, ran, frozen⟩ : ∃ before,
      handleUpdates btcUsdtRegistry {} [protectedUpdate .new 0] = some before ∧
        (before.positionManager.spot "USDT").frozen = 200 := by
    have done : (handleUpdates btcUsdtRegistry {} [protectedUpdate .new 0]).map
        (fun before => (before.positionManager.spot "USDT").frozen) = some 200 := by
      decide +kernel
    exact Option.map_eq_some_iff.mp done
  have currency : lockedCurrencyOf protectedBuy.instrument protectedBuy.side = "USDT" := by
    decide +kernel
  have covers : before.positionManager.FrozenCovers "USDT"
      (lockValue btcUsdt protectedBuy.side protectedBuy.price protectedBuy.totalVolume) := by
    rw [PositionManager.FrozenCovers, frozen]
    decide +kernel
  have decoded : decodeOrderUpdate btcUsdtRegistry (protectedEnd 0) =
      some (protectedLast 0, "cts7") := by decide +kernel
  obtain ⟨after, handled, ends⟩ :=
    (@otherEnding_exact_iff btcUsdtRegistry btcUsdt protectedBuy {} before _ []
      (protectedEnd 0) (protectedLast 0) "cts7" (by decide) (Or.inl rfl) (by decide) ran
      protected_unfilled decoded (by decide) (protectedBuy.report_echoes .rejected 0 100)
      rfl).mpr ⟨rfl, Or.inl (by rw [currency]; exact covers)⟩
  exact ⟨before, after, ran, handled, ends⟩

/-- Ended after one of its two units was filled, it keeps 100 USDT frozen. -/
theorem otherEnding_keeps_frozen :
    ¬ ∀ (registry : InstrumentRegistry) (info : InstrumentInfo) (order : SpotOrder)
        (start before : TradingEngine) (updates : List PendingOrderInfo)
        (fills : List ExecutionReport) (data : OrderRecord) (last : ExecutionReport)
        (clientOrderId : String),
      registry.get order.instrument = some info → HoldsLock order.side order.tradeMode →
      order.orderId ∉ start.positionManager.spotOrderFillTracker →
      handleUpdates registry start updates = some before →
      PartlyFilled order fills (reportsOn order.orderId updates) →
      decodeOrderUpdate registry data = some (last, clientOrderId) →
      data.state ∉ ["live", "partially_filled", "filled", "canceled"] →
      ReportOf order last → last.filledVolume = finalVolume 0 fills →
      ∃ after, before.handleOrderUpdate registry last clientOrderId = some after ∧
        EndsExactly info order last.filledVolume before.positionManager
          after.positionManager := by
  intro claim
  have done : ((handleUpdates btcUsdtRegistry {}
      [protectedUpdate .new 0, protectedUpdate .partiallyFilled 1]).bind fun before =>
        (before.handleOrderUpdate btcUsdtRegistry (protectedLast 1) "cts7").map fun after =>
          ((before.positionManager.spot "USDT").frozen,
            (after.positionManager.spot "USDT").frozen)) = some (100, 100) := by
    decide +kernel
  obtain ⟨before, ran, rest⟩ := Option.bind_eq_some_iff.mp done
  obtain ⟨after, handled, amounts⟩ := Option.map_eq_some_iff.mp rest
  obtain ⟨same, sameHandled, ends⟩ := claim btcUsdtRegistry btcUsdt protectedBuy {} before _ _
    (protectedEnd 1) (protectedLast 1) "cts7" (by decide) (Or.inl rfl) (by decide) ran
    protected_partlyFilled (by decide +kernel) (by decide)
    (protectedBuy.report_echoes .rejected 1 100) rfl
  cases Option.some.inj (sameHandled.symm.trans handled)
  have moved := ends.frozen "USDT"
  obtain ⟨frozenBefore, frozenAfter⟩ := Prod.mk.inj amounts
  rw [frozenBefore, frozenAfter] at moved
  exact absurd moved (by decide +kernel)

end CryptoTrading
