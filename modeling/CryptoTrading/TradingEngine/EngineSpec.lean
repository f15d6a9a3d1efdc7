import CryptoTrading.TradingEngine.Engine
import CryptoTrading.TradingEngine.PositionSpec

/-! # What `HandleOrderUpdate` does to each part of the engine

The update is a recovery step followed by `finishUpdate`.  The position manager
and the live table move together and depend on nothing else; the reservation
table and the report ring follow from the report alone. -/
set_option autoImplicit false

namespace CryptoTrading

namespace TradingEngine

/-! ## Frames of the parts -/

section Frames
variable (engine : TradingEngine) (report : ExecutionReport) (clientOrderId : String)

@[simp] theorem positionManager_setPositions (pm : PositionManager) :
    (engine.setPositions pm).positionManager = pm := rfl

@[simp] theorem live_setPositions (pm : PositionManager) :
    (engine.setPositions pm).liveOrderInstruments = engine.liveOrderInstruments := rfl

@[simp] theorem reservations_setPositions (pm : PositionManager) :
    (engine.setPositions pm).clientOrderIdToReservation = engine.clientOrderIdToReservation := rfl

@[simp] theorem positionManager_pushReport :
    (engine.pushReport report).positionManager = engine.positionManager := by
  rw [pushReport]; split <;> rfl

@[simp] theorem live_pushReport :
    (engine.pushReport report).liveOrderInstruments = engine.liveOrderInstruments := by
  rw [pushReport]; split <;> rfl

@[simp] theorem reservations_pushReport :
    (engine.pushReport report).clientOrderIdToReservation =
      engine.clientOrderIdToReservation := by
  rw [pushReport]; split <;> rfl

@[simp] theorem positionManager_eraseReservation :
    (engine.eraseReservation report clientOrderId).positionManager = engine.positionManager := by
  rw [eraseReservation]; split <;> rfl

@[simp] theorem live_eraseReservation :
    (engine.eraseReservation report clientOrderId).liveOrderInstruments =
      engine.liveOrderInstruments := by
  rw [eraseReservation]; split <;> rfl

@[simp] theorem positionManager_updateLiveOrders :
    (engine.updateLiveOrders report).positionManager = engine.positionManager := by
  rw [updateLiveOrders]; split <;> rfl

@[simp] theorem reservations_updateLiveOrders :
    (engine.updateLiveOrders report).clientOrderIdToReservation =
      engine.clientOrderIdToReservation := by
  rw [updateLiveOrders]; split <;> rfl

@[simp] theorem positionManager_insertLive (orderId instrument : String) :
    (engine.insertLive orderId instrument).positionManager = engine.positionManager := rfl

@[simp] theorem reservations_insertLive (orderId instrument : String) :
    (engine.insertLive orderId instrument).clientOrderIdToReservation =
      engine.clientOrderIdToReservation := rfl

end Frames

/-! ## The live table -/

def isTerminal : OrderStatus → Bool
  | .filled => true
  | .cancelled => true
  | .rejected => true
  | .new => false
  | .partiallyFilled => false
  | .cancelFailed => false

theorem mem_updateLiveOrders (engine : TradingEngine) (report : ExecutionReport)
    (orderId : String) :
    orderId ∈ (engine.updateLiveOrders report).liveOrderInstruments ↔
      (orderId ≠ report.orderId ∧ orderId ∈ engine.liveOrderInstruments) ∨
        orderId = report.orderId ∧ (report.status = .new ∨
          isTerminal report.status = false ∧ orderId ∈ engine.liveOrderInstruments) := by
  by_cases same : orderId = report.orderId
  · subst same
    cases statusCase : report.status <;>
      simp [updateLiveOrders, statusCase, isTerminal, insertLive, eraseLive,
        Finmap.mem_erase, Finmap.mem_insert]
  · cases statusCase : report.status <;>
      simp [updateLiveOrders, statusCase, same, insertLive, eraseLive,
        Finmap.mem_erase, Finmap.mem_insert]

theorem mem_eraseReservation (engine : TradingEngine) (report : ExecutionReport)
    (clientOrderId other : String) :
    other ∈ (engine.eraseReservation report clientOrderId).clientOrderIdToReservation ↔
      other ∈ engine.clientOrderIdToReservation ∧
        ¬ (clientOrderId ≠ "" ∧ endsReservation report.status ∧ other = clientOrderId) := by
  rw [eraseReservation]
  split
  · next ends =>
      simp only [Finmap.mem_erase, ne_eq]
      constructor
      · rintro ⟨different, present⟩
        exact ⟨present, fun absurdity => different absurdity.2.2⟩
      · rintro ⟨present, keeps⟩
        exact ⟨fun same => keeps ⟨ends.1, ends.2, same⟩, present⟩
  · next keeps =>
      constructor
      · intro present
        exact ⟨present, fun erased => keeps ⟨erased.1, erased.2.1⟩⟩
      · exact And.left

/-! ## The position manager call of a spot report -/

section Apply
variable {registry : InstrumentRegistry} {report : ExecutionReport}

/-- The dereference in the NEW log line never fails after `Get` succeeded. -/
theorem applyReport_spotNew (registry : InstrumentRegistry) (spot : report.marketType = .spot)
    (isNew : report.status = .new)
    (pm : PositionManager) :
    applyReport registry pm report = pm.updateSpotOnNew registry report report.tradeMode := by
  rw [applyReport, isNew]
  simp only [spot, ne_eq, reduceCtorEq, not_false_eq_true, if_true,
    PositionManager.updateSpotOnNew_eq]
  cases found : registry.get report.instrument with
  | none => rfl
  | some info =>
      have derefs : registry.find report.instrument = some info := found
      rw [derefs]
      rfl

theorem applyReport_spotFill {info : InstrumentInfo} (spot : report.marketType = .spot)
    (fills : report.status = .filled ∨ report.status = .partiallyFilled)
    (known : registry.get report.instrument = some info) (pm : PositionManager) :
    applyReport registry pm report = pm.updateSpotOnFill registry report report.tradeMode := by
  have derefs : registry.find report.instrument = some info := known
  have notSwap : ¬ report.marketType = .swap := by
    rw [spot]
    decide
  rcases fills with isFill | isFill <;>
  · rw [applyReport, isFill]
    simp only [notSwap, if_false, derefs]
    cases pm.updateSpotOnFill registry report report.tradeMode <;> rfl

theorem applyReport_swapFill {info : InstrumentInfo} (swap : report.marketType = .swap)
    (fills : report.status = .filled ∨ report.status = .partiallyFilled)
    (known : registry.get report.instrument = some info) (pm : PositionManager) :
    applyReport registry pm report = pm.updateSwapOnFill registry report := by
  have derefs : registry.find report.instrument = some info := known
  rcases fills with isFill | isFill <;>
  · rw [applyReport, isFill]
    simp only [swap, if_true, derefs]
    cases pm.updateSwapOnFill registry report <;> rfl

theorem applyReport_spotCancel {info : InstrumentInfo} (spot : report.marketType = .spot)
    (cancels : report.status = .cancelled)
    (known : registry.get report.instrument = some info) (pm : PositionManager) :
    applyReport registry pm report = pm.updateSpotOnCancel registry report report.tradeMode := by
  have derefs : registry.find report.instrument = some info := known
  have notSwap : ¬ report.marketType = .swap := by
    rw [spot]
    decide
  rw [applyReport, cancels]
  simp only [notSwap, if_false, derefs]
  cases pm.updateSpotOnCancel registry report report.tradeMode <;> rfl

theorem applyReport_spotRejected (spot : report.marketType = .spot)
    (rejects : report.status = .rejected) (pm : PositionManager) :
    applyReport registry pm report = pm.updateSpotOnRejected registry report report.tradeMode := by
  have notSwap : ¬ report.marketType = .swap := by
    rw [spot]
    decide
  rw [applyReport, rejects]
  exact if_neg notSwap

theorem applyReport_spot (spot : report.marketType = .spot) {pm after : PositionManager}
    (ran : applyReport registry pm report = some after) :
    match report.status with
    | .new => pm.updateSpotOnNew registry report report.tradeMode = some after
    | .filled => pm.updateSpotOnFill registry report report.tradeMode = some after
    | .partiallyFilled => pm.updateSpotOnFill registry report report.tradeMode = some after
    | .cancelled => pm.updateSpotOnCancel registry report report.tradeMode = some after
    | .rejected => pm.updateSpotOnRejected registry report report.tradeMode = some after
    | .cancelFailed => after = pm := by
  cases statusCase : report.status with
  | new => rwa [applyReport_spotNew registry spot statusCase] at ran
  | rejected => rwa [applyReport_spotRejected spot statusCase] at ran
  | cancelFailed =>
      rw [applyReport, statusCase] at ran
      exact (Option.some.inj ran).symm
  | filled | partiallyFilled | cancelled =>
      rw [applyReport, statusCase] at ran
      simp only [spot, reduceCtorEq, if_false, Option.bind_eq_bind, Option.bind_eq_some_iff] at ran
      obtain ⟨moved, applied, _, _, same⟩ := ran
      exact applied.trans same

/-- No currency has more reserved than before, and none less than nothing. -/
def ReservedShrinks (before after : PositionManager) : Prop :=
  ∀ currency, 0 ≤ after.reserved currency ∧ after.reserved currency ≤ before.reserved currency

theorem reservedShrinks_of_eq {before after : PositionManager}
    (same : ∀ currency, after.reserved currency = before.reserved currency)
    (nonneg : ∀ currency, 0 ≤ before.reserved currency) : ReservedShrinks before after := by
  intro currency
  rw [same]
  exact ⟨nonneg currency, le_refl _⟩

theorem ReservedShrinks.trans {first second third : PositionManager}
    (left : ReservedShrinks first second) (right : ReservedShrinks second third) :
    ReservedShrinks first third :=
  fun currency => ⟨(right currency).1, (right currency).2.trans (left currency).2⟩

theorem reservedShrinks_of_release {before after : PositionManager} {currency : String}
    {amount : ℚ} (released : ∀ other, after.reserved other =
      if other = currency then max 0 (before.reserved currency - amount) else before.reserved other)
    (amountNonneg : 0 ≤ amount) (nonneg : ∀ currency, 0 ≤ before.reserved currency) :
    ReservedShrinks before after := by
  intro other
  rw [released]
  split
  · next same =>
      rw [same]
      exact ⟨le_max_left .., max_le (nonneg currency) (by linarith)⟩
  · exact ⟨nonneg other, le_refl _⟩

/-- The dereference in the log line of a fill. -/
theorem registered_of_fill {pm after : PositionManager}
    (isFill : report.status = .filled ∨ report.status = .partiallyFilled)
    (ran : applyReport registry pm report = some after) :
    ∃ info, registry.get report.instrument = some info := by
  have derefs : ∃ info, registry.find report.instrument = some info := by
    rw [applyReport] at ran
    rcases isFill with status | status <;>
    · simp only [status, Option.bind_eq_bind] at ran
      split at ran <;>
      · simp only [Option.bind_eq_some_iff] at ran
        obtain ⟨_, _, info, found, _⟩ := ran
        exact ⟨info, found⟩
  exact derefs

theorem applyReport_fill_registered {info : InstrumentInfo}
    (known : registry.get report.instrument = some info) (pm : PositionManager)
    (fills : report.status = .filled ∨ report.status = .partiallyFilled) :
    ∃ after, applyReport registry pm report = some after ∧
      ∀ currency, after.reserved currency = pm.reserved currency := by
  cases market : report.marketType with
  | spot =>
      obtain ⟨after, ran, effect⟩ := PositionManager.updateSpotOnFill_applied pm
        report.tradeMode known fills
      rw [applyReport_spotFill market fills known]
      exact ⟨after, ran, effect.reserved⟩
  | swap =>
      obtain ⟨after, ran⟩ := PositionManager.updateSwapOnFill_registered known pm
      rw [applyReport_swapFill market fills known]
      refine ⟨after, ran, fun currency => ?_⟩
      rw [PositionManager.reserved, PositionManager.reserved,
        (PositionManager.updateSwapOnFill_frame registry pm after report ran).2.1]

theorem applyReport_registered {info : InstrumentInfo}
    (known : registry.get report.instrument = some info) (pm : PositionManager) :
    ∃ after, applyReport registry pm report = some after ∧
      (0 ≤ report.price → 0 ≤ report.totalVolume → (∀ currency, 0 ≤ pm.reserved currency) →
        ReservedShrinks pm after) := by
  have amountNonneg : 0 ≤ report.price → 0 ≤ report.totalVolume →
      0 ≤ lockValue info report.side report.price report.totalVolume :=
    fun price volume => lockValue_nonneg info report.side price volume
  by_cases fills : report.status = .filled ∨ report.status = .partiallyFilled
  · obtain ⟨after, ran, reserved⟩ := applyReport_fill_registered known pm fills
    exact ⟨after, ran, fun _ _ nonneg => reservedShrinks_of_eq reserved nonneg⟩
  cases market : report.marketType with
  | spot =>
      cases statusCase : report.status with
      | filled => exact absurd (Or.inl statusCase) fills
      | partiallyFilled => exact absurd (Or.inr statusCase) fills
      | new =>
          rw [applyReport_spotNew registry market statusCase,
            PositionManager.updateSpotOnNew_eq, known]
          refine ⟨_, rfl, fun price volume nonneg => ?_⟩
          split
          · exact reservedShrinks_of_release (fun other => PositionManager.reserved_lock ..)
              (amountNonneg price volume) nonneg
          · exact reservedShrinks_of_eq (fun _ => rfl) nonneg
      | cancelled =>
          rw [applyReport_spotCancel market statusCase known,
            PositionManager.updateSpotOnCancel_eq _ _ _ _ statusCase, known]
          split
          · refine ⟨_, rfl, fun _ _ nonneg => reservedShrinks_of_eq (fun currency => ?_) nonneg⟩
            rw [PositionManager.reserved_untrackSpot]
            split <;> rfl
          · exact ⟨_, rfl, fun _ _ nonneg => reservedShrinks_of_eq (fun _ => rfl) nonneg⟩
      | cancelFailed =>
          rw [applyReport, statusCase]
          exact ⟨pm, rfl, fun _ _ nonneg => reservedShrinks_of_eq (fun _ => rfl) nonneg⟩
      | rejected =>
          rw [applyReport_spotRejected market statusCase, PositionManager.updateSpotOnRejected_eq,
            known]
          refine ⟨_, rfl, fun price volume nonneg => ?_⟩
          split
          · by_cases covers : pm.FrozenCovers (lockedCurrencyOf report.instrument report.side)
                (lockValue info report.side report.price report.totalVolume)
            · exact reservedShrinks_of_eq
                (fun other => (PositionManager.releaseRejected_frozen covers other).2.2) nonneg
            · exact reservedShrinks_of_release
                (fun other => (PositionManager.releaseRejected_reserved covers other).2)
                (amountNonneg price volume) nonneg
          · exact reservedShrinks_of_eq (fun _ => rfl) nonneg
  | swap =>
      cases statusCase : report.status with
      | filled => exact absurd (Or.inl statusCase) fills
      | partiallyFilled => exact absurd (Or.inr statusCase) fills
      | new | cancelled | cancelFailed | rejected =>
          rw [applyReport, statusCase]
          simp only [market, ne_eq, not_true_eq_false, if_false, if_true]
          exact ⟨_, rfl, fun _ _ nonneg => reservedShrinks_of_eq (fun _ => rfl) nonneg⟩

end Apply

/-! ## `HandleOrderUpdate` after the recovery -/

def finishUpdate (registry : InstrumentRegistry) (engine : TradingEngine)
    (report : ExecutionReport) (clientOrderId : String) : Option TradingEngine :=
  if engine.isDuplicateCancel report then some engine
  else (applyReport registry engine.positionManager report).map fun pm =>
    (((engine.updateLiveOrders report).eraseReservation report clientOrderId).setPositions
      pm).pushReport report

theorem handleOrderUpdate_eq (registry : InstrumentRegistry) (engine : TradingEngine)
    (report : ExecutionReport) (clientOrderId : String) :
    engine.handleOrderUpdate registry report clientOrderId =
      (engine.recoverMissedNew registry report clientOrderId).bind fun recovered =>
        recovered.finishUpdate registry report clientOrderId := by
  unfold handleOrderUpdate
  congr 1
  funext recovered
  rw [finishUpdate]
  split
  · rfl
  · simp only [positionManager_eraseReservation, positionManager_updateLiveOrders]
    cases applyReport registry recovered.positionManager report <;> rfl

theorem handleOrderUpdate_of_noRecovery {registry : InstrumentRegistry} {engine : TradingEngine}
    {report : ExecutionReport} {clientOrderId : String}
    (none : engine.needsRecovery report clientOrderId = false) :
    engine.handleOrderUpdate registry report clientOrderId =
      engine.finishUpdate registry report clientOrderId := by
  rw [handleOrderUpdate_eq, recoverMissedNew, none]
  rfl

theorem handleOrderUpdate_of_recovery {registry : InstrumentRegistry} {engine : TradingEngine}
    {report : ExecutionReport} {clientOrderId : String}
    (needed : engine.needsRecovery report clientOrderId = true) :
    engine.handleOrderUpdate registry report clientOrderId =
      (engine.recoverPositions registry report).bind fun recovered =>
        (recovered.insertLive report.orderId report.instrument).finishUpdate registry report
          clientOrderId := by
  rw [handleOrderUpdate_eq, recoverMissedNew, if_pos needed]
  cases engine.recoverPositions registry report <;> rfl

theorem needsRecovery_iff {engine : TradingEngine} {report : ExecutionReport}
    {clientOrderId : String} :
    engine.needsRecovery report clientOrderId = true ↔
      report.status ≠ .new ∧ clientOrderId ≠ "" ∧
        report.orderId ∉ engine.liveOrderInstruments ∧
        clientOrderId ∈ engine.clientOrderIdToReservation := by
  simp [needsRecovery]

theorem noRecovery_of_live {engine : TradingEngine} {report : ExecutionReport}
    (live : report.orderId ∈ engine.liveOrderInstruments) (clientOrderId : String) :
    engine.needsRecovery report clientOrderId = false := by
  rw [Bool.eq_false_iff, Ne, needsRecovery_iff]
  exact fun needed => needed.2.2.1 live

theorem noRecovery_of_new {engine : TradingEngine} {report : ExecutionReport}
    (isNew : report.status = .new) (clientOrderId : String) :
    engine.needsRecovery report clientOrderId = false := by
  rw [Bool.eq_false_iff, Ne, needsRecovery_iff]
  exact fun needed => needed.1 isNew

theorem noDuplicate_of_live {engine : TradingEngine} {report : ExecutionReport}
    (live : report.orderId ∈ engine.liveOrderInstruments) :
    engine.isDuplicateCancel report = false := by
  simp [isDuplicateCancel, live]

/-- What an update that is not a duplicate cancel leaves, its position manager
call having produced `pm`. -/
structure UpdateEffect (engine after : TradingEngine) (report : ExecutionReport)
    (clientOrderId : String) (pm : PositionManager) : Prop where
  positions : after.positionManager = pm
  live : after.liveOrderInstruments = (engine.updateLiveOrders report).liveOrderInstruments
  reservations : after.clientOrderIdToReservation =
    (engine.eraseReservation report clientOrderId).clientOrderIdToReservation

theorem reservations_eraseReservation_updateLiveOrders (engine : TradingEngine)
    (report : ExecutionReport) (clientOrderId : String) :
    ((engine.updateLiveOrders report).eraseReservation report
        clientOrderId).clientOrderIdToReservation =
      (engine.eraseReservation report clientOrderId).clientOrderIdToReservation := by
  rw [eraseReservation, eraseReservation]
  split
  · exact congrArg (fun table => Finmap.erase clientOrderId table)
      (reservations_updateLiveOrders engine report)
  · exact reservations_updateLiveOrders engine report

theorem finishUpdate_effect {registry : InstrumentRegistry} {engine : TradingEngine}
    {report : ExecutionReport} (clientOrderId : String) {pm : PositionManager}
    (fresh : engine.isDuplicateCancel report = false)
    (applied : applyReport registry engine.positionManager report = some pm) :
    ∃ after, engine.finishUpdate registry report clientOrderId = some after ∧
      UpdateEffect engine after report clientOrderId pm := by
  rw [finishUpdate, fresh, applied]
  refine ⟨_, rfl, ⟨?_, ?_, ?_⟩⟩
  · rw [positionManager_pushReport, positionManager_setPositions]
  · rw [live_pushReport, live_setPositions, live_eraseReservation]
  · rw [reservations_pushReport, reservations_setPositions,
      reservations_eraseReservation_updateLiveOrders]

theorem handleOrderUpdate_live {registry : InstrumentRegistry} {engine : TradingEngine}
    {report : ExecutionReport} (clientOrderId : String) {pm : PositionManager}
    (live : report.orderId ∈ engine.liveOrderInstruments)
    (applied : applyReport registry engine.positionManager report = some pm) :
    ∃ after, engine.handleOrderUpdate registry report clientOrderId = some after ∧
      UpdateEffect engine after report clientOrderId pm := by
  rw [handleOrderUpdate_of_noRecovery (noRecovery_of_live live clientOrderId)]
  exact finishUpdate_effect clientOrderId (noDuplicate_of_live live) applied

theorem handleOrderUpdate_new {registry : InstrumentRegistry} {engine : TradingEngine}
    {report : ExecutionReport} (clientOrderId : String) {pm : PositionManager}
    (isNew : report.status = .new)
    (applied : applyReport registry engine.positionManager report = some pm) :
    ∃ after, engine.handleOrderUpdate registry report clientOrderId = some after ∧
      UpdateEffect engine after report clientOrderId pm := by
  rw [handleOrderUpdate_of_noRecovery (noRecovery_of_new isNew clientOrderId)]
  exact finishUpdate_effect clientOrderId (by simp [isDuplicateCancel, isNew]) applied

theorem handleOrderUpdate_registered {registry : InstrumentRegistry} {report : ExecutionReport}
    {info : InstrumentInfo}
    (known : registry.get report.instrument = some info) (engine : TradingEngine)
    (clientOrderId : String) :
    ∃ after, engine.handleOrderUpdate registry report clientOrderId = some after := by
  have finishes : ∀ recovered : TradingEngine,
      ∃ after, recovered.finishUpdate registry report clientOrderId = some after := by
    intro recovered
    obtain ⟨pm, applied, _⟩ := applyReport_registered known recovered.positionManager
    rw [finishUpdate, applied]
    split
    · exact ⟨_, rfl⟩
    · exact ⟨_, rfl⟩
  cases needed : engine.needsRecovery report clientOrderId with
  | false =>
      rw [handleOrderUpdate_of_noRecovery needed]
      exact finishes engine
  | true =>
      rw [handleOrderUpdate_of_recovery needed, recoverPositions]
      split
      · rw [PositionManager.updateSpotOnNew_eq, known]
        exact finishes _
      · exact finishes _

/-! ## The position manager and the live table as one unit -/

/-- The part of the engine that updates read and write together. -/
def book (engine : TradingEngine) : PositionManager × UnorderedMap String String :=
  (engine.positionManager, engine.liveOrderInstruments)

def finishBook (registry : InstrumentRegistry) (report : ExecutionReport)
    (state : PositionManager × UnorderedMap String String) :
    Option (PositionManager × UnorderedMap String String) :=
  if report.status = .cancelled ∧ report.orderId ∉ state.2 then some state
  else (applyReport registry state.1 report).map fun pm =>
    (pm, match report.status with
      | .new => state.2.insert report.orderId report.instrument
      | .cancelled => state.2.erase report.orderId
      | .filled => state.2.erase report.orderId
      | .rejected => state.2.erase report.orderId
      | .partiallyFilled => state.2
      | .cancelFailed => state.2)

theorem live_updateLiveOrders (engine : TradingEngine) (report : ExecutionReport) :
    (engine.updateLiveOrders report).liveOrderInstruments =
      match report.status with
      | .new => engine.liveOrderInstruments.insert report.orderId report.instrument
      | .cancelled => engine.liveOrderInstruments.erase report.orderId
      | .filled => engine.liveOrderInstruments.erase report.orderId
      | .rejected => engine.liveOrderInstruments.erase report.orderId
      | .partiallyFilled => engine.liveOrderInstruments
      | .cancelFailed => engine.liveOrderInstruments := by
  cases statusCase : report.status <;>
    simp [updateLiveOrders, statusCase, insertLive, eraseLive]

theorem book_finishUpdate (registry : InstrumentRegistry) (engine : TradingEngine)
    (report : ExecutionReport) (clientOrderId : String) :
    (engine.finishUpdate registry report clientOrderId).map book =
      finishBook registry report engine.book := by
  rw [finishUpdate, finishBook]
  by_cases duplicate : engine.isDuplicateCancel report
  · rw [if_pos duplicate, if_pos (by simpa [isDuplicateCancel, book] using duplicate)]
    rfl
  · rw [if_neg duplicate, if_neg (by simpa [isDuplicateCancel, book] using duplicate),
      Option.map_map]
    refine congrArg
      (fun change => (applyReport registry engine.positionManager report).map change) ?_
    funext pm
    simp only [Function.comp_apply, book, positionManager_pushReport, positionManager_setPositions,
      live_pushReport, live_setPositions, live_eraseReservation, live_updateLiveOrders]

theorem reservations_finishUpdate {registry : InstrumentRegistry} {engine after : TradingEngine}
    {report : ExecutionReport} {clientOrderId : String}
    (ran : engine.finishUpdate registry report clientOrderId = some after) :
    after.clientOrderIdToReservation =
      if engine.isDuplicateCancel report then engine.clientOrderIdToReservation
      else (engine.eraseReservation report clientOrderId).clientOrderIdToReservation := by
  rw [finishUpdate] at ran
  split at ran
  · next duplicate =>
      cases Option.some.inj ran
      rw [if_pos duplicate]
  · next fresh =>
      obtain ⟨pm, _, result⟩ := Option.map_eq_some_iff.mp ran
      rw [← result, if_neg fresh, reservations_pushReport, reservations_setPositions,
        reservations_eraseReservation_updateLiveOrders]

end TradingEngine

def handleReports (registry : InstrumentRegistry) (clientOrderId : String) :
    TradingEngine → List ExecutionReport → Option TradingEngine :=
  Runs.run fun engine report => engine.handleOrderUpdate registry report clientOrderId

end CryptoTrading
