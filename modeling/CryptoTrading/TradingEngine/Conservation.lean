import CryptoTrading.TradingEngine.EngineSpec
import CryptoTrading.TradingEngine.FillMeasure
import CryptoTrading.TradingEngine.OrderHistory

/-! # Orders move money but do not create it

Available and frozen together are what is owned of a currency.  Reservations,
NEW, CANCELLED and REJECTED reports only move it between the two; a fill report
that is ahead of its tracker exchanges base for quote at its own price. -/
set_option autoImplicit false

namespace CryptoTrading

namespace PositionManager

/-! ## Shifts of the spot balances -/

def owned (pm : PositionManager) (currency : String) : ℚ :=
  (pm.spot currency).available + (pm.spot currency).frozen

/-- `after` owns `moved` more than `pm`, owes the same, and differs from it in
the currencies `touched` only. -/
structure Shifts (touched : String → Prop) (pm after : PositionManager) (moved : String → ℚ) :
    Prop where
  owned : ∀ currency, after.owned currency = pm.owned currency + moved currency
  borrowed : ∀ currency, (after.spot currency).borrowed = (pm.spot currency).borrowed
  untouched : ∀ currency, ¬ touched currency →
    after.spot currency = pm.spot currency ∧ after.reserved currency = pm.reserved currency

section Shifts
variable {touched : String → Prop} {pm middle after : PositionManager} {moved more : String → ℚ}
  {currency : String}

theorem shifts_of_eq (spot : ∀ currency, after.spot currency = pm.spot currency)
    (reserved : ∀ currency, ¬ touched currency →
      after.reserved currency = pm.reserved currency) :
    Shifts touched pm after fun _ => 0 := by
  refine ⟨fun currency => ?_, fun currency => ?_, fun currency outside => ?_⟩
  · rw [owned, owned, spot, add_zero]
  · rw [spot]
  · exact ⟨spot currency, reserved currency outside⟩

theorem Shifts.trans (first : Shifts touched pm middle moved)
    (second : Shifts touched middle after more) :
    Shifts touched pm after fun currency => moved currency + more currency := by
  refine ⟨fun currency => ?_, fun currency => ?_, fun currency outside => ?_⟩
  · rw [second.owned, first.owned, add_assoc]
  · rw [second.borrowed, first.borrowed]
  · obtain ⟨spotFirst, reservedFirst⟩ := first.untouched currency outside
    obtain ⟨spotSecond, reservedSecond⟩ := second.untouched currency outside
    exact ⟨spotSecond.trans spotFirst, reservedSecond.trans reservedFirst⟩

theorem Shifts.mono {wider : String → Prop} (shifts : Shifts touched pm after moved)
    (within : ∀ currency, touched currency → wider currency) : Shifts wider pm after moved :=
  ⟨shifts.owned, shifts.borrowed,
    fun currency outside => shifts.untouched currency fun inside =>
      outside (within currency inside)⟩

theorem Shifts.congr (shifts : Shifts touched pm after moved)
    (same : ∀ currency, moved currency = more currency) : Shifts touched pm after more :=
  ⟨fun currency => same currency ▸ shifts.owned currency, shifts.borrowed, shifts.untouched⟩

/-- Every balance change of the position manager is one of these. -/
theorem shifts_modifySpot (pm : PositionManager) (inside : touched currency) (amount : ℚ)
    {change : SpotPosition → SpotPosition}
    (moves : ∀ position : SpotPosition, (change position).available + (change position).frozen =
      position.available + position.frozen + amount)
    (owes : ∀ position : SpotPosition, (change position).borrowed = position.borrowed) :
    Shifts touched pm (pm.modifySpot currency change) fun other =>
      if other = currency then amount else 0 := by
  refine ⟨fun other => ?_, fun other => ?_, fun other outside => ?_⟩
  · rw [owned, owned, spot_modifySpot]
    split
    · rename_i same
      rw [moves, same]
    · rw [add_zero]
  · rw [spot_modifySpot]
    split
    · rename_i same
      rw [owes, same]
    · rfl
  · have different : other ≠ currency := by
      rintro rfl
      exact outside inside
    exact ⟨by rw [spot_modifySpot, if_neg different], reserved_modifySpot ..⟩

theorem shifts_modifySpot_zero (pm : PositionManager) (inside : touched currency)
    {change : SpotPosition → SpotPosition}
    (keeps : ∀ position : SpotPosition, (change position).available + (change position).frozen =
      position.available + position.frozen)
    (owes : ∀ position : SpotPosition, (change position).borrowed = position.borrowed) :
    Shifts touched pm (pm.modifySpot currency change) fun _ => 0 := by
  refine (shifts_modifySpot pm inside 0 (fun position => ?_) owes).congr fun other => ?_
  · rw [keeps, add_zero]
  · exact ite_self 0

theorem shifts_releaseReserved (pm : PositionManager) (inside : touched currency) (amount : ℚ) :
    Shifts touched pm (pm.releaseReserved currency amount) fun _ => 0 := by
  refine shifts_of_eq (fun other => spot_releaseReserved ..) fun other outside => ?_
  rw [reserved_releaseReserved, if_neg]
  rintro rfl
  exact outside inside

theorem shifts_lock (pm : PositionManager) (inside : touched currency) (amount : ℚ) :
    Shifts touched pm (pm.lock currency amount) fun _ => 0 := by
  refine Shifts.congr ((shifts_releaseReserved pm inside amount).trans
    (shifts_modifySpot_zero _ inside (fun position => ?_) fun _ => rfl)) fun _ => ?_
  · ring
  · exact add_zero 0

theorem shifts_release (pm : PositionManager) (inside : touched currency) (amount : ℚ) :
    Shifts touched pm (pm.release currency amount) fun _ => 0 := by
  refine shifts_modifySpot_zero pm inside (fun position => ?_) fun _ => rfl
  ring

theorem shifts_releaseRejected (pm : PositionManager) (inside : touched currency) (amount : ℚ) :
    Shifts touched pm (pm.releaseRejected currency amount) fun _ => 0 := by
  have created : Shifts touched pm (pm.modifySpot currency fun position => position)
      fun _ => 0 := shifts_modifySpot_zero pm inside (fun _ => rfl) fun _ => rfl
  rw [releaseRejected]
  split
  · refine Shifts.congr (created.trans
      (shifts_modifySpot_zero _ inside (fun position => ?_) fun _ => rfl)) fun _ => ?_
    · ring
    · exact add_zero 0
  · exact (created.trans (shifts_releaseReserved _ inside amount)).congr fun _ => add_zero 0

theorem shifts_nameSpot (pm : PositionManager) (inside : touched currency) :
    Shifts touched pm (pm.nameSpot currency) fun _ => 0 :=
  shifts_modifySpot_zero pm inside (fun _ => rfl) fun _ => rfl

theorem shifts_addAvailable (pm : PositionManager) (inside : touched currency) (amount : ℚ) :
    Shifts touched pm (pm.addAvailable currency amount) fun other =>
      if other = currency then amount else 0 := by
  refine shifts_modifySpot pm inside amount (fun position => ?_) fun _ => rfl
  ring

theorem shifts_subFrozen (pm : PositionManager) (inside : touched currency) (amount : ℚ) :
    Shifts touched pm (pm.subFrozen currency amount) fun other =>
      if other = currency then -amount else 0 := by
  refine shifts_modifySpot pm inside (-amount) (fun position => ?_) fun _ => rfl
  ring

theorem shifts_creditFee (pm : PositionManager) (report : ExecutionReport) {first second : String}
    (insideFirst : touched first) (insideSecond : touched second) :
    Shifts touched pm (pm.creditFee report first second) fun other =>
      if other = report.feeCurrency ∧ (other = first ∨ other = second) then report.fee
      else 0 := by
  rw [creditFee]
  split
  · rename_i isFirst
    refine (shifts_addAvailable pm insideFirst report.fee).congr fun other => ?_
    rw [isFirst]
    by_cases equal : other = first <;> simp [equal]
  · rename_i notFirst
    split
    · rename_i isSecond
      refine (shifts_addAvailable pm insideSecond report.fee).congr fun other => ?_
      rw [isSecond]
      by_cases equal : other = second <;> simp [equal]
    · rename_i notSecond
      refine (shifts_of_eq (fun _ => rfl) fun _ _ => rfl).congr fun other => ?_
      rw [if_neg]
      rintro ⟨rfl, equal | equal⟩
      · exact notFirst equal
      · exact notSecond equal

end Shifts

/-! ## What a report moves -/

def Trades (report : ExecutionReport) (currency : String) : Prop :=
  currency = extractCurrency .base report.instrument ∨
    currency = extractCurrency .quote report.instrument

/-- What a fill of `incremental` adds to the base; a margin SELL sells what is
borrowed elsewhere. -/
def baseChange (report : ExecutionReport) (incremental : ℚ) : ℚ :=
  match report.side with
  | .buy => incremental
  | .sell => if report.tradeMode = .cash then -incremental else 0

def quoteChange (report : ExecutionReport) (incremental : ℚ) : ℚ :=
  match report.side with
  | .buy => -(report.avgFillPrice * incremental)
  | .sell => report.avgFillPrice * incremental

/-- The signed amounts of a fill in its two currencies, and the fee if it is
paid in one of them. -/
def fillExchange (report : ExecutionReport) (incremental : ℚ) (currency : String) : ℚ :=
  (if currency = extractCurrency .base report.instrument then baseChange report incremental
    else 0) +
  (if currency = extractCurrency .quote report.instrument then quoteChange report incremental
    else 0) +
  feeCredit report currency

/-- What a report adds to what is owned: nothing unless it is a fill ahead of
its order's tracker. -/
def moneyMoved (registry : InstrumentRegistry) (pm : PositionManager) (report : ExecutionReport)
    (currency : String) : ℚ :=
  if isFill report.status = true ∧ 0 < pm.spotIncrement report then
    match registry.get report.instrument with
    | none => 0
    | some info =>
        fillExchange report (decode (pm.spotIncrement report) info.volumePrecision) currency
  else 0

theorem trades_locked (report : ExecutionReport) :
    Trades report (lockedCurrencyOf report.instrument report.side) := by
  rw [lockedCurrencyOf]
  cases report.side with
  | buy => exact Or.inr rfl
  | sell => exact Or.inl rfl

theorem shifts_applySpotFill (pm : PositionManager) (report : ExecutionReport)
    (incremental : ℚ) :
    Shifts (Trades report) pm (pm.applySpotFill report report.tradeMode incremental)
      (fillExchange report incremental) := by
  have base : Trades report (extractCurrency .base report.instrument) := Or.inl rfl
  have quote : Trades report (extractCurrency .quote report.instrument) := Or.inr rfl
  have named := (shifts_nameSpot pm base).trans (shifts_nameSpot _ quote)
  rw [applySpotFill]
  cases sideCase : report.side with
  | buy =>
      refine (((named.trans (shifts_subFrozen _ quote _)).trans
        (shifts_addAvailable _ base _)).trans
          (shifts_creditFee _ report base quote)).congr fun currency => ?_
      simp only [fillExchange, baseChange, quoteChange, feeCredit, sideCase]
      ring
  | sell =>
      by_cases cash : report.tradeMode = .cash
      · simp only [cash, if_true, reduceCtorEq, if_false]
        refine (((named.trans (shifts_subFrozen _ base _)).trans
          (shifts_addAvailable _ quote _)).trans
            (shifts_creditFee _ report quote base)).congr fun currency => ?_
        simp only [fillExchange, baseChange, quoteChange, feeCredit, sideCase, cash, if_true,
          or_comm]
        ring
      · simp only [cash, reduceCtorEq, if_false]
        refine ((named.trans (shifts_addAvailable _ quote _)).trans
            (shifts_creditFee _ report quote base)).congr fun currency => ?_
        simp only [fillExchange, baseChange, quoteChange, feeCredit, sideCase, cash, if_false,
          ite_self, or_comm]
        ring

/-! ## Reports one by one -/

section Reports
variable {registry : InstrumentRegistry} {report : ExecutionReport} {pm after : PositionManager}

theorem shifts_refl (touched : String → Prop) (pm : PositionManager) :
    Shifts touched pm pm fun _ => 0 :=
  shifts_of_eq (fun _ => rfl) fun _ _ => rfl

theorem updateSpotOnNew_shifts {tradeMode : TradeMode}
    (ran : pm.updateSpotOnNew registry report tradeMode = some after) :
    Shifts (Trades report) pm after fun _ => 0 := by
  rw [updateSpotOnNew_eq] at ran
  obtain ⟨info, _, rfl⟩ := Option.map_eq_some_iff.mp ran
  split
  · exact shifts_lock pm (trades_locked report) _
  · exact shifts_refl _ pm

theorem updateSpotOnCancel_shifts {tradeMode : TradeMode} (cancels : report.status = .cancelled)
    (ran : pm.updateSpotOnCancel registry report tradeMode = some after) :
    Shifts (Trades report) pm after fun _ => 0 := by
  have untracked : ∀ state : PositionManager,
      Shifts (Trades report) state (state.untrackSpot report.orderId) fun _ => 0 :=
    fun state => shifts_of_eq (fun _ => rfl) fun _ _ => rfl
  rw [updateSpotOnCancel_eq _ _ _ _ cancels] at ran
  split at ran
  · obtain ⟨info, _, rfl⟩ := Option.map_eq_some_iff.mp ran
    split
    · exact ((shifts_release pm (trades_locked report) _).trans (untracked _)).congr (by simp)
    · exact untracked pm
  · cases ran
    exact untracked pm

theorem updateSpotOnRejected_shifts {tradeMode : TradeMode}
    (ran : pm.updateSpotOnRejected registry report tradeMode = some after) :
    Shifts (Trades report) pm after fun _ => 0 := by
  rw [updateSpotOnRejected_eq] at ran
  obtain ⟨info, _, rfl⟩ := Option.map_eq_some_iff.mp ran
  split
  · exact shifts_releaseRejected pm (trades_locked report) _
  · exact shifts_refl _ pm

theorem updateSpotOnFill_shifts (fills : report.status = .filled ∨ report.status = .partiallyFilled)
    (ran : pm.updateSpotOnFill registry report report.tradeMode = some after) :
    Shifts (Trades report) pm after (moneyMoved registry pm report) := by
  have tracked : Shifts (Trades report) pm (pm.trackSpotFill report) fun _ => 0 :=
    shifts_of_eq (fun _ => rfl) fun _ _ => rfl
  rw [updateSpotOnFill_eq _ _ _ _ fills] at ran
  split at ran
  · rename_i behind
    cases ran
    refine tracked.congr fun currency => ?_
    rw [moneyMoved, if_neg]
    exact fun ahead => absurd ahead.2 (not_lt.mpr behind)
  · rename_i ahead
    obtain ⟨info, known, rfl⟩ := Option.map_eq_some_iff.mp ran
    refine (tracked.trans (shifts_applySpotFill _ report _)).congr fun currency => ?_
    rw [moneyMoved, if_pos ⟨isFill_iff.mpr fills, not_le.mp ahead⟩, known, zero_add]

theorem moneyMoved_of_not_fill (noFill : isFill report.status = false) (currency : String) :
    moneyMoved registry pm report currency = 0 := by
  rw [moneyMoved, if_neg]
  rw [noFill]
  exact fun fill => Bool.false_ne_true fill.1

theorem applyReport_shifts (spot : report.marketType = .spot)
    (ran : TradingEngine.applyReport registry pm report = some after) :
    Shifts (Trades report) pm after (moneyMoved registry pm report) := by
  have applied := TradingEngine.applyReport_spot spot ran
  cases statusCase : report.status with
  | new =>
      rw [statusCase] at applied
      refine (updateSpotOnNew_shifts applied).congr fun currency => ?_
      rw [moneyMoved_of_not_fill (by rw [statusCase]; rfl)]
  | filled =>
      rw [statusCase] at applied
      exact updateSpotOnFill_shifts (Or.inl statusCase) applied
  | partiallyFilled =>
      rw [statusCase] at applied
      exact updateSpotOnFill_shifts (Or.inr statusCase) applied
  | cancelled =>
      rw [statusCase] at applied
      refine (updateSpotOnCancel_shifts statusCase applied).congr fun currency => ?_
      rw [moneyMoved_of_not_fill (by rw [statusCase]; rfl)]
  | rejected =>
      rw [statusCase] at applied
      refine (updateSpotOnRejected_shifts applied).congr fun currency => ?_
      rw [moneyMoved_of_not_fill (by rw [statusCase]; rfl)]
  | cancelFailed =>
      rw [statusCase] at applied
      subst applied
      refine (shifts_refl _ _).congr fun currency => ?_
      rw [moneyMoved_of_not_fill (by rw [statusCase]; rfl)]

end Reports

end PositionManager

namespace TradingEngine

open PositionManager

section Update
variable {registry : InstrumentRegistry} {engine after : TradingEngine} {report : ExecutionReport}
  {clientOrderId : String}

/-- The recovery is a NEW: it locks, and leaves the trackers alone. -/
theorem recoverMissedNew_shifts
    (ran : engine.recoverMissedNew registry report clientOrderId = some after) :
    Shifts (Trades report) engine.positionManager after.positionManager (fun _ => 0) ∧
      after.positionManager.spotIncrement report =
        engine.positionManager.spotIncrement report := by
  rw [recoverMissedNew] at ran
  split at ran
  · obtain ⟨recovered, positions, rfl⟩ := Option.map_eq_some_iff.mp ran
    rw [recoverPositions] at positions
    split at positions
    · obtain ⟨pm, locked, rfl⟩ := Option.map_eq_some_iff.mp positions
      refine ⟨updateSpotOnNew_shifts locked, ?_⟩
      rw [spotIncrement, spotIncrement, positionManager_insertLive, positionManager_setPositions,
        (updateSpotOnNew_sameFills locked).spotTracker]
    · cases positions
      exact ⟨shifts_refl _ _, rfl⟩
  · cases ran
    exact ⟨shifts_refl _ _, rfl⟩

theorem finishUpdate_shifts (spot : report.marketType = .spot)
    (ran : engine.finishUpdate registry report clientOrderId = some after) :
    Shifts (Trades report) engine.positionManager after.positionManager
      (moneyMoved registry engine.positionManager report) := by
  rw [finishUpdate] at ran
  split at ran
  · rename_i duplicate
    cases ran
    refine (shifts_refl _ _).congr fun currency => ?_
    have cancelled : report.status = .cancelled := by
      simp only [isDuplicateCancel, Bool.decide_and, Bool.and_eq_true, decide_eq_true_eq]
        at duplicate
      exact duplicate.1
    rw [moneyMoved_of_not_fill (by rw [cancelled]; rfl)]
  · obtain ⟨pm, applied, rfl⟩ := Option.map_eq_some_iff.mp ran
    rw [positionManager_pushReport, positionManager_setPositions]
    exact applyReport_shifts spot applied

theorem handleOrderUpdate_shifts (spot : report.marketType = .spot)
    (ran : engine.handleOrderUpdate registry report clientOrderId = some after) :
    Shifts (Trades report) engine.positionManager after.positionManager
      (moneyMoved registry engine.positionManager report) := by
  rw [handleOrderUpdate_eq] at ran
  obtain ⟨recovered, recovery, finished⟩ := Option.bind_eq_some_iff.mp ran
  obtain ⟨locked, sameIncrement⟩ := recoverMissedNew_shifts recovery
  refine (locked.trans (finishUpdate_shifts spot finished)).congr fun currency => ?_
  rw [zero_add, moneyMoved, moneyMoved, sameIncrement]

end Update

end TradingEngine

/-! ## Runs of reservations and reports -/

inductive SpotEvent where
  | reserve (currency : String) (amount : ℚ)
  | handle (report : ExecutionReport) (clientOrderId : String)
  deriving DecidableEq

namespace SpotEvent

open PositionManager TradingEngine

def step (registry : InstrumentRegistry) (engine : TradingEngine) :
    SpotEvent → Option TradingEngine
  | .reserve currency amount =>
      some (engine.setPositions (engine.positionManager.reserveSpot currency amount))
  | .handle report clientOrderId => engine.handleOrderUpdate registry report clientOrderId

def IsSpot : SpotEvent → Prop
  | .reserve _ _ => True
  | .handle report _ => report.marketType = .spot

def Registered (registry : InstrumentRegistry) : SpotEvent → Prop
  | .reserve _ _ => True
  | .handle report _ => ∃ info, registry.get report.instrument = some info

def TradesIn (currency : String) : SpotEvent → Prop
  | .reserve _ _ => False
  | .handle report _ => Trades report currency

def Reserves (currency : String) : SpotEvent → Prop
  | .reserve other _ => currency = other
  | .handle _ _ => False

def Involves (currency : String) (event : SpotEvent) : Prop :=
  event.TradesIn currency ∨ event.Reserves currency

def moved (registry : InstrumentRegistry) (currency : String) (engine : TradingEngine) :
    SpotEvent → ℚ
  | .reserve _ _ => 0
  | .handle report _ => moneyMoved registry engine.positionManager report currency

section Steps
variable {registry : InstrumentRegistry} {engine final : TradingEngine}

theorem step_shifts {event : SpotEvent} (isSpot : event.IsSpot)
    (stepped : step registry engine event = some final) :
    Shifts (fun currency => event.Involves currency)
      engine.positionManager final.positionManager
      (fun currency => event.moved registry currency engine) := by
  cases event with
  | reserve currency amount =>
      cases stepped
      refine shifts_of_eq (fun _ => rfl) fun other outside => ?_
      have different : other ≠ currency := fun same => outside (Or.inr same)
      rw [positionManager_setPositions, reserveSpot, reserved_setReserved, if_neg different]
  | handle report clientOrderId =>
      exact (handleOrderUpdate_shifts isSpot stepped).mono fun _ => Or.inl

/-- A reservation leaves every position alone. -/
theorem step_spot {event : SpotEvent} (isSpot : event.IsSpot)
    (stepped : step registry engine event = some final) {currency : String}
    (outside : ¬ event.TradesIn currency) :
    final.positionManager.spot currency = engine.positionManager.spot currency := by
  cases event with
  | reserve other amount =>
      cases stepped
      rfl
  | handle report clientOrderId =>
      exact ((handleOrderUpdate_shifts isSpot stepped).untouched currency outside).1

theorem step_registered {event : SpotEvent} (registered : event.Registered registry)
    (engine : TradingEngine) : ∃ next, step registry engine event = some next := by
  cases event with
  | reserve currency amount => exact ⟨_, rfl⟩
  | handle report clientOrderId =>
      obtain ⟨info, known⟩ := registered
      exact handleOrderUpdate_registered known engine clientOrderId

variable {events : List SpotEvent}

theorem run_shifts (spot : ∀ event ∈ events, event.IsSpot)
    (ran : Runs.run (step registry) engine events = some final) :
    Shifts (fun currency => ∃ event ∈ events, event.Involves currency)
      engine.positionManager final.positionManager
      (fun currency => Runs.total (step registry)
        (fun engine event => event.moved registry currency engine) engine events) := by
  induction events generalizing engine with
  | nil =>
      cases ran
      exact shifts_refl _ _
  | cons event rest ih =>
      obtain ⟨next, stepped, ranRest⟩ := Runs.run_cons_some _ ran
      have first := (step_shifts (spot event List.mem_cons_self) stepped).mono
        (fun currency inside => show ∃ other ∈ event :: rest, Involves currency other from
          ⟨event, List.mem_cons_self, inside⟩)
      have later := (ih (fun other member => spot other (List.mem_cons_of_mem _ member))
        ranRest).mono
        (fun currency ⟨other, member, inside⟩ =>
          show ∃ other ∈ event :: rest, Involves currency other from
          ⟨other, List.mem_cons_of_mem _ member, inside⟩)
      refine (first.trans later).congr fun currency => ?_
      rw [Runs.total_cons _ _ _ stepped]

theorem run_spot (spot : ∀ event ∈ events, event.IsSpot)
    (ran : Runs.run (step registry) engine events = some final) {currency : String}
    (outside : ∀ event ∈ events, ¬ event.TradesIn currency) :
    final.positionManager.spot currency = engine.positionManager.spot currency := by
  induction events generalizing engine with
  | nil =>
      cases ran
      rfl
  | cons event rest ih =>
      obtain ⟨next, stepped, ranRest⟩ := Runs.run_cons_some _ ran
      rw [ih (fun other member => spot other (List.mem_cons_of_mem _ member)) ranRest
        fun other member => outside other (List.mem_cons_of_mem _ member)]
      exact step_spot (spot event List.mem_cons_self) stepped
        (outside event List.mem_cons_self)

end Steps

end SpotEvent

/-- Over any sequence of reservations and spot reports, what is owned of a
currency changes by the fills that were ahead of their trackers, and by nothing
else; debts never change, and a report leaves other currencies alone. -/
theorem money_conserved (registry : InstrumentRegistry) (engine : TradingEngine)
    (events : List SpotEvent) (spot : ∀ event ∈ events, event.IsSpot) :
    ((∀ event ∈ events, event.Registered registry) →
      ∃ final, Runs.run (SpotEvent.step registry) engine events = some final) ∧
    ∀ final, Runs.run (SpotEvent.step registry) engine events = some final →
      (∀ currency,
        final.positionManager.owned currency - engine.positionManager.owned currency =
          Runs.total (SpotEvent.step registry)
            (fun engine event => event.moved registry currency engine) engine events) ∧
      (∀ currency, (final.positionManager.spot currency).borrowed =
        (engine.positionManager.spot currency).borrowed) ∧
      (∀ currency, (∀ event ∈ events, ¬ event.TradesIn currency) →
        final.positionManager.spot currency = engine.positionManager.spot currency) ∧
      ∀ currency, (∀ event ∈ events, ¬ event.Involves currency) →
        final.positionManager.reserved currency = engine.positionManager.reserved currency := by
  constructor
  · intro registered
    exact Runs.run_total _ events
      (fun state event member => SpotEvent.step_registered (registered event member) state) engine
  · intro final ran
    have shifts := SpotEvent.run_shifts spot ran
    refine ⟨fun currency => ?_, shifts.borrowed, fun currency outside => ?_,
      fun currency outside => ?_⟩
    · rw [shifts.owned, add_sub_cancel_left]
    · exact SpotEvent.run_spot spot ran outside
    · refine (shifts.untouched currency ?_).2
      rintro ⟨event, member, inside⟩
      exact outside event member inside

/-- Two BTC bought in two fills, the second report delivered twice; the fee of a
thousandth is paid in BTC each time. -/
def boughtTwo : List SpotEvent :=
  let report : ExecutionReport :=
    { instrument := "BTC-USDT", orderId := "1", price := 100, totalVolume := 2,
      avgFillPrice := 90, fee := -1 / 1000, feeCurrency := "BTC" }
  let first := { report with status := .partiallyFilled, filledVolume := 1 }
  [.reserve "USDT" 200, .handle report "cts1", .handle first "cts1", .handle first "cts1",
    .handle { report with status := .filled, filledVolume := 2 } "cts1"]

theorem money_conserved_boughtTwo : ∃ final,
    Runs.run (SpotEvent.step btcUsdtRegistry) {} boughtTwo = some final ∧
      final.positionManager.owned "BTC" = 2 - 2 / 1000 ∧
      final.positionManager.owned "USDT" = -180 := by
  have conserved := money_conserved btcUsdtRegistry {} boughtTwo
    (by simp [boughtTwo, SpotEvent.IsSpot])
  have listed : btcUsdtRegistry.get "BTC-USDT" = some btcUsdt := by decide
  obtain ⟨final, ran⟩ := conserved.1 (by simp [boughtTwo, SpotEvent.Registered, listed])
  have moved := (conserved.2 final ran).1
  refine ⟨final, ran, ?_, ?_⟩
  · have base := moved "BTC"
    rw [show Runs.total _ _ _ boughtTwo = (2 - 2 / 1000 : ℚ) by decide +kernel] at base
    simpa [PositionManager.owned, PositionManager.spot, UnorderedMap.getD] using base
  · have quote := moved "USDT"
    rw [show Runs.total _ _ _ boughtTwo = (-180 : ℚ) by decide +kernel] at quote
    simpa [PositionManager.owned, PositionManager.spot, UnorderedMap.getD] using quote

end CryptoTrading
