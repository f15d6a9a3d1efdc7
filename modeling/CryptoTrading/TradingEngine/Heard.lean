import CryptoTrading.TradingEngine.ThreadsSpec

/-! # An order that has been heard of

A call that finds its order unrecorded does not recover it, and a terminal one
takes it out of the live table.  An order that the listener has made live does
not leave the live table before its reservation is gone, so nothing can put it
back. -/
set_option autoImplicit false

namespace CryptoTrading

open TradingEngine

namespace Threads

/-! ## What a turn does to the two tables -/

def turning (state : Threads) : ThreadAction → Option OrderUpdate
  | .update thread => state.current thread
  | .publish _ => none
  | .record _ _ => none
  | .receive => none
  | .reconcile _ => none

/-- A client order id that cannot lead to a recovery. -/
def Unrecorded (engine : TradingEngine) (clientOrderId : String) : Prop :=
  clientOrderId = "" ∨ clientOrderId ∉ engine.clientOrderIdToReservation

/-- A call that will not recover its order, and that has taken it out of the
live table if it is terminal and past that point. -/
structure CallOk (engine : TradingEngine) (call : OrderUpdate) : Prop where
  noRecovery : call.point ≠ .recoverPositions ∧ call.point ≠ .recoverLive
  unrecorded : call.point = .checkReservation →
    call.clientOrderId ∉ engine.clientOrderIdToReservation
  past : isTerminal call.report.status = true →
    call.point = .eraseReservation ∨ call.point = .applyReport ∨ call.point = .pushReport →
    call.report.orderId ∉ engine.liveOrderInstruments

section Tables
variable {registry : InstrumentRegistry} {engine after : TradingEngine} {call : OrderUpdate}
  {later : Option OrderUpdate}

theorem Unrecorded.mono {clientOrderId : String} (unrecorded : Unrecorded engine clientOrderId)
    (kept : clientOrderId ∈ after.clientOrderIdToReservation →
      clientOrderId ∈ engine.clientOrderIdToReservation) : Unrecorded after clientOrderId :=
  unrecorded.imp id fun absent present => absent (kept present)

theorem CallOk.mono (ok : CallOk engine call)
    (live : call.report.orderId ∈ after.liveOrderInstruments →
      call.report.orderId ∈ engine.liveOrderInstruments)
    (kept : call.clientOrderId ∈ after.clientOrderIdToReservation →
      call.clientOrderId ∈ engine.clientOrderIdToReservation) : CallOk after call :=
  ⟨ok.noRecovery, fun here present => ok.unrecorded here (kept present),
    fun terminal past present => ok.past terminal past (live present)⟩

theorem unrecorded_erase (clientOrderId : String) {report : ExecutionReport}
    (ends : endsReservation report.status = true) :
    Unrecorded (engine.eraseReservation report clientOrderId) clientOrderId := by
  by_cases named : clientOrderId = ""
  · exact Or.inl named
  · right
    rw [mem_eraseReservation]
    exact fun present => present.2 ⟨named, ends, rfl⟩

theorem step_reservations (ran : call.step registry engine = some (after, later))
    (clientOrderId : String) (present : clientOrderId ∈ after.clientOrderIdToReservation) :
    clientOrderId ∈ engine.clientOrderIdToReservation := by
  cases scope_of_step ran with
  | notLive | live | recorded | unrecorded | duplicate => exact present
  | recoverPositions | recoverLive | applyReport => exact present
  | updateLive => rwa [reservations_updateLiveOrders] at present
  | eraseReservation => exact ((mem_eraseReservation ..).mp present).1
  | pushReport => rwa [reservations_pushReport] at present

theorem live_of_other {orderId : String} (ran : call.step registry engine = some (after, later))
    (other : call.report.orderId ≠ orderId) :
    orderId ∈ after.liveOrderInstruments ↔ orderId ∈ engine.liveOrderInstruments := by
  cases scope_of_step ran with
  | notLive | live | recorded | unrecorded | duplicate => exact Iff.rfl
  | recoverPositions | applyReport => exact Iff.rfl
  | recoverLive =>
      rw [insertLive, Finmap.mem_insert]
      simp [other.symm]
  | updateLive =>
      rw [mem_updateLiveOrders]
      simp [other.symm]
  | eraseReservation => rw [live_eraseReservation]
  | pushReport => rw [live_pushReport]

/-- A turn of an order's own call, other than those with which a NEW makes it live. -/
structure OwnTurn (engine after : TradingEngine) (call : OrderUpdate)
    (later : Option OrderUpdate) : Prop where
  live : call.report.orderId ∈ after.liveOrderInstruments →
    call.report.orderId ∈ engine.liveOrderInstruments
  next : ∀ made ∈ later, CallOk after made
  returned : later = none → isTerminal call.report.status = true →
    call.report.orderId ∉ after.liveOrderInstruments
  left : call.report.orderId ∉ after.liveOrderInstruments →
    call.report.orderId ∉ engine.liveOrderInstruments ∨
      call.point = .updateLive ∧ isTerminal call.report.status = true ∧
        later = some (call.goto .eraseReservation)
  erased : call.point = .eraseReservation → endsReservation call.report.status = true →
    Unrecorded after call.clientOrderId

theorem ownTurn_goto {point : UpdatePoint}
    (live : call.report.orderId ∈ after.liveOrderInstruments ↔
      call.report.orderId ∈ engine.liveOrderInstruments)
    (ok : CallOk after (call.goto point))
    (erased : call.point = .eraseReservation → endsReservation call.report.status = true →
      Unrecorded after call.clientOrderId) :
    OwnTurn engine after call (some (call.goto point)) where
  live := live.mp
  next := by
    intro made isNext
    cases isNext
    exact ok
  returned := by simp
  left := fun gone => Or.inl fun present => gone (live.mpr present)
  erased := erased

theorem ownTurn (ok : CallOk engine call)
    (old : call.report.status = .new → call.point ≠ .checkLive ∧ call.point ≠ .updateLive)
    (checked : call.point = .checkLive → call.report.orderId ∉ engine.liveOrderInstruments →
      Unrecorded engine call.clientOrderId)
    (ran : call.step registry engine = some (after, later)) : OwnTurn engine after call later := by
  have onward : ∀ state : TradingEngine, CallOk state (call.goto .updateLive) := fun state =>
    ⟨by simp [OrderUpdate.goto], by simp [OrderUpdate.goto], by simp [OrderUpdate.goto]⟩
  cases scope_of_step ran with
  | notLive point notNew named absent =>
      have unrecorded := (checked point absent).resolve_left named
      have next : CallOk engine (call.goto .checkReservation) :=
        ⟨by simp [OrderUpdate.goto], fun _ => unrecorded, by simp [OrderUpdate.goto]⟩
      exact ownTurn_goto Iff.rfl next (by simp [point])
  | live point | unrecorded point =>
      exact ownTurn_goto Iff.rfl (onward engine) (by simp [point])
  | recorded point present => exact absurd present (ok.unrecorded point)
  | recoverPositions point => exact absurd point ok.noRecovery.1
  | recoverLive point => exact absurd point ok.noRecovery.2
  | duplicate point cancelled absent =>
      exact ⟨id, by simp, fun _ _ => absent, Or.inl, by simp [point]⟩
  | updateLive point fresh =>
      have notNew : call.report.status ≠ .new := fun isNew => (old isNew).2 point
      have live := mem_updateLiveOrders engine call.report call.report.orderId
      simp only [ne_eq, not_true_eq_false, false_and, false_or, true_and, notNew] at live
      refine ⟨fun present => (live.mp present).2, fun made isNext => ?_, by simp, fun gone => ?_,
        by simp [point]⟩
      · cases isNext
        refine ⟨by simp [OrderUpdate.goto], by simp [OrderUpdate.goto],
          fun terminal _ present => ?_⟩
        exact Bool.false_ne_true ((live.mp present).1.symm.trans terminal)
      · by_cases terminal : isTerminal call.report.status = true
        · exact Or.inr ⟨point, terminal, rfl⟩
        · exact Or.inl fun present =>
            gone (live.mpr ⟨Bool.eq_false_iff.mpr terminal, present⟩)
  | eraseReservation point =>
      have live := live_eraseReservation engine call.report call.clientOrderId
      have next : CallOk (engine.eraseReservation call.report call.clientOrderId)
          (call.goto .applyReport) := by
        refine ⟨by simp [OrderUpdate.goto], by simp [OrderUpdate.goto], fun terminal _ => ?_⟩
        rw [live]
        exact ok.past terminal (Or.inl point)
      exact ownTurn_goto (by rw [live]) next fun _ => unrecorded_erase call.clientOrderId
  | applyReport point pm moved =>
      have next : CallOk (engine.setPositions pm) (call.goto .pushReport) :=
        ⟨by simp [OrderUpdate.goto], by simp [OrderUpdate.goto],
          fun terminal _ => ok.past terminal (Or.inr (Or.inl point))⟩
      exact ownTurn_goto Iff.rfl next (by simp [point])
  | pushReport point =>
      have live := live_pushReport engine call.report
      refine ⟨?_, by simp, fun _ terminal => ?_, fun gone => ?_, by simp [point]⟩
      · rw [live]
        exact id
      · rw [live]
        exact ok.past terminal (Or.inr (Or.inr point))
      · rw [live] at gone
        exact Or.inl gone

end Tables

/-! ## An order that has been heard of -/

/-- What holds of an order from the moment the listener has made it live: it
does not leave the live table before its reservation is gone or about to go. -/
structure Heard (orderId clientOrderId : String) (handled : ℕ) (engine : TradingEngine)
    (listener reconciler : Option OrderUpdate) : Prop where
  gone : orderId ∉ engine.liveOrderInstruments → Unrecorded engine clientOrderId ∨
    ∃ call ∈ reconciler, call.report.orderId = orderId ∧ call.point = .eraseReservation
  replays : ∀ call ∈ reconciler, call.report.orderId = orderId →
    isTerminal call.report.status = true
  listens : ∀ call ∈ listener, call.report.orderId = orderId → CallOk engine call
  relistens : ∀ call ∈ reconciler, call.report.orderId = orderId → CallOk engine call
  handled : 0 < handled → orderId ∉ engine.liveOrderInstruments

section Hearing
variable {registry : InstrumentRegistry} {orderId clientOrderId : String} {handled now : ℕ}
  {engine after : TradingEngine} {listener reconciler : Option OrderUpdate} {call : OrderUpdate}
  {later : Option OrderUpdate}

theorem Heard.tables (heard : Heard orderId clientOrderId handled engine listener reconciler)
    (live : orderId ∈ after.liveOrderInstruments ↔ orderId ∈ engine.liveOrderInstruments)
    (kept : clientOrderId ∈ after.clientOrderIdToReservation →
      clientOrderId ∈ engine.clientOrderIdToReservation)
    (named : ∀ call, call ∈ listener ∨ call ∈ reconciler → call.report.orderId = orderId →
      call.clientOrderId = clientOrderId) :
    Heard orderId clientOrderId handled after listener reconciler := by
  have stays : ∀ call, call ∈ listener ∨ call ∈ reconciler → call.report.orderId = orderId →
      CallOk engine call → CallOk after call := by
    intro call made own ok
    refine ok.mono ?_ ?_
    · rw [own]
      exact live.mp
    · rw [named call made own]
      exact kept
  exact ⟨fun gone => (heard.gone fun present => gone (live.mpr present)).imp
      (fun unrecorded => unrecorded.mono kept) id, heard.replays,
    fun call made own => stays call (Or.inl made) own (heard.listens call made own),
    fun call made own => stays call (Or.inr made) own (heard.relistens call made own),
    fun once present => heard.handled once (live.mp present)⟩

theorem Heard.setListener (heard : Heard orderId clientOrderId handled engine listener reconciler)
    (ok : ∀ call ∈ later, call.report.orderId = orderId → CallOk engine call) :
    Heard orderId clientOrderId handled engine later reconciler :=
  { heard with listens := ok }

theorem Heard.setReconciler
    (heard : Heard orderId clientOrderId handled engine listener reconciler)
    (other : ∀ call ∈ reconciler, call.report.orderId ≠ orderId)
    (ok : ∀ call ∈ later, call.report.orderId = orderId →
      isTerminal call.report.status = true ∧ CallOk engine call) :
    Heard orderId clientOrderId handled engine listener later := by
  refine { heard with
    gone := fun gone => Or.inl ?_
    replays := fun call made own => (ok call made own).1
    relistens := fun call made own => (ok call made own).2 }
  exact (heard.gone gone).resolve_right fun ⟨call, made, own, _⟩ => other call made own

/-- The listener's turn; a terminal report takes the order out of the live table
only when its reservation is already gone. -/
theorem Heard.listenerTurn
    (heard : Heard orderId clientOrderId handled engine (some call) reconciler)
    (own : call.report.orderId = orderId)
    (named : ∀ call ∈ reconciler, call.report.orderId = orderId →
      call.clientOrderId = clientOrderId)
    (turn : OwnTurn engine after call later)
    (kept : clientOrderId ∈ after.clientOrderIdToReservation →
      clientOrderId ∈ engine.clientOrderIdToReservation)
    (unrecorded : call.point = .updateLive → Unrecorded engine clientOrderId)
    (counts : now = handled ∨ later = none ∧ isTerminal call.report.status = true) :
    Heard orderId clientOrderId now after later reconciler := by
  obtain ⟨live, next, returned, left, _⟩ := turn
  rw [own] at live returned left
  refine ⟨fun gone => ?_, heard.replays, fun made isNext _ => next made isNext,
    fun made isMade ownMade => ?_, fun once present => ?_⟩
  · rcases left gone with before | ⟨here, _⟩
    · exact (heard.gone before).imp (fun absent => absent.mono kept) id
    · exact Or.inl ((unrecorded here).mono kept)
  · refine (heard.relistens made isMade ownMade).mono ?_ ?_
    · rw [ownMade]
      exact live
    · rw [named made isMade ownMade]
      exact kept
  · rcases counts with same | ⟨ends, terminal⟩
    · rw [same] at once
      exact heard.handled once (live present)
    · exact returned ends terminal present

/-- The reconciler's turn: when it takes the order out of the live table, its
next turn erases the reservation. -/
theorem Heard.reconcilerTurn
    (heard : Heard orderId clientOrderId handled engine listener (some call))
    (own : call.report.orderId = orderId) (ownName : call.clientOrderId = clientOrderId)
    (named : ∀ call ∈ listener, call.report.orderId = orderId →
      call.clientOrderId = clientOrderId)
    (turn : OwnTurn engine after call later)
    (kept : clientOrderId ∈ after.clientOrderIdToReservation →
      clientOrderId ∈ engine.clientOrderIdToReservation)
    (same : ∀ made ∈ later, made.report = call.report)
    (counts : now = handled ∨ later = none ∧ isTerminal call.report.status = true) :
    Heard orderId clientOrderId now after listener later := by
  have terminal := heard.replays call rfl own
  obtain ⟨live, next, returned, left, erased⟩ := turn
  rw [own] at live returned left
  rw [ownName] at erased
  refine ⟨fun gone => ?_, fun made isNext _ => ?_, fun made isMade ownMade => ?_,
    fun made isNext _ => next made isNext, fun once present => ?_⟩
  · rcases left gone with before | ⟨here, _, goesOn⟩
    · rcases heard.gone before with absent | ⟨made, isCall, _, here⟩
      · exact Or.inl (absent.mono kept)
      · cases isCall
        exact Or.inl (erased here (endsReservation_of_terminal terminal))
    · exact Or.inr ⟨_, goesOn, own, rfl⟩
  · rw [same made isNext]
    exact terminal
  · refine (heard.listens made isMade ownMade).mono ?_ ?_
    · rw [ownMade]
      exact live
    · rw [named made isMade ownMade]
      exact kept
  · rcases counts with same | ⟨ends, _⟩
    · rw [same] at once
      exact heard.handled once (live present)
    · exact returned ends terminal present

end Hearing

end Threads

end CryptoTrading
