import CryptoTrading.TradingEngine.FillMeasure
import CryptoTrading.TradingEngine.Threads

/-! # What one step of the threads can do

A step of a pass only moves the pass on and may start a call, a turn of a call
applies its report at most once, and everything the threads hold about an order
agrees with the exchange. -/
set_option autoImplicit false

namespace CryptoTrading

open TradingEngine

namespace Threads

section Current
variable (state : Threads) (call : Option OrderUpdate) (thread : Thread)

@[simp] theorem engine_setCurrent : (state.setCurrent call thread).engine = state.engine := by
  cases thread <;> rfl

@[simp] theorem exchange_setCurrent : (state.setCurrent call thread).exchange = state.exchange := by
  cases thread <;> rfl

@[simp] theorem wire_setCurrent : (state.setCurrent call thread).wire = state.wire := by
  cases thread <;> rfl

@[simp] theorem pass_setCurrent : (state.setCurrent call thread).pass = state.pass := by
  cases thread <;> rfl

@[simp] theorem current_setCurrent : (state.setCurrent call thread).current thread = call := by
  cases thread <;> rfl

theorem current_setCurrent_of_ne {other : Thread} (different : other ≠ thread) :
    (state.setCurrent call thread).current other = state.current other := by
  cases thread <;> cases other <;> first | rfl | exact absurd rfl different

end Current

/-! ## The kinds of step -/

inductive Moves (registry : InstrumentRegistry) (state : Threads) :
    ThreadAction → Threads → Prop where
  | publish (entry : PendingOrderInfo) (legal : Publishable state.exchange entry) :
      Moves registry state (.publish entry)
        { state with
          exchange := state.exchange.insert entry.report.orderId entry
          wire := state.wire ++ [entry] }
  | record (clientOrderId : String) (reservation : ReservationInfo)
      (unsent : Unsent state.exchange clientOrderId) :
      Moves registry state (.record clientOrderId reservation)
        { state with
          engine := { state.engine with
            clientOrderIdToReservation :=
              state.engine.clientOrderIdToReservation.insert clientOrderId reservation } }
  | receive (entry : PendingOrderInfo) (rest : List PendingOrderInfo)
      (free : state.listener = none) (head : state.wire = entry :: rest) :
      Moves registry state .receive
        { state with
          wire := rest
          listener := some { report := entry.report, clientOrderId := entry.clientOrderId } }
  | update (thread : Thread) (call : OrderUpdate) (engine : TradingEngine)
      (later : Option OrderUpdate) (current : state.current thread = some call)
      (ran : call.step registry state.engine = some (engine, later)) :
      Moves registry state (.update thread)
        ({ state with engine := engine }.setCurrent later thread)
  | reconcile (action : PassAction) (pass : Pass) (call : Option OrderUpdate)
      (free : state.reconciler = none)
      (ran : passStep state.engine state.exchange state.pass action = some (pass, call)) :
      Moves registry state (.reconcile action) { state with pass := pass, reconciler := call }

theorem moves_of_step {registry : InstrumentRegistry} {state next : Threads}
    {action : ThreadAction} (ran : step registry state action = some next) :
    Moves registry state action next := by
  cases action with
  | publish entry =>
      obtain ⟨legal, result⟩ := Option.ite_none_right_eq_some.mp ran
      cases result
      exact Moves.publish entry legal
  | record clientOrderId reservation =>
      obtain ⟨unsent, result⟩ := Option.ite_none_right_eq_some.mp ran
      cases result
      exact Moves.record clientOrderId reservation unsent
  | receive =>
      simp only [step] at ran
      split at ran
      · next entry rest free head =>
          cases ran
          exact Moves.receive entry rest free head
      · cases ran
  | update thread =>
      simp only [step] at ran
      split at ran
      · cases ran
      · next call current =>
          obtain ⟨⟨engine, later⟩, moved, rfl⟩ := Option.map_eq_some_iff.mp ran
          exact Moves.update thread call engine later current moved
  | reconcile action =>
      obtain ⟨free, moved⟩ := Option.ite_none_right_eq_some.mp ran
      obtain ⟨⟨pass, call⟩, passed, rfl⟩ := Option.map_eq_some_iff.mp moved
      exact Moves.reconcile action pass call free passed

/-! ## The lock scopes of a call -/

inductive Scope (registry : InstrumentRegistry) (engine : TradingEngine) (call : OrderUpdate) :
    TradingEngine → Option OrderUpdate → Prop where
  | notLive (point : call.point = .checkLive) (notNew : call.report.status ≠ .new)
      (named : call.clientOrderId ≠ "")
      (absent : call.report.orderId ∉ engine.liveOrderInstruments) :
      Scope registry engine call engine (some (call.goto .checkReservation))
  | live (point : call.point = .checkLive) :
      Scope registry engine call engine (some (call.goto .updateLive))
  | recorded (point : call.point = .checkReservation)
      (present : call.clientOrderId ∈ engine.clientOrderIdToReservation) :
      Scope registry engine call engine (some (call.goto .recoverPositions))
  | unrecorded (point : call.point = .checkReservation) :
      Scope registry engine call engine (some (call.goto .updateLive))
  | recoverPositions (point : call.point = .recoverPositions) (pm : PositionManager)
      (same : PositionManager.SameFills engine.positionManager pm) :
      Scope registry engine call (engine.setPositions pm) (some (call.goto .recoverLive))
  | recoverLive (point : call.point = .recoverLive) :
      Scope registry engine call (engine.insertLive call.report.orderId call.report.instrument)
        (some (call.goto .updateLive))
  | duplicate (point : call.point = .updateLive) (cancelled : call.report.status = .cancelled)
      (absent : call.report.orderId ∉ engine.liveOrderInstruments) :
      Scope registry engine call engine none
  | updateLive (point : call.point = .updateLive)
      (fresh : engine.isDuplicateCancel call.report = false) :
      Scope registry engine call (engine.updateLiveOrders call.report)
        (some (call.goto .eraseReservation))
  | eraseReservation (point : call.point = .eraseReservation) :
      Scope registry engine call (engine.eraseReservation call.report call.clientOrderId)
        (some (call.goto .applyReport))
  | applyReport (point : call.point = .applyReport) (pm : PositionManager)
      (ran : TradingEngine.applyReport registry engine.positionManager call.report = some pm) :
      Scope registry engine call (engine.setPositions pm) (some (call.goto .pushReport))
  | pushReport (point : call.point = .pushReport) :
      Scope registry engine call (engine.pushReport call.report) none

theorem scope_of_step {registry : InstrumentRegistry} {engine after : TradingEngine}
    {call : OrderUpdate} {later : Option OrderUpdate}
    (ran : call.step registry engine = some (after, later)) :
    Scope registry engine call after later := by
  rw [OrderUpdate.step] at ran
  cases point : call.point <;> simp only [point] at ran
  case checkLive =>
    split at ran
    · next unseen =>
        cases ran
        exact Scope.notLive point unseen.1 unseen.2.1 unseen.2.2
    · cases ran
      exact Scope.live point
  case checkReservation =>
    split at ran
    · next present =>
        cases ran
        exact Scope.recorded point present
    · cases ran
      exact Scope.unrecorded point
  case recoverPositions =>
    obtain ⟨recovered, moved, same⟩ := Option.map_eq_some_iff.mp ran
    cases same
    rw [TradingEngine.recoverPositions] at moved
    split at moved
    · obtain ⟨pm, locked, same⟩ := Option.map_eq_some_iff.mp moved
      cases same
      exact Scope.recoverPositions point pm (PositionManager.updateSpotOnNew_sameFills locked)
    · cases moved
      exact Scope.recoverPositions point engine.positionManager (PositionManager.SameFills.refl _)
  case recoverLive =>
    cases ran
    exact Scope.recoverLive point
  case updateLive =>
    split at ran
    · next duplicate =>
        cases ran
        simp only [isDuplicateCancel, decide_eq_true_eq] at duplicate
        exact Scope.duplicate point duplicate.1 duplicate.2
    · next fresh =>
        cases ran
        exact Scope.updateLive point (Bool.eq_false_iff.mpr fresh)
  case eraseReservation =>
    cases ran
    exact Scope.eraseReservation point
  case applyReport =>
    obtain ⟨pm, moved, same⟩ := Option.map_eq_some_iff.mp ran
    cases same
    exact Scope.applyReport point pm moved
  case pushReport =>
    cases ran
    exact Scope.pushReport point

theorem same_call {registry : InstrumentRegistry} {engine after : TradingEngine}
    {call later : OrderUpdate} (ran : call.step registry engine = some (after, some later)) :
    later.report = call.report ∧ later.clientOrderId = call.clientOrderId := by
  cases scope_of_step ran <;> exact ⟨rfl, rfl⟩

/-! ## A step of a pass -/

end Threads

namespace Pass

def remote : Pass → List PendingOrderInfo
  | .idle => []
  | .askedSpot remote => remote
  | .asked remote => remote
  | .orphans remote _ => remote
  | .missedNews remote _ => remote

def orphanIds : Pass → List String
  | .orphans _ rest => rest.map Prod.fst
  | .idle => []
  | .askedSpot _ => []
  | .asked _ => []
  | .missedNews _ _ => []

end Pass

/-- The calls a pass makes: the state of an ended orphan, or a NEW made from the
state of a pending order that is not live. -/
inductive PassCall (engine : TradingEngine) (exchange : Exchange) (pass : Pass) :
    OrderUpdate → Prop where
  | replay (info : PendingOrderInfo) (orphan : info.report.orderId ∈ pass.orphanIds)
      (truth : TrueAnswer exchange info) (ended : isPending info.report.status = false) :
      PassCall engine exchange pass { report := info.report, clientOrderId := info.clientOrderId }
  | missedNew (info : PendingOrderInfo) (member : info ∈ pass.remote)
      (unseen : info.report.orderId ∉ engine.liveOrderInstruments) :
      PassCall engine exchange pass
        { report := asNew info.report, clientOrderId := info.clientOrderId }

structure PassStepEffect (engine : TradingEngine) (exchange : Exchange) (pass next : Pass)
    (call : Option OrderUpdate) : Prop where
  remote : ∀ info ∈ next.remote, info ∈ pass.remote ∨ TrueAnswer exchange info
  orphanIds : ∀ id ∈ next.orphanIds, id ∈ pass.orphanIds ∨ id ∈ engine.liveOrderInstruments
  call : ∀ made ∈ call, PassCall engine exchange pass made

theorem replayCall_some {answer : Option PendingOrderInfo} {made : OrderUpdate}
    (isMade : made ∈ replayCall answer) :
    ∃ info ∈ answer, isPending info.report.status = false ∧
      made = { report := info.report, clientOrderId := info.clientOrderId } := by
  cases answer with
  | none => cases isMade
  | some info =>
      simp only [replayCall] at isMade
      split at isMade
      · cases isMade
      · next ended =>
          cases isMade
          exact ⟨info, rfl, Bool.eq_false_iff.mpr ended, rfl⟩

theorem missedNewCall_some {engine : TradingEngine} {remote : List PendingOrderInfo}
    {clientOrderId : String} {made : OrderUpdate}
    (isMade : made ∈ missedNewCall engine remote clientOrderId) :
    ∃ info ∈ remote, info.report.orderId ∉ engine.liveOrderInstruments ∧
      made = { report := asNew info.report, clientOrderId := info.clientOrderId } := by
  rw [missedNewCall] at isMade
  split at isMade
  · cases isMade
  · next report found =>
      obtain ⟨info, member, named, -, same⟩ :=
        (lookup_remoteByClientOrderId remote clientOrderId).1 report found
      split at isMade
      · cases isMade
      · next unseen =>
          cases isMade
          subst named same
          exact ⟨info, member, unseen, rfl⟩

theorem replayCall_made {engine : TradingEngine} {exchange : Exchange} {pass : Pass}
    {answer : Option PendingOrderInfo}
    (orphan : ∀ info ∈ answer, info.report.orderId ∈ pass.orphanIds ∧ TrueAnswer exchange info) :
    ∀ made ∈ replayCall answer, PassCall engine exchange pass made := by
  intro made isMade
  obtain ⟨info, answered, ended, rfl⟩ := replayCall_some isMade
  obtain ⟨member, truth⟩ := orphan info answered
  exact PassCall.replay info member truth ended

theorem missedNewCall_made {engine : TradingEngine} {exchange : Exchange} (pass : Pass)
    (clientOrderId : String) :
    ∀ made ∈ missedNewCall engine pass.remote clientOrderId,
      PassCall engine exchange pass made := by
  intro made isMade
  obtain ⟨info, member, unseen, rfl⟩ := missedNewCall_some isMade
  exact PassCall.missedNew info member unseen

theorem passStep_effect {engine : TradingEngine} {exchange : Exchange} {pass next : Pass}
    {action : PassAction} {call : Option OrderUpdate}
    (ran : passStep engine exchange pass action = some (next, call)) :
    PassStepEffect engine exchange pass next call := by
  have noCall : ∀ made ∈ (none : Option OrderUpdate), PassCall engine exchange pass made :=
    fun made isMade => nomatch isMade
  have noOrphans : ∀ id ∈ ([] : List String), id ∈ pass.orphanIds ∨
      id ∈ engine.liveOrderInstruments := fun id member => nomatch member
  have kept : ∀ info ∈ pass.remote, info ∈ pass.remote ∨ TrueAnswer exchange info :=
    fun info member => Or.inl member
  unfold passStep at ran
  split at ran
  · next answer =>
      obtain ⟨truth, result⟩ := Option.ite_none_right_eq_some.mp ran
      cases result
      exact ⟨fun info member => Or.inr (truth info member).1, noOrphans, noCall⟩
  · next remote answer =>
      obtain ⟨truth, result⟩ := Option.ite_none_right_eq_some.mp ran
      cases result
      refine ⟨fun info member => ?_, noOrphans, noCall⟩
      rcases List.mem_append.mp member with before | answered
      · exact Or.inl before
      · exact Or.inr (truth info answered).1
  · next remote ids =>
      obtain ⟨walks, result⟩ := Option.ite_none_right_eq_some.mp ran
      cases result
      refine ⟨kept, fun id member => Or.inr ?_, noCall⟩
      obtain ⟨orphan, isOrphan, rfl⟩ := List.mem_map.mp member
      exact Finmap.mem_of_lookup_eq_some (mem_orphans.mp isOrphan).2.2
  · next remote orphan rest answer =>
      obtain ⟨truth, result⟩ := Option.ite_none_right_eq_some.mp ran
      cases result
      refine ⟨kept, fun id member => Or.inl (List.mem_cons_of_mem _ member),
        replayCall_made fun info answered => ?_⟩
      obtain ⟨same, isTrue⟩ := truth info answered
      rw [same]
      exact ⟨List.mem_cons_self, isTrue⟩
  · next remote ids =>
      obtain ⟨walks, result⟩ := Option.ite_none_right_eq_some.mp ran
      cases result
      exact ⟨kept, noOrphans, noCall⟩
  · next remote clientOrderId rest =>
      cases ran
      exact ⟨kept, noOrphans, missedNewCall_made (.missedNews remote _) clientOrderId⟩
  · next remote =>
      cases ran
      exact ⟨(fun info member => nomatch member), noOrphans, noCall⟩
  · cases ran

/-! ## Agreement with the exchange -/

def Known (exchange : Exchange) (report : ExecutionReport) (clientOrderId : String) : Prop :=
  ∃ entry, exchange.lookup report.orderId = some entry ∧
    Threads.identity entry.report = Threads.identity report ∧ entry.clientOrderId = clientOrderId

theorem Known.placed {exchange : Exchange} {report : ExecutionReport} {clientOrderId : String}
    (known : Known exchange report clientOrderId) : report.orderId ∈ exchange := by
  obtain ⟨entry, found, _⟩ := known
  exact Finmap.mem_of_lookup_eq_some found

theorem TrueAnswer.known {exchange : Exchange} {answer : PendingOrderInfo}
    (truth : TrueAnswer exchange answer) :
    Known exchange answer.report answer.clientOrderId := by
  unfold TrueAnswer at truth
  split at truth
  · exact truth.elim
  · next entry found =>
      refine ⟨entry, found, ?_, truth.2.symm⟩
      rw [← truth.1]
      rfl

theorem PassCall.known {engine : TradingEngine} {exchange : Exchange} {pass : Pass}
    {call : OrderUpdate} (made : PassCall engine exchange pass call)
    (remote : ∀ info ∈ pass.remote, Known exchange info.report info.clientOrderId) :
    Known exchange call.report call.clientOrderId := by
  cases made with
  | replay info orphan truth ended => exact truth.known
  | missedNew info member unseen => exact remote info member

namespace Threads

/-- Whatever a thread or the wire holds about an order agrees with the exchange. -/
structure Agrees (orderId : String) (state : Threads) : Prop where
  keyed : ∀ {entry}, state.exchange.lookup orderId = some entry → entry.report.orderId = orderId
  wire : ∀ info ∈ state.wire, Known state.exchange info.report info.clientOrderId
  calls : ∀ thread, ∀ call ∈ state.current thread,
    Known state.exchange call.report call.clientOrderId
  remote : ∀ info ∈ state.pass.remote, Known state.exchange info.report info.clientOrderId

section Agreement
variable {registry : InstrumentRegistry} {state next : Threads}

theorem known_publish {exchange : Exchange} {entry : PendingOrderInfo}
    (legal : Publishable exchange entry) {report : ExecutionReport} {clientOrderId : String}
    (known : Known exchange report clientOrderId) :
    Known (exchange.insert entry.report.orderId entry) report clientOrderId := by
  obtain ⟨before, found, same, named⟩ := known
  unfold Publishable at legal
  by_cases here : report.orderId = entry.report.orderId
  · rw [← here, found] at legal
    obtain ⟨_, sameClient, sameOrder, _⟩ := legal
    refine ⟨entry, ?_, sameOrder.trans same, sameClient.trans named⟩
    rw [UnorderedMap.lookup_insert_ite, if_pos here]
  · exact ⟨before, by rw [UnorderedMap.lookup_insert_ite, if_neg here, found], same, named⟩

theorem Agrees.step {orderId : String} {action : ThreadAction} (agrees : Agrees orderId state)
    (ran : Threads.step registry state action = some next) : Agrees orderId next := by
  cases moves_of_step ran with
  | publish entry legal =>
      refine ⟨fun {found} lookup => ?_, fun info member => ?_, fun thread call current => ?_,
        fun info member => known_publish legal (agrees.remote info member)⟩
      · rw [UnorderedMap.lookup_insert_ite] at lookup
        split at lookup
        · next here =>
            cases lookup
            exact here.symm
        · exact agrees.keyed lookup
      · rcases List.mem_append.mp member with before | published
        · exact known_publish legal (agrees.wire info before)
        · rw [List.mem_singleton.mp published]
          exact ⟨entry, by rw [UnorderedMap.lookup_insert_ite, if_pos rfl], rfl, rfl⟩
      · cases thread with
        | listener => exact known_publish legal (agrees.calls .listener call current)
        | reconciler => exact known_publish legal (agrees.calls .reconciler call current)
  | record clientOrderId reservation unsent =>
      refine ⟨agrees.keyed, agrees.wire, fun thread => ?_, agrees.remote⟩
      cases thread with
      | listener => exact agrees.calls .listener
      | reconciler => exact agrees.calls .reconciler
  | receive entry rest free head =>
      have wire := agrees.wire
      rw [head] at wire
      refine ⟨agrees.keyed, fun info member => wire info (List.mem_cons_of_mem _ member),
        fun thread call current => ?_, agrees.remote⟩
      cases thread with
      | listener =>
          cases current
          exact wire entry List.mem_cons_self
      | reconciler => exact agrees.calls .reconciler call current
  | update thread call engine later current moved =>
      refine ⟨?_, ?_, fun other made isMade => ?_, ?_⟩
      · rw [exchange_setCurrent]
        exact agrees.keyed
      · rw [wire_setCurrent, exchange_setCurrent]
        exact agrees.wire
      · rw [exchange_setCurrent]
        by_cases same : other = thread
        · subst same
          rw [current_setCurrent] at isMade
          cases isMade
          obtain ⟨sameReport, sameClient⟩ := same_call moved
          rw [sameReport, sameClient]
          exact agrees.calls other call current
        · rw [current_setCurrent_of_ne _ _ _ same] at isMade
          exact agrees.calls other made (by cases other <;> exact isMade)
      · rw [pass_setCurrent, exchange_setCurrent]
        exact agrees.remote
  | reconcile action pass call free moved =>
      have effect := passStep_effect moved
      refine ⟨agrees.keyed, agrees.wire, fun thread made isMade => ?_, fun info member => ?_⟩
      · cases thread with
        | listener => exact agrees.calls .listener made isMade
        | reconciler => exact (effect.call made isMade).known agrees.remote
      · rcases effect.remote info member with before | truth
        · exact agrees.remote info before
        · exact truth.known

end Agreement

/-! ## The reports a call has still to apply -/

def unapplied (orderId : String) (call : Option OrderUpdate) : List ExecutionReport :=
  match call with
  | none => []
  | some call =>
      if call.report.orderId = orderId ∧ call.point ≠ .pushReport then [call.report] else []

/-- The reports of the order that the listener has still to apply. -/
def awaited (orderId : String) (state : Threads) : List ExecutionReport :=
  unapplied orderId state.listener ++
    (state.wire.map PendingOrderInfo.report).filter fun report => report.orderId = orderId

inductive Turn (registry : InstrumentRegistry) (engine after : TradingEngine)
    (call : OrderUpdate) : Option OrderUpdate → Prop where
  | kept (point : UpdatePoint) (before : call.point ≠ .applyReport ∧ call.point ≠ .pushReport)
      (notPushed : point ≠ .pushReport)
      (same : PositionManager.SameFills engine.positionManager after.positionManager) :
      Turn registry engine after call (some (call.goto point))
  | applied (here : call.point = .applyReport)
      (ran : applyReport registry engine.positionManager call.report =
        some after.positionManager) :
      Turn registry engine after call (some (call.goto .pushReport))
  | dropped (here : call.point = .updateLive) (cancelled : call.report.status = .cancelled)
      (same : PositionManager.SameFills engine.positionManager after.positionManager) :
      Turn registry engine after call none
  | pushed (here : call.point = .pushReport)
      (same : PositionManager.SameFills engine.positionManager after.positionManager) :
      Turn registry engine after call none

theorem turn_of_step {registry : InstrumentRegistry} {engine after : TradingEngine}
    {call : OrderUpdate} {later : Option OrderUpdate}
    (ran : call.step registry engine = some (after, later)) :
    Turn registry engine after call later := by
  have unchanged := PositionManager.SameFills.refl engine.positionManager
  cases scope_of_step ran with
  | notLive point | live point | recorded point | unrecorded point | recoverLive point =>
      exact Turn.kept _ (by simp [point]) (by decide) unchanged
  | recoverPositions point pm same => exact Turn.kept _ (by simp [point]) (by decide) same
  | duplicate point cancelled => exact Turn.dropped point cancelled unchanged
  | updateLive point =>
      refine Turn.kept _ (by simp [point]) (by decide) ?_
      rw [positionManager_updateLiveOrders]
      exact unchanged
  | eraseReservation point =>
      refine Turn.kept _ (by simp [point]) (by decide) ?_
      rw [positionManager_eraseReservation]
      exact unchanged
  | applyReport point pm moved => exact Turn.applied point moved
  | pushReport point =>
      refine Turn.pushed point ?_
      rw [positionManager_pushReport]
      exact unchanged

theorem unapplied_none (orderId : String) : unapplied orderId none = [] := rfl

theorem unapplied_of_ne {orderId : String} {call : OrderUpdate}
    (other : call.report.orderId ≠ orderId) : unapplied orderId (some call) = [] :=
  if_neg fun own => other own.1

theorem unapplied_of_pushed {orderId : String} {call : OrderUpdate}
    (pushed : call.point = .pushReport) : unapplied orderId (some call) = [] :=
  if_neg fun own => own.2 pushed

theorem unapplied_of_own {orderId : String} {call : OrderUpdate}
    (own : call.report.orderId = orderId) (point : call.point ≠ .pushReport) :
    unapplied orderId (some call) = [call.report] :=
  if_pos ⟨own, point⟩

/-- A turn of a call either leaves what is still to apply, or ends it: by
applying the report, or because it is a duplicate cancel. -/
theorem Turn.unapplied {registry : InstrumentRegistry} {engine after : TradingEngine}
    {call : OrderUpdate} {later : Option OrderUpdate} (turn : Turn registry engine after call later)
    (orderId : String) :
    (Threads.unapplied orderId later = Threads.unapplied orderId (some call) ∧
        call.point ≠ .applyReport ∧
        PositionManager.SameFills engine.positionManager after.positionManager) ∨
      (Threads.unapplied orderId later = [] ∧ call.point ≠ .pushReport ∧
        (call.point = .applyReport ∧
            TradingEngine.applyReport registry engine.positionManager call.report =
              some after.positionManager ∨
          call.point = .updateLive ∧ call.report.status = .cancelled ∧
            PositionManager.SameFills engine.positionManager after.positionManager)) := by
  cases turn with
  | kept point before notPushed same =>
      left
      refine ⟨?_, before.1, same⟩
      by_cases own : call.report.orderId = orderId
      · rw [unapplied_of_own own before.2]
        exact unapplied_of_own own notPushed
      · rw [unapplied_of_ne own]
        exact unapplied_of_ne own
  | applied here ran =>
      right
      exact ⟨unapplied_of_pushed rfl, by rw [here]; decide, Or.inl ⟨here, ran⟩⟩
  | dropped here cancelled same =>
      right
      exact ⟨rfl, by rw [here]; decide, Or.inr ⟨here, cancelled, same⟩⟩
  | pushed here same =>
      left
      exact ⟨(unapplied_of_pushed here).symm, by rw [here]; decide, same⟩

section Waiting
variable {registry : InstrumentRegistry} {orderId : String} {state : Threads}

theorem Turn.frame {engine after : TradingEngine} {call : OrderUpdate}
    {later : Option OrderUpdate} (turn : Turn registry engine after call later) :
    PositionManager.ReportFrame engine.positionManager after.positionManager call.report := by
  cases turn with
  | kept point before notPushed same => exact same.frame call.report
  | applied here ran => exact PositionManager.applyReport_frame ran
  | dropped here cancelled same => exact same.frame call.report
  | pushed here same => exact same.frame call.report

theorem awaited_listenerTurn {engine after : TradingEngine} {call : OrderUpdate}
    {later : Option OrderUpdate} (turn : Turn registry engine after call later)
    (listening : state.listener = some call) :
    awaited orderId { state with engine := after, listener := later } = awaited orderId state ∨
      call.report.orderId = orderId ∧ awaited orderId state =
        call.report :: awaited orderId { state with engine := after, listener := later } := by
  rw [awaited, awaited, listening]
  rcases turn.unapplied orderId with ⟨same, _⟩ | ⟨gone, notPushed, _⟩
  · left
    rw [same]
  · by_cases own : call.report.orderId = orderId
    · right
      refine ⟨own, ?_⟩
      rw [unapplied_of_own own notPushed, gone]
      rfl
    · left
      rw [unapplied_of_ne own, gone]

/-- A turn that leaves its call with the same report to apply, or with none of
the order's, leaves what both threads have to apply. -/
theorem waiting_setCurrent {thread : Thread} {call : OrderUpdate} {later : Option OrderUpdate}
    (engine : TradingEngine) (current : state.current thread = some call)
    (same : unapplied orderId later = unapplied orderId (some call)) :
    awaited orderId ({ state with engine := engine }.setCurrent later thread) =
        awaited orderId state ∧
      unapplied orderId ({ state with engine := engine }.setCurrent later thread).reconciler =
        unapplied orderId state.reconciler := by
  cases thread with
  | listener =>
      have listening : state.listener = some call := current
      refine ⟨?_, rfl⟩
      rw [awaited, awaited, listening, ← same]
      rfl
  | reconciler =>
      have replaying : state.reconciler = some call := current
      refine ⟨rfl, ?_⟩
      rw [replaying, ← same]
      rfl

theorem mem_unapplied {call : Option OrderUpdate} {report : ExecutionReport}
    (member : report ∈ unapplied orderId call) :
    ∃ made ∈ call, made.report = report ∧ report.orderId = orderId := by
  cases call with
  | none => cases member
  | some call =>
      rw [unapplied] at member
      split at member
      · next own =>
          rw [List.mem_singleton.mp member]
          exact ⟨call, rfl, rfl, own.1⟩
      · cases member

theorem Settled.idle (settled : Settled orderId state) :
    awaited orderId state = [] ∧ ∀ thread, unapplied orderId (state.current thread) = [] := by
  have calls : ∀ thread, unapplied orderId (state.current thread) = [] := by
    intro thread
    refine List.eq_nil_iff_forall_not_mem.mpr fun report member => ?_
    obtain ⟨made, current, rfl, own⟩ := mem_unapplied member
    exact settled.calls thread made current own
  refine ⟨?_, calls⟩
  rw [awaited, show unapplied orderId state.listener = [] from calls .listener, List.nil_append,
    List.filter_eq_nil_iff]
  intro report member
  obtain ⟨info, sent, rfl⟩ := List.mem_map.mp member
  simpa using settled.wire info sent

theorem Agrees.settled (agrees : Agrees orderId state) (unplaced : orderId ∉ state.exchange) :
    Settled orderId state where
  wire info sent own := by
    rw [← own] at unplaced
    exact unplaced (agrees.wire info sent).placed
  calls thread call current own := by
    rw [← own] at unplaced
    exact unplaced (agrees.calls thread call current).placed

theorem awaited_publish (entry : PendingOrderInfo) (exchange : Exchange) :
    awaited orderId { state with exchange := exchange, wire := state.wire ++ [entry] } =
      awaited orderId state ++
        if entry.report.orderId = orderId then [entry.report] else [] := by
  rw [awaited, awaited, List.map_append, List.filter_append, List.append_assoc]
  by_cases own : entry.report.orderId = orderId <;> simp [own]

theorem awaited_receive (orderId : String) {entry : PendingOrderInfo} {rest : List PendingOrderInfo}
    (free : state.listener = none) (head : state.wire = entry :: rest) :
    awaited orderId { state with
      wire := rest
      listener := some { report := entry.report, clientOrderId := entry.clientOrderId } } =
      awaited orderId state := by
  rw [awaited, awaited, free, head, unapplied_none, List.nil_append, List.map_cons]
  by_cases own : entry.report.orderId = orderId
  · simp [unapplied, own]
  · simp [unapplied, own]

theorem Begun.agrees (begun : Begun orderId state) : Agrees orderId state := by
  refine ⟨fun found => absurd (Finmap.mem_of_lookup_eq_some found) begun.unplaced, ?_, ?_, ?_⟩
  · simp [begun.wire]
  · intro thread call current
    cases thread with
    | listener => simp [Threads.current, begun.listener] at current
    | reconciler => simp [Threads.current, begun.reconciler] at current
  · simp [begun.pass, Pass.remote]

end Waiting

/-! ## An order of 2 and its FILLED -/

def spotNew : PendingOrderInfo :=
  { report :=
      { orderId := "9", instrument := "BTC-USDT", price := 100, totalVolume := 2 }
    clientOrderId := "cts1" }

def spotFilled : PendingOrderInfo :=
  { spotNew with
    report := { spotNew.report with status := .filled, filledVolume := 2, avgFillPrice := 100 } }

theorem begun_empty (orderId : String) : Begun orderId {} :=
  ⟨Finmap.notMem_empty, Finmap.notMem_empty, rfl, rfl, fun _ _ => le_refl 0, rfl, rfl, rfl, rfl⟩

theorem settled_of_quiet {orderId : String} {state : Threads}
    (quiet : (state.wire, state.listener, state.reconciler) = ([], none, none)) :
    Settled orderId state := by
  obtain ⟨wire, listener, reconciler⟩ : state.wire = [] ∧ state.listener = none ∧
      state.reconciler = none := by simpa using quiet
  refine ⟨by simp [wire], fun thread call current => ?_⟩
  cases thread with
  | listener => simp [Threads.current, listener] at current
  | reconciler => simp [Threads.current, reconciler] at current

end Threads

end CryptoTrading
