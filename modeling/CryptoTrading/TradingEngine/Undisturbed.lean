import CryptoTrading.TradingEngine.EngineSpec
import CryptoTrading.TradingEngine.ThreadsSpec

/-! # A thread that nothing disturbs

Taken one after the other, the lock scopes of a call do what `HandleOrderUpdate`
does as one function, and the steps of a pass do what `reconcileOrders` does. -/
set_option autoImplicit false

namespace CryptoTrading

open TradingEngine

/-! ## The scopes of a call -/

namespace OrderUpdate

/-- Taken one after the other, the scopes that are left of a call lead from one
engine to the other. -/
inductive Completes (registry : InstrumentRegistry) :
    OrderUpdate → TradingEngine → TradingEngine → Prop
  | last {call : OrderUpdate} {engine after : TradingEngine}
      (ran : call.step registry engine = some (after, none)) : Completes registry call engine after
  | next {call later : OrderUpdate} {engine middle after : TradingEngine}
      (ran : call.step registry engine = some (middle, some later))
      (rest : Completes registry later middle after) : Completes registry call engine after

section Scopes
variable {registry : InstrumentRegistry} {engine after : TradingEngine}
  {report : ExecutionReport} {clientOrderId : String}

theorem completes_finishUpdate
    (ran : engine.finishUpdate registry report clientOrderId = some after) :
    Completes registry { report := report, clientOrderId := clientOrderId, point := .updateLive }
      engine after := by
  rw [finishUpdate] at ran
  split at ran
  · next duplicate =>
      cases ran
      exact .last (if_pos duplicate)
  · next fresh =>
      obtain ⟨pm, applied, rfl⟩ := Option.map_eq_some_iff.mp ran
      have moves : OrderUpdate.step registry
          ((engine.updateLiveOrders report).eraseReservation report clientOrderId)
          { report := report, clientOrderId := clientOrderId, point := .applyReport } =
            some (((engine.updateLiveOrders report).eraseReservation report
              clientOrderId).setPositions pm,
              some { report := report, clientOrderId := clientOrderId, point := .pushReport }) := by
        simp only [OrderUpdate.step, positionManager_eraseReservation,
          positionManager_updateLiveOrders, applied, Option.map_some]
        rfl
      exact .next (if_neg fresh) (.next rfl (.next moves (.last rfl)))

/-- The scopes do together what `HandleOrderUpdate` does as one function. -/
theorem completes_handleOrderUpdate
    (ran : engine.handleOrderUpdate registry report clientOrderId = some after) :
    Completes registry { report := report, clientOrderId := clientOrderId } engine after := by
  by_cases unseen : report.status ≠ .new ∧ clientOrderId ≠ "" ∧
      report.orderId ∉ engine.liveOrderInstruments
  · refine .next (if_pos unseen) ?_
    by_cases recorded : clientOrderId ∈ engine.clientOrderIdToReservation
    · have needed := needsRecovery_iff.mpr ⟨unseen.1, unseen.2.1, unseen.2.2, recorded⟩
      rw [handleOrderUpdate_of_recovery needed] at ran
      obtain ⟨recovered, moved, finished⟩ := Option.bind_eq_some_iff.mp ran
      have moves : OrderUpdate.step registry engine
          { report := report, clientOrderId := clientOrderId, point := .recoverPositions } =
            some (recovered,
              some
                { report := report, clientOrderId := clientOrderId, point := .recoverLive }) := by
        simp only [OrderUpdate.step, moved, Option.map_some]
        rfl
      have finish : Completes registry
          { report := report, clientOrderId := clientOrderId, point := .recoverLive }
          recovered after :=
        .next rfl (completes_finishUpdate finished)
      exact .next (if_pos recorded) (.next moves finish)
    · have notNeeded : engine.needsRecovery report clientOrderId = false := by
        rw [Bool.eq_false_iff, Ne, needsRecovery_iff]
        exact fun needed => recorded needed.2.2.2
      rw [handleOrderUpdate_of_noRecovery notNeeded] at ran
      exact .next (if_neg recorded) (completes_finishUpdate ran)
  · have notNeeded : engine.needsRecovery report clientOrderId = false := by
      rw [Bool.eq_false_iff, Ne, needsRecovery_iff]
      exact fun needed => unseen ⟨needed.1, needed.2.1, needed.2.2.1⟩
    rw [handleOrderUpdate_of_noRecovery notNeeded] at ran
    exact .next (if_neg unseen) (completes_finishUpdate ran)

end Scopes

end OrderUpdate

namespace Threads

def OfThread (thread : Thread) : ThreadAction → Prop
  | .update other => other = thread
  | .receive => thread = .listener
  | .reconcile _ => thread = .reconciler
  | .publish _ => False
  | .record _ _ => False

def Alone (registry : InstrumentRegistry) (thread : Thread) (before after : Threads) : Prop :=
  ∃ actions, (∀ action ∈ actions, OfThread thread action) ∧
    Runs.run (step registry) before actions = some after

section Undisturbed
variable {registry : InstrumentRegistry} {thread : Thread} {state before middle after : Threads}

theorem Alone.refl : Alone registry thread state state := ⟨[], by simp, rfl⟩

theorem Alone.head {action : ThreadAction} (own : OfThread thread action)
    (ran : step registry before action = some middle) (rest : Alone registry thread middle after) :
    Alone registry thread before after := by
  obtain ⟨actions, owns, ranRest⟩ := rest
  refine ⟨action :: actions, ?_, ?_⟩
  · simpa [own] using owns
  · rw [Runs.run_cons, ran, Option.bind_some, ranRest]

theorem Alone.trans (first : Alone registry thread before middle)
    (second : Alone registry thread middle after) : Alone registry thread before after := by
  obtain ⟨actions, owns, ran⟩ := first
  obtain ⟨others, ownsToo, ranRest⟩ := second
  refine ⟨actions ++ others, ?_, ?_⟩
  · intro action member
    exact (List.mem_append.mp member).elim (owns action) (ownsToo action)
  · rw [Runs.run_append, ran, Option.bind_some, ranRest]

/-! ## A call -/

def Finishes (registry : InstrumentRegistry) (thread : Thread) (state : Threads)
    (engine : TradingEngine) (call : OrderUpdate) (after : TradingEngine) : Prop :=
  Alone registry thread ({ state with engine := engine }.setCurrent (some call) thread)
    ({ state with engine := after }.setCurrent none thread)

theorem step_update {call : OrderUpdate} (current : state.current thread = some call) :
    step registry state (.update thread) =
      (call.step registry state.engine).map fun result =>
        { state with engine := result.1 }.setCurrent result.2 thread := by
  rw [step, current]

theorem finishes_last {engine after : TradingEngine} {call : OrderUpdate}
    (ran : call.step registry engine = some (after, none)) :
    Finishes registry thread state engine call after := by
  refine Alone.head (show OfThread thread (.update thread) from rfl) ?_ Alone.refl
  rw [step_update (current_setCurrent ..), engine_setCurrent, ran]
  cases thread <;> rfl

theorem finishes_next {engine next after : TradingEngine} {call later : OrderUpdate}
    (ran : call.step registry engine = some (next, some later))
    (rest : Finishes registry thread state next later after) :
    Finishes registry thread state engine call after := by
  refine Alone.head (show OfThread thread (.update thread) from rfl) ?_ rest
  rw [step_update (current_setCurrent ..), engine_setCurrent, ran]
  cases thread <;> rfl

theorem finishes_of_completes {engine after : TradingEngine} {call : OrderUpdate}
    (completes : call.Completes registry engine after) :
    Finishes registry thread state engine call after := by
  induction completes with
  | last ran => exact finishes_last ran
  | next ran _ ih => exact finishes_next ran ih

/-- A thread whose call is not interleaved with anything leaves the engine that
`HandleOrderUpdate` leaves. -/
theorem finishes_handleOrderUpdate {engine after : TradingEngine} {report : ExecutionReport}
    {clientOrderId : String}
    (ran : engine.handleOrderUpdate registry report clientOrderId = some after) :
    Finishes registry thread state engine { report := report, clientOrderId := clientOrderId }
      after :=
  finishes_of_completes (OrderUpdate.completes_handleOrderUpdate ran)

/-! ## A pass -/

def resting (state : Threads) (pass : Pass) (engine : TradingEngine) : Threads :=
  { state with engine := engine, pass := pass, reconciler := none }

theorem step_reconcile {engine : TradingEngine} {pass next : Pass} {action : PassAction}
    {call : Option OrderUpdate}
    (ran : passStep engine state.exchange pass action = some (next, call)) :
    step registry (resting state pass engine) (.reconcile action) =
      some ((resting state next engine).setCurrent call .reconciler) := by
  simp only [step, resting, ran, if_true, Option.map_some]
  rfl

def finishCall (registry : InstrumentRegistry) (engine : TradingEngine) :
    Option OrderUpdate → Option TradingEngine
  | none => some engine
  | some call => engine.handleOrderUpdate registry call.report call.clientOrderId

theorem replayTerminal_eq_finishCall (queryOrderById : String → String → Option PendingOrderInfo)
    (engine : TradingEngine) (orphan : String × String) :
    replayTerminal registry queryOrderById engine orphan =
      finishCall registry engine (replayCall (queryOrderById orphan.2 orphan.1)) := by
  rw [replayTerminal]
  cases queryOrderById orphan.2 orphan.1 with
  | none => rfl
  | some answer =>
      simp only [replayCall]
      split <;> rfl

theorem replayMissedNew_eq_finishCall (remote : List PendingOrderInfo) (engine : TradingEngine)
    (clientOrderId : String) :
    replayMissedNew registry (remoteByClientOrderId remote) engine clientOrderId =
      finishCall registry engine (missedNewCall engine remote clientOrderId) := by
  rw [replayMissedNew, missedNewCall]
  cases (remoteByClientOrderId remote).lookup clientOrderId with
  | none => rfl
  | some report =>
      dsimp only
      split <;> rfl

theorem alone_turn {engine finished : TradingEngine} {pass next : Pass} {action : PassAction}
    {call : Option OrderUpdate}
    (ran : passStep engine state.exchange pass action = some (next, call))
    (handled : finishCall registry engine call = some finished) :
    Alone registry .reconciler (resting state pass engine) (resting state next finished) := by
  have own : OfThread .reconciler (.reconcile action) := rfl
  refine Alone.head own (step_reconcile ran) ?_
  cases call with
  | none =>
      cases handled
      exact Alone.refl
  | some made =>
      have calls : ∀ call : OrderUpdate, call.point = .checkLive →
          engine.handleOrderUpdate registry call.report call.clientOrderId = some finished →
          Finishes registry .reconciler (resting state next engine) engine call finished := by
        rintro ⟨report, clientOrderId, point⟩ start handled
        cases start
        exact finishes_handleOrderUpdate handled
      cases (passStep_effect ran).call made rfl with
      | replay info _ _ _ => exact calls _ rfl handled
      | missedNew info _ _ => exact calls _ rfl handled

theorem alone_replayTerminal {queryOrderById : String → String → Option PendingOrderInfo}
    (answers : ∀ orphan : String × String, ∀ info ∈ queryOrderById orphan.2 orphan.1,
      info.report.orderId = orphan.1 ∧ TrueAnswer state.exchange info)
    (remote : List PendingOrderInfo) (orphanList : List (String × String)) :
    ∀ {engine finished : TradingEngine},
      Runs.run (replayTerminal registry queryOrderById) engine orphanList = some finished →
      Alone registry .reconciler (resting state (.orphans remote orphanList) engine)
        (resting state (.orphans remote []) finished) := by
  induction orphanList with
  | nil =>
      intro engine finished ran
      cases ran
      exact Alone.refl
  | cons orphan rest ih =>
      intro engine finished ran
      obtain ⟨middle, turned, ranRest⟩ := Runs.run_cons_some _ ran
      rw [replayTerminal_eq_finishCall] at turned
      have queried : passStep engine state.exchange (.orphans remote (orphan :: rest))
          (.queryOrder (queryOrderById orphan.2 orphan.1)) =
            some (.orphans remote rest, replayCall (queryOrderById orphan.2 orphan.1)) :=
        if_pos (answers orphan)
      exact (alone_turn queried turned).trans (ih ranRest)

theorem alone_replayMissedNew (remote : List PendingOrderInfo) (clientOrderIds : List String) :
    ∀ {engine finished : TradingEngine},
      Runs.run (replayMissedNew registry (remoteByClientOrderId remote)) engine clientOrderIds =
        some finished →
      Alone registry .reconciler (resting state (.missedNews remote clientOrderIds) engine)
        (resting state (.missedNews remote []) finished) := by
  induction clientOrderIds with
  | nil =>
      intro engine finished ran
      cases ran
      exact Alone.refl
  | cons clientOrderId rest ih =>
      intro engine finished ran
      obtain ⟨middle, turned, ranRest⟩ := Runs.run_cons_some _ ran
      rw [replayMissedNew_eq_finishCall] at turned
      have checked : passStep engine state.exchange (.missedNews remote (clientOrderId :: rest))
          .checkAlreadyLive =
            some (.missedNews remote rest, missedNewCall engine remote clientOrderId) := rfl
      exact (alone_turn checked turned).trans (ih ranRest)

theorem enumerates (iteration : UnorderedMap.IterationOrder String) (keys : Finset String) :
    Enumerates (iteration.enumerate keys) keys := by
  refine ⟨iteration.nodup keys, ?_⟩
  ext key
  rw [List.mem_toFinset, iteration.mem_iff]

/-- A pass that nothing disturbs leaves the engine that `reconcileOrders` leaves. -/
theorem alone_reconcileOrders {iteration : UnorderedMap.IterationOrder String}
    {remoteSpot remoteSwap : List PendingOrderInfo}
    {queryOrderById : String → String → Option PendingOrderInfo}
    {engine finished : TradingEngine}
    (spot : TruePending state.exchange .spot remoteSpot)
    (swap : TruePending state.exchange .swap remoteSwap)
    (answers : ∀ orphan : String × String, ∀ info ∈ queryOrderById orphan.2 orphan.1,
      info.report.orderId = orphan.1 ∧ TrueAnswer state.exchange info)
    (ran : engine.reconcileOrders registry iteration remoteSpot remoteSwap queryOrderById =
      some finished) :
    Alone registry .reconciler (resting state .idle engine) (resting state .idle finished) := by
  obtain ⟨middle, first, second⟩ := Option.bind_eq_some_iff.mp ran
  have askSpot : passStep engine state.exchange .idle (.querySpot remoteSpot) =
      some (.askedSpot remoteSpot, none) := if_pos spot
  have askSwap : passStep engine state.exchange (.askedSpot remoteSpot) (.querySwap remoteSwap) =
      some (.asked (remoteSpot ++ remoteSwap), none) := if_pos swap
  have snapshot : passStep engine state.exchange (.asked (remoteSpot ++ remoteSwap))
      (.snapshotLive (iteration.enumerate engine.liveOrderInstruments.keys)) =
        some (.orphans (remoteSpot ++ remoteSwap) (engine.orphans (remoteSpot ++ remoteSwap)
          (iteration.enumerate engine.liveOrderInstruments.keys)), none) :=
    if_pos (enumerates iteration _)
  have copied : passStep middle state.exchange (.orphans (remoteSpot ++ remoteSwap) [])
      (.copyReservations (iteration.enumerate middle.clientOrderIdToReservation.keys)) =
        some (.missedNews (remoteSpot ++ remoteSwap)
          (iteration.enumerate middle.clientOrderIdToReservation.keys), none) :=
    if_pos (enumerates iteration _)
  have ended : passStep finished state.exchange (.missedNews (remoteSpot ++ remoteSwap) [])
      .finish = some (.idle, none) := rfl
  exact (alone_turn askSpot rfl).trans <| (alone_turn askSwap rfl).trans <|
    (alone_turn snapshot rfl).trans <| (alone_replayTerminal answers _ _ first).trans <|
    (alone_turn copied rfl).trans <| (alone_replayMissedNew _ _ second).trans <|
    alone_turn ended rfl

end Undisturbed

end Threads

end CryptoTrading
