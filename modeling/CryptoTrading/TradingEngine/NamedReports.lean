import CryptoTrading.Clients.OkxPrivate
import CryptoTrading.Clients.OkxQueries
import CryptoTrading.TradingEngine.Undisturbed

/-! # Reports name registered instruments

Four places make the reports that `HandleOrderUpdate` is called with.  Three of
them look the instrument up themselves; a refused op relies on the lookup that
the dispatcher made when it sent the order.  The registry may grow at any
moment, and the threads are interleaved as in `Threads`. -/
set_option autoImplicit false

namespace CryptoTrading

open TradingEngine OnDemand

/-- The exchange's records and the signals are arbitrary here. -/
structure OrderPath where
  registry : InstrumentRegistry
  system : TradingSystem
  listener : Option OrderUpdate := none
  /-- The op whose entry goes when the listener's call returns. -/
  answeredOp : Option String := none
  reconciler : Option OrderUpdate := none
  pass : Pass := .idle

/-- `add` files an instrument, `positions` stands for every other writer of the
position manager, `receive` is what the listener does with one message part. -/
inductive OrderPathAction where
  | add (info : InstrumentInfo)
  | positions (pm : PositionManager)
  | push (signal : Signal)
  | dispatch (clientOrderId opId : String)
  | receive (call : PrivateCall)
  | update (thread : Thread)
  | beginPass
  | listSpot (data : OrderRecord)
  | beginSwap
  | listSwap (data : OrderRecord)
  | snapshotLive (ids : List String)
  | queryOrder (answer : Option (List OrderAnswer))
  | copyReservations (ids : List String)
  | checkAlreadyLive
  | finishPass

namespace OrderPath

def engine (state : OrderPath) : TradingEngine := state.system.engine

def setEngine (state : OrderPath) (engine : TradingEngine) : OrderPath :=
  { state with system := { state.system with engine := engine } }

def setPendingWsOps (state : OrderPath) (pendingWsOps : UnorderedMap String OrderRequest) :
    OrderPath :=
  { state with system := { state.system with pendingWsOps := pendingWsOps } }

def current (state : OrderPath) : Thread → Option OrderUpdate
  | .listener => state.listener
  | .reconciler => state.reconciler

def setCurrent (state : OrderPath) (call : Option OrderUpdate) : Thread → OrderPath
  | .listener => { state with listener := call }
  | .reconciler => { state with reconciler := call }

/-- Once the callback for a refused op has returned, the entry is erased. -/
def eraseAnswered (state : OrderPath) : OrderPath :=
  match state.listener, state.answeredOp with
  | none, some id =>
      { state.setPendingWsOps (state.system.pendingWsOps.erase id) with answeredOp := none }
  | _, _ => state

def receive (state : OrderPath) : PrivateCall → Option OrderPath
  | .orderUpdate element =>
      if element.isError then none
      else
        match decodeOrderUpdate state.registry (OrderRecord.ofNode element) with
        | none => some state
        | some (report, clientOrderId) =>
            some { state with
              listener := some { report := report, clientOrderId := clientOrderId } }
  | .accountUpdate element =>
      if element.isError then none
      else some (state.setEngine (state.engine.decodeAccountUpdate element))
  | .opResponse op code id =>
      if op = "order" ∧ id ≠ "" then
        if code = "0" then some (state.setPendingWsOps (state.system.pendingWsOps.erase id))
        else
          match state.system.pendingWsOps.lookup id with
          | none => some state
          | some request => do
              let report ← TradingSystem.rejectedReport state.registry request
              some { state with
                listener := some { report := report, clientOrderId := request.clientOrderId }
                answeredOp := some id }
      else some state

def reconcile (state : OrderPath) : OrderPathAction → Option (Pass × Option OrderUpdate)
  | .beginPass => if state.pass = .idle then some (.askedSpot [], none) else none
  | .listSpot data =>
      match state.pass with
      | .askedSpot remote =>
          some (.askedSpot (remote ++ (decodePendingOrder state.registry .spot data).toList), none)
      | _ => none
  | .beginSwap =>
      match state.pass with
      | .askedSpot remote => some (.asked remote, none)
      | _ => none
  | .listSwap data =>
      match state.pass with
      | .asked remote =>
          some (.asked (remote ++ (decodePendingOrder state.registry .swap data).toList), none)
      | _ => none
  | .snapshotLive ids =>
      match state.pass with
      | .asked remote => some (.orphans remote (state.engine.orphans remote ids), none)
      | _ => none
  | .queryOrder answer =>
      match state.pass with
      | .orphans remote (_ :: rest) =>
          some (.orphans remote rest, replayCall (queryOrderById state.registry answer))
      | _ => none
  | .copyReservations ids =>
      match state.pass with
      | .orphans remote [] => some (.missedNews remote ids, none)
      | _ => none
  | .checkAlreadyLive =>
      match state.pass with
      | .missedNews remote (clientOrderId :: rest) =>
          some (.missedNews remote rest, missedNewCall state.engine remote clientOrderId)
      | _ => none
  | .finishPass =>
      match state.pass with
      | .missedNews _ [] => some (.idle, none)
      | _ => none
  | _ => none

/-- `none` is an action that cannot be taken here, or an exception. -/
def step (state : OrderPath) : OrderPathAction → Option OrderPath
  | .add info => some { state with registry := state.registry.add info }
  | .positions pm => some (state.setEngine (state.engine.setPositions pm))
  | .push signal =>
      if FitsBuffer signal.instrument then
        some { state with system := state.system.pushSignal signal }
      else none
  | .dispatch clientOrderId opId =>
      (state.system.dispatch state.registry clientOrderId opId).map fun system =>
        { state with system := system }
  | .receive call => if state.listener = none then state.receive call else none
  | .update thread =>
      match state.current thread with
      | none => none
      | some call =>
          (call.step state.registry state.engine).map fun result =>
            ((state.setEngine result.1).setCurrent result.2 thread).eraseAnswered
  | action =>
      if state.reconciler = none then
        (state.reconcile action).map fun result =>
          { state with pass := result.1, reconciler := result.2 }
      else none

def start (registry : InstrumentRegistry) (engine : TradingEngine) : OrderPath :=
  { registry := registry, system := { engine := engine } }

end OrderPath

/-! ## Known names -/

def InstrumentRegistry.Knows (registry : InstrumentRegistry) (instrument : String) : Prop :=
  ∃ info, registry.find instrument = some info

section Knows
variable {registry : InstrumentRegistry} {instrument : String}

theorem InstrumentRegistry.Knows.add (known : registry.Knows instrument) (info : InstrumentInfo) :
    (registry.add info).Knows instrument := by
  obtain ⟨old, found⟩ := known
  rw [InstrumentRegistry.Knows, InstrumentRegistry.add]
  by_cases same : instrument = info.instrument
  · subst same
    exact ⟨info, Finmap.lookup_insert registry⟩
  · exact ⟨old, (Finmap.lookup_insert_of_ne registry same).trans found⟩

/-- The three decoders hand on nothing whose name the registry does not know. -/
theorem decodeOrderUpdate_knows {data : OrderRecord} {report : ExecutionReport}
    {clientOrderId : String}
    (decoded : decodeOrderUpdate registry data = some (report, clientOrderId)) :
    registry.Knows report.instrument := by
  rw [decodeOrderUpdate] at decoded
  cases found : registry.find (setBuffer 32 data.instId) with
  | none =>
      rw [found] at decoded
      cases decoded
  | some info =>
      rw [found] at decoded
      cases decoded
      exact ⟨info, found⟩

theorem decodePendingOrder_knows {marketType : MarketType} {data : OrderRecord}
    {info : PendingOrderInfo}
    (decoded : decodePendingOrder registry marketType data = some info) :
    registry.Knows info.report.instrument := by
  rw [decodePendingOrder] at decoded
  cases found : registry.find (setBuffer 32 data.instId) with
  | none =>
      rw [found] at decoded
      cases decoded
  | some entry =>
      rw [found] at decoded
      cases decoded
      exact ⟨entry, found⟩

theorem queryOrderById_knows {answer : Option (List OrderAnswer)} {info : PendingOrderInfo}
    (answered : queryOrderById registry answer = some info) :
    registry.Knows info.report.instrument := by
  cases answer with
  | none => cases answered
  | some elements =>
      cases elements with
      | nil => cases answered
      | cons data rest =>
          rw [queryOrderById, decodeOrderAnswer_eq] at answered
          obtain ⟨⟨report, clientOrderId⟩, decoded, rfl⟩ := Option.map_eq_some_iff.mp answered
          have known : registry.Knows report.instrument := decodeOrderUpdate_knows decoded
          exact known

/-- A request whose instrument was looked up before it was sent. -/
structure SentRequest (registry : InstrumentRegistry) (request : OrderRequest) : Prop where
  fits : FitsBuffer request.instrument
  known : registry.Knows request.instrument

theorem rejectedReport_knows {request : OrderRequest} {report : ExecutionReport}
    (sent : SentRequest registry request)
    (made : TradingSystem.rejectedReport registry request = some report) :
    registry.Knows report.instrument := by
  have named : report.instrument = setBuffer 32 request.instrument := by
    rw [TradingSystem.rejectedReport] at made
    simp only [Option.bind_eq_bind, Option.bind_eq_some_iff, Option.some.injEq] at made
    obtain ⟨price, -, volume, -, rfl⟩ := made
    rfl
  rw [named, sent.fits]
  exact sent.known

end Knows

/-! ## A whole push -/

/-- Nothing ends a push of the orders channel early: once it is routed as one,
every element of it is decoded and every report that comes of it is handled. -/
theorem TradingSystem.onPrivateMessage_push {registry : InstrumentRegistry}
    {iterate : String → Option Node} {raw : String} {doc : Node} {elements : List Node}
    (parsed : iterate raw = some doc) (push : OrdersPush doc elements)
    (noEvent : ¬ Holds raw "\"event\"") (noOp : ¬ Holds raw "\"op\"")
    (system : TradingSystem) :
    ∃ final, system.onPrivateMessage registry iterate raw = some final := by
  rw [TradingSystem.onPrivateMessage, privateCalls_push parsed push noEvent noOp]
  apply Runs.run_total
  intro state call member
  obtain ⟨element, listed, rfl⟩ := List.mem_map.mp member
  have wellFormed : ¬ element.isError = true := by simp [push.wellFormed element listed]
  rw [TradingSystem.onPrivateCall, if_neg wellFormed]
  cases decoded : decodeOrderUpdate registry (OrderRecord.ofNode element) with
  | none => exact ⟨state, rfl⟩
  | some update =>
      obtain ⟨report, clientOrderId⟩ := update
      obtain ⟨info, found⟩ := decodeOrderUpdate_knows decoded
      obtain ⟨engine, handled⟩ :=
        handleOrderUpdate_registered found state.engine clientOrderId
      dsimp only
      rw [handled]
      exact ⟨_, rfl⟩

/-! ## One lock scope -/

theorem OrderUpdate.step_knows {registry : InstrumentRegistry} {call : OrderUpdate}
    (known : registry.Knows call.report.instrument) (engine : TradingEngine) :
    ∃ result, call.step registry engine = some result := by
  obtain ⟨info, found⟩ := known
  rw [OrderUpdate.step]
  cases call.point with
  | checkLive =>
      dsimp only
      split <;> exact ⟨_, rfl⟩
  | checkReservation =>
      dsimp only
      split <;> exact ⟨_, rfl⟩
  | recoverPositions =>
      dsimp only
      rw [TradingEngine.recoverPositions]
      split
      · have got : registry.get call.report.instrument = some info := found
        rw [PositionManager.updateSpotOnNew_eq, got]
        exact ⟨_, rfl⟩
      · exact ⟨_, rfl⟩
  | recoverLive => exact ⟨_, rfl⟩
  | updateLive =>
      dsimp only
      split <;> exact ⟨_, rfl⟩
  | eraseReservation => exact ⟨_, rfl⟩
  | applyReport =>
      obtain ⟨after, applied, -⟩ := applyReport_registered found engine.positionManager
      dsimp only
      rw [applied]
      exact ⟨_, rfl⟩
  | pushReport => exact ⟨_, rfl⟩

/-! ## A message with nothing in between -/

namespace OrderPath

def listening (state : OrderPath) (engine : TradingEngine) (call : OrderUpdate) : OrderPath :=
  (state.setEngine engine).setCurrent (some call) .listener

def returned (state : OrderPath) (engine : TradingEngine) : OrderPath :=
  ((state.setEngine engine).setCurrent none .listener).eraseAnswered

theorem listening_returns (state : OrderPath) {engine after : TradingEngine} {call : OrderUpdate}
    (completes : call.Completes state.registry engine after) :
    ∃ count, Runs.run step (state.listening engine call)
      (List.replicate count (.update .listener)) = some (state.returned after) := by
  induction completes with
  | @last call engine after ran =>
      have stepped : step (state.listening engine call) (.update .listener) =
          some (state.returned after) :=
        (congrArg (Option.map _) ran).trans rfl
      refine ⟨1, ?_⟩
      rw [List.replicate_one, Runs.run_cons, stepped]
      rfl
  | @next call later engine middle after ran _ ih =>
      obtain ⟨count, finished⟩ := ih
      have stepped : step (state.listening engine call) (.update .listener) =
          some (state.listening middle later) :=
        (congrArg (Option.map _) ran).trans rfl
      refine ⟨count + 1, ?_⟩
      rw [List.replicate_succ, Runs.run_cons, stepped, Option.bind_some, finished]

section Receive
variable {state calling next : OrderPath} {call : PrivateCall}

theorem receive_silent (idle : state.listener = none)
    (received : state.receive call = some next) :
    ∃ count, Runs.run step state (.receive call :: List.replicate count (.update .listener)) =
      some next := by
  have stepped : step state (.receive call) = some next := (if_pos idle).trans received
  refine ⟨0, ?_⟩
  rw [List.replicate_zero, Runs.run_cons, stepped]
  rfl

theorem receive_calls {report : ExecutionReport} {clientOrderId : String} {engine : TradingEngine}
    (idle : state.listener = none)
    (received : state.receive call = some (calling.listening calling.engine
      { report := report, clientOrderId := clientOrderId }))
    (updated : calling.engine.handleOrderUpdate calling.registry report clientOrderId =
      some engine) :
    ∃ count, Runs.run step state (.receive call :: List.replicate count (.update .listener)) =
      some (calling.returned engine) := by
  have stepped : step state (.receive call) = _ := (if_pos idle).trans received
  obtain ⟨count, finished⟩ := listening_returns calling
    (OrderUpdate.completes_handleOrderUpdate updated)
  refine ⟨count, ?_⟩
  rw [Runs.run_cons, stepped, Option.bind_some, finished]

end Receive

/-- One message part and the scopes of the call it leads to do together what
`OnPrivateMessage` does with that part. -/
theorem receive_onPrivateCall {state : OrderPath} {call : PrivateCall} {system : TradingSystem}
    (idle : state.listener = none) (noAnswer : state.answeredOp = none)
    (handled : state.system.onPrivateCall state.registry call = some system) :
    ∃ count, Runs.run step state (.receive call :: List.replicate count (.update .listener)) =
      some { state with system := system } := by
  obtain ⟨registry, before, listener, answeredOp, reconciler, pass⟩ := state
  cases idle
  cases noAnswer
  cases call with
  | orderUpdate element =>
      rw [TradingSystem.onPrivateCall] at handled
      split at handled
      · cases handled
      · next wellFormed =>
          cases decoded : decodeOrderUpdate registry (OrderRecord.ofNode element) with
          | none =>
              rw [decoded] at handled
              cases handled
              apply receive_silent rfl
              rw [OrderPath.receive, if_neg wellFormed, decoded]
          | some update =>
              obtain ⟨report, clientOrderId⟩ := update
              rw [decoded] at handled
              obtain ⟨engine, updated, same⟩ := Option.bind_eq_some_iff.mp handled
              cases same
              have received : OrderPath.receive ⟨registry, before, none, none, reconciler, pass⟩
                  (.orderUpdate element) =
                    some (listening ⟨registry, before, none, none, reconciler, pass⟩ before.engine
                      { report := report, clientOrderId := clientOrderId }) := by
                rw [OrderPath.receive, if_neg wellFormed, decoded]
                rfl
              exact receive_calls rfl received updated
  | accountUpdate element =>
      rw [TradingSystem.onPrivateCall] at handled
      split at handled
      · cases handled
      · next wellFormed =>
          cases handled
          exact receive_silent rfl (if_neg wellFormed)
  | opResponse op code id =>
      rw [TradingSystem.onPrivateCall, TradingSystem.onOpResponse] at handled
      by_cases asked : op = "order" ∧ id ≠ ""
      · by_cases accepted : code = "0"
        · rw [if_neg (not_not.mpr accepted), if_pos asked] at handled
          cases handled
          apply receive_silent rfl
          rw [OrderPath.receive, if_pos asked, if_pos accepted]
          rfl
        · rw [if_pos accepted, if_pos asked] at handled
          cases found : before.pendingWsOps.lookup id with
          | none =>
              rw [found] at handled
              cases handled
              apply receive_silent rfl
              rw [OrderPath.receive, if_pos asked, if_neg accepted, found]
          | some request =>
              rw [found] at handled
              obtain ⟨report, made, handled⟩ := Option.bind_eq_some_iff.mp handled
              obtain ⟨engine, updated, same⟩ := Option.bind_eq_some_iff.mp handled
              cases same
              have received : OrderPath.receive ⟨registry, before, none, none, reconciler, pass⟩
                  (.opResponse op code id) =
                    some (listening ⟨registry, before, none, some id, reconciler, pass⟩
                      before.engine
                      { report := report, clientOrderId := request.clientOrderId }) := by
                rw [OrderPath.receive, if_pos asked, if_neg accepted, found]
                dsimp only
                rw [made]
                rfl
              exact receive_calls rfl received updated
      · rw [if_neg asked, if_neg asked, ite_self] at handled
        cases handled
        exact receive_silent rfl (if_neg asked)

def takenUp : OrderPathAction → Option PrivateCall
  | .receive call => some call
  | _ => none

theorem takenUp_updates (count : ℕ) :
    (List.replicate count (OrderPathAction.update .listener)).filterMap takenUp = [] := by
  rw [List.filterMap_eq_nil_iff]
  intro action member
  rw [(List.mem_replicate.mp member).2]
  rfl

theorem receive_onPrivateMessage {state : OrderPath} {iterate : String → Option Node}
    {raw : String} {system : TradingSystem} (idle : state.listener = none)
    (noAnswer : state.answeredOp = none)
    (handled : state.system.onPrivateMessage state.registry iterate raw = some system) :
    ∃ actions, actions.filterMap takenUp = privateCalls iterate raw ∧
      Runs.run step state actions = some { state with system := system } := by
  rw [TradingSystem.onPrivateMessage] at handled
  generalize privateCalls iterate raw = calls at handled ⊢
  induction calls generalizing state with
  | nil =>
      cases handled
      exact ⟨[], rfl, rfl⟩
  | cons call rest ih =>
      obtain ⟨middle, first, remaining⟩ := Runs.run_cons_some _ handled
      obtain ⟨count, received⟩ := receive_onPrivateCall idle noAnswer first
      obtain ⟨later, parts, ran⟩ :=
        @ih { state with system := middle } idle noAnswer remaining
      have taken : takenUp (.receive call) = some call := rfl
      refine ⟨.receive call :: List.replicate count (.update .listener) ++ later, ?_, ?_⟩
      · rw [List.filterMap_append, List.filterMap_cons_some taken, takenUp_updates, parts]
        rfl
      · rw [Runs.run_append, received, Option.bind_some, ran]

end OrderPath

/-! ## The invariant -/

namespace OrderPath

/-- Everything on its way to `HandleOrderUpdate` has a known name. -/
structure Named (state : OrderPath) : Prop where
  signals : ∀ signal ∈ state.system.signalRing, FitsBuffer signal.instrument
  requests : ∀ id request, state.system.pendingWsOps.lookup id = some request →
    SentRequest state.registry request
  remote : ∀ info ∈ state.pass.remote, state.registry.Knows info.report.instrument
  calls : ∀ thread, ∀ call ∈ state.current thread, state.registry.Knows call.report.instrument

section Steps
variable {state : OrderPath}

theorem named_start (registry : InstrumentRegistry) (engine : TradingEngine) :
    Named (start registry engine) := by
  refine ⟨(fun signal member => nomatch member), ?_, (fun info member => nomatch member), ?_⟩
  · intro id request found
    rw [start, Finmap.lookup_empty] at found
    cases found
  · intro thread call member
    cases thread <;> cases member

theorem Named.add (named : Named state) (info : InstrumentInfo) :
    Named { state with registry := state.registry.add info } where
  signals := named.signals
  requests id request found :=
    ⟨(named.requests id request found).fits, (named.requests id request found).known.add info⟩
  remote entry member := (named.remote entry member).add info
  calls thread call member := (named.calls thread call (by cases thread <;> exact member)).add info

theorem Named.setEngine (named : Named state) (engine : TradingEngine) :
    Named (state.setEngine engine) where
  signals := named.signals
  requests := named.requests
  remote := named.remote
  calls thread call member := named.calls thread call (by cases thread <;> exact member)

theorem Named.erasePending (named : Named state) (id : String) :
    Named (state.setPendingWsOps (state.system.pendingWsOps.erase id)) where
  signals := named.signals
  requests other request found := by
    have kept : (state.system.pendingWsOps.erase id).lookup other = some request := found
    rw [UnorderedMap.lookup_erase_ite] at kept
    split at kept
    · cases kept
    · exact named.requests other request kept
  remote := named.remote
  calls thread call member := named.calls thread call (by cases thread <;> exact member)

theorem Named.setCurrent (named : Named state) {later : Option OrderUpdate}
    (known : ∀ call ∈ later, state.registry.Knows call.report.instrument) (thread : Thread) :
    Named (state.setCurrent later thread) := by
  cases thread with
  | listener =>
      refine ⟨named.signals, named.requests, named.remote, ?_⟩
      intro other call member
      cases other with
      | listener => exact known call member
      | reconciler => exact named.calls .reconciler call member
  | reconciler =>
      refine ⟨named.signals, named.requests, named.remote, ?_⟩
      intro other call member
      cases other with
      | listener => exact named.calls .listener call member
      | reconciler => exact known call member

theorem Named.eraseAnswered (named : Named state) : Named state.eraseAnswered := by
  rw [OrderPath.eraseAnswered]
  split
  · next id _ _ =>
      have erased := named.erasePending id
      refine ⟨erased.signals, erased.requests, erased.remote, ?_⟩
      intro thread call member
      exact erased.calls thread call (by cases thread <;> exact member)
  · exact named

theorem Named.dispatch (named : Named state) {clientOrderId opId : String}
    {system : TradingSystem}
    (ran : state.system.dispatch state.registry clientOrderId opId = some system) :
    Named { state with system := system } := by
  have calls : ∀ thread, ∀ call ∈ current { state with system := system } thread,
      state.registry.Knows call.report.instrument :=
    fun thread call member => named.calls thread call (by cases thread <;> exact member)
  rw [TradingSystem.dispatch] at ran
  cases ring : state.system.signalRing with
  | nil =>
      rw [ring] at ran
      cases ran
      exact ⟨named.signals, named.requests, named.remote, calls⟩
  | cons signal rest =>
      have later : ∀ other ∈ rest, FitsBuffer other.instrument := fun other member =>
        named.signals other (ring ▸ List.mem_cons_of_mem _ member)
      have fits : FitsBuffer signal.instrument :=
        named.signals signal (ring ▸ List.mem_cons_self)
      rw [ring, shmPop] at ran
      dsimp only at ran
      split at ran
      · cases ran
        exact ⟨later, named.requests, named.remote, calls⟩
      · simp only [Option.bind_eq_bind, Option.bind_eq_some_iff, Option.some.injEq] at ran
        obtain ⟨info, got, rfl⟩ := ran
        refine ⟨later, ?_, named.remote, calls⟩
        intro id request found
        dsimp only at found
        rw [UnorderedMap.lookup_insert_ite] at found
        split at found
        · cases found
          exact ⟨fits, info, got⟩
        · exact named.requests id request found

theorem Named.receive (named : Named state) {call : PrivateCall} {next : OrderPath}
    (ran : state.receive call = some next) : Named next := by
  have starts : ∀ report clientOrderId, state.registry.Knows report.instrument →
      Named { state with
        listener := some { report := report, clientOrderId := clientOrderId } } := by
    intro report clientOrderId known
    refine named.setCurrent ?_ .listener
    intro call member
    cases member
    exact known
  cases call with
  | orderUpdate element =>
      rw [OrderPath.receive] at ran
      split at ran
      · cases ran
      · split at ran
        · cases ran
          exact named
        · next report clientOrderId decoded =>
            cases ran
            exact starts report clientOrderId (decodeOrderUpdate_knows decoded)
  | accountUpdate element =>
      rw [OrderPath.receive] at ran
      split at ran
      · cases ran
      · cases ran
        exact named.setEngine _
  | opResponse op code id =>
      rw [OrderPath.receive] at ran
      split at ran
      · split at ran
        · cases ran
          exact named.erasePending id
        · split at ran
          · cases ran
            exact named
          · next request found =>
              obtain ⟨report, made, same⟩ := Option.bind_eq_some_iff.mp ran
              cases same
              have started := starts report request.clientOrderId
                (rejectedReport_knows (named.requests id request found) made)
              refine ⟨started.signals, started.requests, started.remote, ?_⟩
              intro thread call member
              exact started.calls thread call (by cases thread <;> exact member)
      · cases ran
        exact named

theorem Named.reconcile (named : Named state) {action : OrderPathAction} {pass : Pass}
    {call : Option OrderUpdate} (ran : state.reconcile action = some (pass, call)) :
    Named { state with pass := pass, reconciler := call } := by
  have moved : (∀ info ∈ pass.remote, state.registry.Knows info.report.instrument) →
      (∀ made ∈ call, state.registry.Knows made.report.instrument) →
      Named { state with pass := pass, reconciler := call } := by
    intro remote started
    have called := named.setCurrent started .reconciler
    refine ⟨called.signals, called.requests, remote, ?_⟩
    intro thread other member
    exact called.calls thread other (by cases thread <;> exact member)
  have listed : ∀ (marketType : MarketType) (data : OrderRecord) (remote : List PendingOrderInfo),
      (∀ info ∈ remote, state.registry.Knows info.report.instrument) →
      ∀ info ∈ remote ++ (decodePendingOrder state.registry marketType data).toList,
        state.registry.Knows info.report.instrument := by
    intro marketType data remote known info member
    rcases List.mem_append.mp member with before | decoded
    · exact known info before
    · exact decodePendingOrder_knows (Option.mem_toList.mp decoded)
  have noCall : ∀ made ∈ (none : Option OrderUpdate),
      state.registry.Knows made.report.instrument := by
    intro made isMade
    cases isMade
  have noneListed : ∀ info ∈ ([] : List PendingOrderInfo),
      state.registry.Knows info.report.instrument := by
    intro info member
    cases member
  have remote := named.remote
  cases action with
  | beginPass =>
      obtain ⟨-, same⟩ := Option.ite_none_right_eq_some.mp ran
      cases same
      exact moved noneListed noCall
  | listSpot data | listSwap data =>
      rw [OrderPath.reconcile] at ran
      split at ran
      · next before shape =>
          cases ran
          exact moved (listed _ data before (by rw [shape] at remote; exact remote)) noCall
      · cases ran
  | beginSwap | snapshotLive ids | copyReservations ids =>
      rw [OrderPath.reconcile] at ran
      split at ran
      · next before shape =>
          cases ran
          exact moved (by rw [shape] at remote; exact remote) noCall
      · cases ran
  | queryOrder answer =>
      rw [OrderPath.reconcile] at ran
      split at ran
      · next before orphan rest shape =>
          cases ran
          refine moved (by rw [shape] at remote; exact remote) ?_
          intro made isMade
          obtain ⟨info, answered, -, rfl⟩ := replayCall_some isMade
          exact queryOrderById_knows answered
      · cases ran
  | checkAlreadyLive =>
      rw [OrderPath.reconcile] at ran
      split at ran
      · next before clientOrderId rest shape =>
          cases ran
          rw [shape] at remote
          refine moved remote ?_
          intro made isMade
          obtain ⟨info, member, -, rfl⟩ := missedNewCall_some isMade
          exact remote info member
      · cases ran
  | finishPass =>
      rw [OrderPath.reconcile] at ran
      split at ran
      · cases ran
        exact moved noneListed noCall
      · cases ran
  | add _ | positions _ | push _ | dispatch _ _ | receive _ | update _ => cases ran

theorem Named.update (named : Named state) {thread : Thread} {call : OrderUpdate}
    (current : state.current thread = some call) {engine : TradingEngine}
    {later : Option OrderUpdate}
    (ran : call.step state.registry state.engine = some (engine, later)) :
    Named (((state.setEngine engine).setCurrent later thread).eraseAnswered) := by
  refine ((named.setEngine engine).setCurrent ?_ thread).eraseAnswered
  intro made isMade
  cases isMade
  rw [(Threads.same_call ran).1]
  exact named.calls thread call current

theorem Named.step (named : Named state) {action : OrderPathAction} {next : OrderPath}
    (ran : state.step action = some next) : Named next := by
  have reconciled : (if state.reconciler = none then
      (state.reconcile action).map fun result =>
        { state with pass := result.1, reconciler := result.2 }
      else none) = some next → Named next := by
    intro turned
    obtain ⟨-, turned⟩ := Option.ite_none_right_eq_some.mp turned
    obtain ⟨⟨pass, call⟩, moved, rfl⟩ := Option.map_eq_some_iff.mp turned
    exact named.reconcile moved
  cases action with
  | add info =>
      cases ran
      exact named.add info
  | positions pm =>
      cases ran
      exact named.setEngine _
  | push signal =>
      obtain ⟨fits, same⟩ := Option.ite_none_right_eq_some.mp ran
      cases same
      refine ⟨?_, named.requests, named.remote, ?_⟩
      · intro other member
        rw [TradingSystem.pushSignal, shmPush] at member
        dsimp only at member
        split at member
        · rcases List.mem_append.mp member with before | pushed
          · exact named.signals other before
          · rw [List.mem_singleton.mp pushed]
            exact fits
        · exact named.signals other member
      · intro thread call member
        exact named.calls thread call (by cases thread <;> exact member)
  | dispatch clientOrderId opId =>
      obtain ⟨system, dispatched, rfl⟩ := Option.map_eq_some_iff.mp ran
      exact named.dispatch dispatched
  | receive call =>
      obtain ⟨-, received⟩ := Option.ite_none_right_eq_some.mp ran
      exact named.receive received
  | update thread =>
      rw [OrderPath.step] at ran
      split at ran
      · cases ran
      · next call current =>
          obtain ⟨⟨engine, later⟩, taken, rfl⟩ := Option.map_eq_some_iff.mp ran
          exact named.update current taken
  | beginPass | listSpot _ | beginSwap | listSwap _ | snapshotLive _ | queryOrder _
  | copyReservations _ | checkAlreadyLive | finishPass => exact reconciled ran

end Steps

/-- In every run each report that `HandleOrderUpdate` is at work on names an
instrument that the registry knows, from the call's first scope on, and none of
its lookups fails. -/
theorem reports_named {registry : InstrumentRegistry} {engine : TradingEngine}
    {actions : List OrderPathAction} {state : OrderPath}
    (ran : Runs.run OrderPath.step (start registry engine) actions = some state)
    {thread : Thread} {call : OrderUpdate} (current : state.current thread = some call) :
    state.registry.Knows call.report.instrument ∧
      ∃ result, call.step state.registry state.engine = some result := by
  have named : Named state :=
    Runs.run_induction OrderPath.step Named (fun _ _ _ held stepped => held.step stepped)
      (named_start registry engine) ran
  have known := named.calls thread call current
  exact ⟨known, call.step_knows known state.engine⟩

/-- An order that is sent after its instrument was added, and refused. -/
def refusedOrder : List OrderPathAction :=
  [.add ethUsdt, .push smallBuy, .dispatch "cts1" "1", .receive (.opResponse "order" "1" "1")]

theorem reports_named_refused : ∃ state call,
    Runs.run OrderPath.step (start ∅ {}) refusedOrder = some state ∧
      state.current .listener = some call ∧ call.report.status = .rejected ∧
      state.registry.Knows call.report.instrument := by
  cases ran : Runs.run OrderPath.step (start ∅ {}) refusedOrder with
  | none => exact absurd (congrArg Option.isSome ran) (by decide +kernel)
  | some state =>
      have listens : (Runs.run OrderPath.step (start ∅ {}) refusedOrder).map
          (fun state => (state.current .listener).map fun call => call.report.status) =
            some (some .rejected) := by decide +kernel
      rw [ran] at listens
      obtain ⟨call, current, refused⟩ := Option.map_eq_some_iff.mp (Option.some.inj listens)
      exact ⟨state, call, rfl, current, refused, (reports_named ran current).1⟩

end OrderPath

end CryptoTrading
