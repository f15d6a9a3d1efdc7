import CryptoTrading.Lib.Correlation
import CryptoTrading.Lib.Runs
import CryptoTrading.TradingEngine.OrderFlow

/-! # Order ops and their answers

`pending_ws_ops_` from the calls of `BuildOrderMessage` and the op responses of
`OnPrivateMessage` on, each call one step.  The table is a correlation table:
the first `order` response takes a request off it, and a code other than "0"
hands the request on as a rejection. -/
set_option autoImplicit false

namespace CryptoTrading

/-- A call of `on_order_update_`. -/
structure OpCallback where
  report : ExecutionReport
  clientOrderId : String
  deriving DecidableEq

/-- The table, and the callbacks made so far with the op they answer. -/
structure OpTable where
  pendingWsOps : UnorderedMap String OrderRequest := ∅
  callbacks : List (String × OpCallback) := []

/-- A signal sent as an order, with the clock reading that becomes its id, or an
op response with these three fields. -/
inductive OpEvent where
  | send (signal : Signal) (clientOrderId : String) (nowNs : ℕ)
  | respond (op code id : String)

namespace OpTable

def step (registry : InstrumentRegistry) (table : OpTable) : OpEvent → Option OpTable
  | .send signal clientOrderId nowNs => do
      let info ← registry.get signal.instrument
      some { table with
        pendingWsOps := table.pendingWsOps.insert (toString nowNs)
          (TradingSystem.buildRequest info signal clientOrderId) }
  | .respond op code id =>
      if code ≠ "0" then
        if op = "order" ∧ id ≠ "" then
          match table.pendingWsOps.lookup id with
          | none => some table
          | some request => do
              let report ← TradingSystem.rejectedReport registry request
              some
                { pendingWsOps := table.pendingWsOps.erase id
                  callbacks := table.callbacks ++ [(id, ⟨report, request.clientOrderId⟩)] }
        else some table
      else if op = "order" ∧ id ≠ "" then
        some { table with pendingWsOps := table.pendingWsOps.erase id }
      else some table

def callbacksOf (table : OpTable) (id : String) : List OpCallback :=
  (table.callbacks.filter fun entry => entry.1 = id).map Prod.snd

end OpTable

/-! ## As steps of the system -/

/-- An op response of the system is a step of the table, whose callback the
engine handles. -/
theorem onOpResponse_eq_step (registry : InstrumentRegistry) (system : TradingSystem)
    (op code id : String) :
    system.onOpResponse registry op code id =
      (OpTable.step registry ⟨system.pendingWsOps, []⟩ (.respond op code id)).bind fun table =>
        (Runs.run (fun engine (entry : String × OpCallback) =>
            engine.handleOrderUpdate registry entry.2.report entry.2.clientOrderId)
          system.engine table.callbacks).map fun engine =>
            { system with engine := engine, pendingWsOps := table.pendingWsOps } := by
  rw [TradingSystem.onOpResponse, OpTable.step]
  split_ifs with failed isOrder isOrder
  · cases system.pendingWsOps.lookup id with
    | none => rfl
    | some request =>
        dsimp only
        cases TradingSystem.rejectedReport registry request with
        | none => rfl
        | some report =>
            simp only [Option.bind_eq_bind, Option.bind_some, List.nil_append, Runs.run_cons]
            cases system.engine.handleOrderUpdate registry report request.clientOrderId <;> rfl
  · rfl
  · rfl
  · rfl

theorem dispatch_eq_step {registry : InstrumentRegistry} {system : TradingSystem}
    {signal : Signal} {rest : List Signal} (ring : system.signalRing = signal :: rest)
    (orders : signal.action ≠ .cancel) (clientOrderId : String) (nowNs : ℕ) :
    (system.dispatch registry clientOrderId (toString nowNs)).map TradingSystem.pendingWsOps =
      (OpTable.step registry ⟨system.pendingWsOps, []⟩ (.send signal clientOrderId nowNs)).map
        OpTable.pendingWsOps := by
  rw [TradingSystem.dispatch, ring, shmPop, OpTable.step]
  simp only [orders, if_false]
  cases registry.get signal.instrument <;> rfl

/-! ## The report of a refused request -/

/-- The report carries everything of the signal but its trade mode. -/
def Signal.refusal (signal : Signal) : ExecutionReport :=
  { instrument := signal.instrument
    status := .rejected
    side := if signal.action = .buy then .buy else .sell
    marketType := signal.marketType
    positionSide := signal.positionSide
    price := if signal.orderType = .limit then signal.price else 0
    totalVolume := signal.volume }

/-- What the dispatcher has made sure of when it sends a signal: the name comes
out of the signal's buffer, and the registry knows it. -/
structure Sendable (registry : InstrumentRegistry) (signal : Signal) : Prop where
  fits : FitsBuffer signal.instrument
  known : ∃ info, registry.get signal.instrument = some info

section Refusal
variable {registry : InstrumentRegistry} {info : InstrumentInfo} {signal : Signal}

/-- Price and volume survive being written as text and read back. -/
theorem rejectedReport_buildRequest (known : registry.get signal.instrument = some info)
    (fits : FitsBuffer signal.instrument) (clientOrderId : String) :
    TradingSystem.rejectedReport registry
        (TradingSystem.buildRequest info signal clientOrderId) = some signal.refusal := by
  have volume := encodeField_format known signal.volume (·.volumePrecision)
  have price : TradingSystem.encodeField registry signal.instrument
      (if signal.orderType = .limit then format signal.price info.pricePrecision else "")
      (·.pricePrecision) = some (if signal.orderType = .limit then signal.price else 0) := by
    split
    · exact encodeField_format known signal.price (·.pricePrecision)
    · rfl
  have buffered : setBuffer 32 signal.instrument = signal.instrument := fits
  simp only [TradingSystem.rejectedReport, TradingSystem.buildRequest, price, volume, buffered,
    Option.bind_eq_bind, Option.bind_some]
  rfl

end Refusal

/-! ## The table as a correlation table -/

namespace OpEvent

/-- A response answers a request only when it is about an order and has an id. -/
def toEvent (registry : InstrumentRegistry) :
    OpEvent → Correlation.Event String OrderRequest String
  | .send signal clientOrderId nowNs =>
      match registry.get signal.instrument with
      | none => .other
      | some info => .send (toString nowNs)
          (TradingSystem.buildRequest info signal clientOrderId)
  | .respond op code id => if op = "order" ∧ id ≠ "" then .answer id code else .other

/-- The code of an `order` response that carries the id. -/
def answerTo (id : String) : OpEvent → Option String
  | .respond op code other => if op = "order" ∧ other = id then some code else none
  | .send _ _ _ => none

def sentId : OpEvent → Option String
  | .send _ _ nowNs => some (toString nowNs)
  | .respond _ _ _ => none

def Valid (registry : InstrumentRegistry) : OpEvent → Prop
  | .send signal _ _ => Sendable registry signal
  | .respond _ _ _ => True

end OpEvent

def firstAnswer (id : String) (events : List OpEvent) : Option String :=
  events.findSome? (OpEvent.answerTo id)

def refuse (registry : InstrumentRegistry) (request : OrderRequest) (code : String) :
    Option OpCallback :=
  if code = "0" then none
  else (TradingSystem.rejectedReport registry request).map fun report =>
    ⟨report, request.clientOrderId⟩

def OpTable.toTable (table : OpTable) : Correlation.Table String OrderRequest OpCallback :=
  ⟨table.pendingWsOps, table.callbacks⟩

def OpTable.Built (registry : InstrumentRegistry) (table : OpTable) : Prop :=
  ∀ id request, table.pendingWsOps.lookup id = some request → ∃ info signal clientOrderId,
    registry.get signal.instrument = some info ∧ FitsBuffer signal.instrument ∧
      request = TradingSystem.buildRequest info signal clientOrderId

section Refinement
variable {registry : InstrumentRegistry} {table : OpTable}

theorem OpTable.Built.erase (built : table.Built registry) (id : String)
    (callbacks : List (String × OpCallback)) :
    OpTable.Built registry ⟨table.pendingWsOps.erase id, callbacks⟩ := by
  intro other request found
  rw [UnorderedMap.lookup_erase_ite] at found
  split at found
  · cases found
  · exact built other request found

theorem toTable_respond (built : table.Built registry) (op code id : String) : ∃ next,
    OpTable.step registry table (.respond op code id) = some next ∧ next.Built registry ∧
      next.toTable = Correlation.step (refuse registry) table.toTable
        ((OpEvent.respond op code id).toEvent registry) := by
  rw [OpTable.step, OpEvent.toEvent]
  by_cases answers : op = "order" ∧ id ≠ ""
  · rw [if_pos answers, if_pos answers, if_pos answers, Correlation.step]
    have pending : table.toTable.pending = table.pendingWsOps := rfl
    rw [pending]
    cases found : table.pendingWsOps.lookup id with
    | none =>
        have absent : table.pendingWsOps.erase id = table.pendingWsOps := by
          apply Finmap.ext_lookup
          intro other
          rw [UnorderedMap.lookup_erase_ite]
          split
          · next same => rw [same, found]
          · rfl
        split_ifs
        · exact ⟨table, rfl, built, rfl⟩
        · exact ⟨_, rfl, built.erase id _, by rw [OpTable.toTable, absent]; rfl⟩
    | some request =>
        obtain ⟨info, signal, clientOrderId, known, fits, rfl⟩ := built id request found
        have report := rejectedReport_buildRequest known fits clientOrderId
        by_cases accepted : code = "0"
        · subst accepted
          refine ⟨_, rfl, built.erase id _, ?_⟩
          simp [OpTable.toTable, refuse]
        · rw [if_pos accepted]
          simp only [report, Option.bind_eq_bind, Option.bind_some]
          refine ⟨_, rfl, built.erase id _, ?_⟩
          simp [OpTable.toTable, refuse, accepted, report]
  · rw [if_neg answers, if_neg answers, if_neg answers, ite_self]
    exact ⟨table, rfl, built, rfl⟩

theorem toTable_send (built : table.Built registry) {signal : Signal}
    (sendable : Sendable registry signal) (clientOrderId : String) (nowNs : ℕ) : ∃ next,
    OpTable.step registry table (.send signal clientOrderId nowNs) = some next ∧
      next.Built registry ∧
      next.toTable = Correlation.step (refuse registry) table.toTable
        ((OpEvent.send signal clientOrderId nowNs).toEvent registry) := by
  obtain ⟨info, known⟩ := sendable.known
  rw [OpTable.step, OpEvent.toEvent, known]
  refine ⟨_, rfl, ?_, rfl⟩
  intro id request found
  dsimp only at found
  rw [UnorderedMap.lookup_insert_ite] at found
  split at found
  · cases Option.some.inj found
    exact ⟨info, signal, clientOrderId, known, sendable.fits, rfl⟩
  · exact built id request found

theorem toTable_run (events : List OpEvent) : ∀ table : OpTable, table.Built registry →
    (∀ event ∈ events, event.Valid registry) → ∃ final,
      Runs.run (OpTable.step registry) table events = some final ∧
        final.toTable = Correlation.run (refuse registry) table.toTable
          (events.map (OpEvent.toEvent registry)) := by
  induction events with
  | nil =>
      intro table _ _
      exact ⟨table, rfl, rfl⟩
  | cons event rest ih =>
      intro table built valid
      obtain ⟨next, stepped, builtNext, refined⟩ : ∃ next,
          OpTable.step registry table event = some next ∧ next.Built registry ∧
            next.toTable = Correlation.step (refuse registry) table.toTable
              (event.toEvent registry) := by
        have here := valid event List.mem_cons_self
        cases event with
        | send signal clientOrderId nowNs => exact toTable_send built here clientOrderId nowNs
        | respond op code id => exact toTable_respond built op code id
      obtain ⟨final, ran, same⟩ := ih next builtNext
        fun other member => valid other (List.mem_cons_of_mem _ member)
      refine ⟨final, ?_, ?_⟩
      · rw [Runs.run_cons, stepped]
        exact ran
      · rw [same, refined]
        rfl

theorem toString_ne_empty (nowNs : ℕ) : toString nowNs ≠ "" := Nat.repr_ne_empty

theorem sentKeys_toEvent (events : List OpEvent)
    (valid : ∀ event ∈ events, event.Valid registry) :
    Correlation.sentKeys (events.map (OpEvent.toEvent registry)) =
      events.filterMap OpEvent.sentId := by
  rw [Correlation.sentKeys, List.filterMap_map]
  apply List.filterMap_congr
  intro event member
  cases event with
  | send signal clientOrderId nowNs =>
      obtain ⟨info, known⟩ := (valid _ member : Sendable registry signal).known
      simp [OpEvent.toEvent, OpEvent.sentId, known]
  | respond op code id =>
      simp only [Function.comp_apply, OpEvent.toEvent, OpEvent.sentId]
      split_ifs <;> rfl

theorem firstAnswer_toEvent {id : String} (named : id ≠ "") (events : List OpEvent) :
    Correlation.firstAnswer id (events.map (OpEvent.toEvent registry)) =
      firstAnswer id events := by
  rw [Correlation.firstAnswer, firstAnswer, List.findSome?_map]
  congr 1
  funext event
  cases event with
  | send signal clientOrderId nowNs =>
      rw [Function.comp_apply, OpEvent.toEvent, OpEvent.answerTo]
      cases registry.get signal.instrument <;> rfl
  | respond op code other =>
      rw [Function.comp_apply, OpEvent.toEvent, OpEvent.answerTo]
      by_cases order : op = "order"
      · by_cases same : other = id
        · subst same
          simp [order, named, Correlation.answerTo]
        · by_cases empty : other = "" <;>
            simp [order, same, empty, Correlation.answerTo, named.symm]
      · simp [order, Correlation.answerTo]

end Refinement

/-! ## The matching -/

/-- The request was sent under the id, and no `order` response with the id has
come since. -/
def OutstandingOp (registry : InstrumentRegistry) (events : List OpEvent) (id : String)
    (request : OrderRequest) : Prop :=
  ∃ before signal clientOrderId nowNs after info,
    events = before ++ .send signal clientOrderId nowNs :: after ∧ id = toString nowNs ∧
      registry.get signal.instrument = some info ∧
      request = TradingSystem.buildRequest info signal clientOrderId ∧
      firstAnswer id after = none

theorem outstanding_toEvent_iff {registry : InstrumentRegistry} {events : List OpEvent}
    {id : String} {request : OrderRequest} :
    Correlation.Outstanding (events.map (OpEvent.toEvent registry)) id request ↔
      OutstandingOp registry events id request := by
  constructor
  · rintro ⟨before, after, split, unanswered⟩
    obtain ⟨front, rest, rfl, -, behind⟩ := List.map_eq_append_iff.mp split
    obtain ⟨event, later, rfl, isSend, rfl⟩ := List.map_eq_cons_iff.mp behind
    cases event with
    | respond op code other =>
        rw [OpEvent.toEvent] at isSend
        split_ifs at isSend
    | send signal clientOrderId nowNs =>
        rw [OpEvent.toEvent] at isSend
        cases known : registry.get signal.instrument with
        | none =>
            rw [known] at isSend
            cases isSend
        | some info =>
            rw [known] at isSend
            obtain ⟨rfl, rfl⟩ := Correlation.Event.send.inj isSend
            rw [firstAnswer_toEvent (toString_ne_empty nowNs)] at unanswered
            exact ⟨front, signal, clientOrderId, nowNs, later, info, rfl, rfl, known, rfl,
              unanswered⟩
  · rintro ⟨before, signal, clientOrderId, nowNs, after, info, rfl, rfl, known, rfl, unanswered⟩
    refine ⟨before.map (OpEvent.toEvent registry), after.map (OpEvent.toEvent registry), ?_, ?_⟩
    · rw [List.map_append, List.map_cons, OpEvent.toEvent, known]
    · rw [firstAnswer_toEvent (toString_ne_empty nowNs)]
      exact unanswered

/-- In any interleaving of orders and op responses the table holds exactly the
unanswered requests, and an order leads to one rejection, the image of its
signal, when its first answer has a code other than "0", and else to none. -/
theorem ops_matched {registry : InstrumentRegistry} {events : List OpEvent}
    (distinct : (events.filterMap OpEvent.sentId).Nodup)
    (valid : ∀ event ∈ events, event.Valid registry) : ∃ final,
    Runs.run (OpTable.step registry) {} events = some final ∧
      (∀ id request, final.pendingWsOps.lookup id = some request ↔
        OutstandingOp registry events id request) ∧
      ∀ before signal clientOrderId nowNs after,
        events = before ++ .send signal clientOrderId nowNs :: after →
        final.callbacksOf (toString nowNs) =
          match firstAnswer (toString nowNs) after with
          | none => []
          | some code => if code = "0" then [] else [⟨signal.refusal, clientOrderId⟩] := by
  have nothing : OpTable.Built registry {} := by
    intro id request found
    rw [Finmap.lookup_empty] at found
    cases found
  obtain ⟨final, ran, same⟩ := toTable_run events {} nothing valid
  have refined : final.toTable = Correlation.run (refuse registry) ⟨∅, []⟩
      (events.map (OpEvent.toEvent registry)) := same
  rw [← sentKeys_toEvent events valid] at distinct
  refine ⟨final, ran, fun id request => ?_, ?_⟩
  · have held : final.toTable.pending.lookup id = some request ↔
        Correlation.Outstanding (events.map (OpEvent.toEvent registry)) id request := by
      rw [refined]
      exact Correlation.pending_iff_outstanding distinct request
    exact held.trans outstanding_toEvent_iff
  · intro before signal clientOrderId nowNs after split
    obtain ⟨fits, info, known⟩ : Sendable registry signal :=
      valid (.send signal clientOrderId nowNs) (by simp [split])
    have splitEvents : events.map (OpEvent.toEvent registry) =
        before.map (OpEvent.toEvent registry) ++
          .send (toString nowNs) (TradingSystem.buildRequest info signal clientOrderId) ::
            after.map (OpEvent.toEvent registry) := by
      rw [split, List.map_append, List.map_cons, OpEvent.toEvent, known]
    have seen := Correlation.view_of_sent (refuse registry) distinct splitEvents
    rw [firstAnswer_toEvent (toString_ne_empty nowNs), ← refined] at seen
    have emitted : final.callbacksOf (toString nowNs) =
        (Correlation.view (toString nowNs) final.toTable).2 := rfl
    rw [emitted, seen]
    cases firstAnswer (toString nowNs) after with
    | none => rfl
    | some code =>
        dsimp only [refuse]
        rw [rejectedReport_buildRequest known fits]
        split_ifs <;> rfl

def smallBuy : Signal :=
  { instrument := "ETH-USDT", orderId := "", action := .buy, orderType := .limit,
    marketType := .spot, positionSide := .net, tradeMode := .cash, price := 10025, volume := 50 }

def ethUsdt : InstrumentInfo :=
  { instrument := "ETH-USDT", pricePrecision := 2, volumePrecision := 2 }

def ethUsdtRegistry : InstrumentRegistry := InstrumentRegistry.add ∅ ethUsdt

theorem ops_matched_refused : ∃ final,
    Runs.run (OpTable.step ethUsdtRegistry) {}
        [.send smallBuy "cts1" 1, .respond "order" "1" "1", .respond "order" "1" "1"] =
      some final ∧ final.callbacksOf "1" = [⟨smallBuy.refusal, "cts1"⟩] := by
  have valid : ∀ event ∈ [OpEvent.send smallBuy "cts1" 1, .respond "order" "1" "1",
      .respond "order" "1" "1"], event.Valid ethUsdtRegistry := by
    intro event member
    simp only [List.mem_cons, List.not_mem_nil, or_false] at member
    rcases member with rfl | rfl | rfl
    · exact ⟨by decide, ethUsdt, by decide⟩
    · trivial
    · trivial
  obtain ⟨final, ran, -, callbacks⟩ := ops_matched (by decide) valid
  exact ⟨final, ran, callbacks [] smallBuy "cts1" 1 _ rfl⟩

end CryptoTrading
