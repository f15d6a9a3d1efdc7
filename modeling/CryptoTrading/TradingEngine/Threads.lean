import CryptoTrading.TradingEngine.Reconcile

/-! # Listener and reconciler, interleaved

Both threads call `HandleOrderUpdate` on the one engine.  A call stands before
one of its lock scopes, and each lock scope is one step; so are the scopes and
the queries of a `ReconcileOrders` pass, the publication of a report by the
exchange and the dispatcher's record of a reservation. -/
set_option autoImplicit false

namespace CryptoTrading

open TradingEngine

/-! ## `HandleOrderUpdate`, one lock scope at a time -/

/-- The lock scope that a call of `HandleOrderUpdate` takes next. -/
inductive UpdatePoint where
  | checkLive
  | checkReservation
  | recoverPositions
  | recoverLive
  | updateLive
  | eraseReservation
  | applyReport
  | pushReport
  deriving DecidableEq, Repr

/-- A call of `HandleOrderUpdate` that has not returned. -/
structure OrderUpdate where
  report : ExecutionReport
  clientOrderId : String
  point : UpdatePoint := .checkLive
  deriving DecidableEq

namespace OrderUpdate

def goto (call : OrderUpdate) (point : UpdatePoint) : OrderUpdate := { call with point := point }

/-- One lock scope; the call is gone when it has returned. -/
def step (registry : InstrumentRegistry) (engine : TradingEngine) (call : OrderUpdate) :
    Option (TradingEngine × Option OrderUpdate) :=
  match call.point with
  | .checkLive =>
      if call.report.status ≠ .new ∧ call.clientOrderId ≠ "" ∧
          call.report.orderId ∉ engine.liveOrderInstruments then
        some (engine, some (call.goto .checkReservation))
      else some (engine, some (call.goto .updateLive))
  | .checkReservation =>
      if call.clientOrderId ∈ engine.clientOrderIdToReservation then
        some (engine, some (call.goto .recoverPositions))
      else some (engine, some (call.goto .updateLive))
  | .recoverPositions =>
      (engine.recoverPositions registry call.report).map fun engine =>
        (engine, some (call.goto .recoverLive))
  | .recoverLive =>
      some (engine.insertLive call.report.orderId call.report.instrument,
        some (call.goto .updateLive))
  | .updateLive =>
      if engine.isDuplicateCancel call.report then some (engine, none)
      else some (engine.updateLiveOrders call.report, some (call.goto .eraseReservation))
  | .eraseReservation =>
      some (engine.eraseReservation call.report call.clientOrderId,
        some (call.goto .applyReport))
  | .applyReport =>
      (TradingEngine.applyReport registry engine.positionManager call.report).map fun pm =>
        (engine.setPositions pm, some (call.goto .pushReport))
  | .pushReport => some (engine.pushReport call.report, none)

end OrderUpdate

/-! ## `ReconcileOrders`, one query or lock scope at a time -/

/-- How far a pass has come.  `remote` are the pending orders of the answers so
far, `rest` the orphans or the client order ids of the turns still to take. -/
inductive Pass where
  | idle
  | askedSpot (remote : List PendingOrderInfo)
  | asked (remote : List PendingOrderInfo)
  | orphans (remote : List PendingOrderInfo) (rest : List (String × String))
  | missedNews (remote : List PendingOrderInfo) (rest : List String)
  deriving DecidableEq

inductive PassAction where
  | querySpot (answer : List PendingOrderInfo)
  | querySwap (answer : List PendingOrderInfo)
  | snapshotLive (ids : List String)
  | queryOrder (answer : Option PendingOrderInfo)
  | copyReservations (ids : List String)
  | checkAlreadyLive
  | finish
  deriving DecidableEq

/-- A REST answer has the state of the order, but counts its fees differently. -/
def SameState (entry answer : PendingOrderInfo) : Prop :=
  { answer.report with fee := entry.report.fee, feeCurrency := entry.report.feeCurrency } =
      entry.report ∧
    answer.clientOrderId = entry.clientOrderId

instance (entry answer : PendingOrderInfo) : Decidable (SameState entry answer) :=
  inferInstanceAs (Decidable (_ ∧ _))

/-- What an answer shows is the state on the exchange at that moment. -/
def TrueAnswer (exchange : Exchange) (answer : PendingOrderInfo) : Prop :=
  match exchange.lookup answer.report.orderId with
  | none => False
  | some entry => SameState entry answer

instance (exchange : Exchange) (answer : PendingOrderInfo) :
    Decidable (TrueAnswer exchange answer) := by
  unfold TrueAnswer
  split <;> infer_instance

/-- A list of pending orders may be cut short, by a failed request or page. -/
def TruePending (exchange : Exchange) (market : MarketType) (answer : List PendingOrderInfo) :
    Prop :=
  ∀ info ∈ answer, TrueAnswer exchange info ∧ isPending info.report.status = true ∧
    info.report.marketType = market

instance (exchange : Exchange) (market : MarketType) (answer : List PendingOrderInfo) :
    Decidable (TruePending exchange market answer) :=
  inferInstanceAs (Decidable (∀ info ∈ answer, _))

def Enumerates (ids : List String) (keys : Finset String) : Prop := ids.Nodup ∧ ids.toFinset = keys

instance (ids : List String) (keys : Finset String) : Decidable (Enumerates ids keys) :=
  inferInstanceAs (Decidable (_ ∧ _))

def replayCall (answer : Option PendingOrderInfo) : Option OrderUpdate :=
  match answer with
  | none => none
  | some info =>
      if isPending info.report.status then none
      else some { report := info.report, clientOrderId := info.clientOrderId }

def missedNewCall (engine : TradingEngine) (remote : List PendingOrderInfo)
    (clientOrderId : String) : Option OrderUpdate :=
  match (remoteByClientOrderId remote).lookup clientOrderId with
  | none => none
  | some report =>
      if report.orderId ∈ engine.liveOrderInstruments then none
      else some { report := asNew report, clientOrderId := clientOrderId }

/-- One query or lock scope of a pass, with the call that it leads to. -/
def passStep (engine : TradingEngine) (exchange : Exchange) :
    Pass → PassAction → Option (Pass × Option OrderUpdate)
  | .idle, .querySpot answer =>
      if TruePending exchange .spot answer then some (.askedSpot answer, none) else none
  | .askedSpot remote, .querySwap answer =>
      if TruePending exchange .swap answer then some (.asked (remote ++ answer), none) else none
  | .asked remote, .snapshotLive ids =>
      if Enumerates ids engine.liveOrderInstruments.keys then
        some (.orphans remote (engine.orphans remote ids), none)
      else none
  | .orphans remote (orphan :: rest), .queryOrder answer =>
      if ∀ info ∈ answer, info.report.orderId = orphan.1 ∧ TrueAnswer exchange info then
        some (.orphans remote rest, replayCall answer)
      else none
  | .orphans remote [], .copyReservations ids =>
      if Enumerates ids engine.clientOrderIdToReservation.keys then
        some (.missedNews remote ids, none)
      else none
  | .missedNews remote (clientOrderId :: rest), .checkAlreadyLive =>
      some (.missedNews remote rest, missedNewCall engine remote clientOrderId)
  | .missedNews _ [], .finish => some (.idle, none)
  | _, _ => none

/-! ## The threads and the exchange -/

inductive Thread where
  | listener | reconciler
  deriving DecidableEq, Repr

/-- The exchange with the state of every order, the reports on their way to the
listener, and the two threads. -/
structure Threads where
  engine : TradingEngine := {}
  exchange : Exchange := ∅
  wire : List PendingOrderInfo := []
  listener : Option OrderUpdate := none
  reconciler : Option OrderUpdate := none
  pass : Pass := .idle
  deriving DecidableEq

inductive ThreadAction where
  | publish (entry : PendingOrderInfo)
  | record (clientOrderId : String) (reservation : ReservationInfo)
  | receive
  | update (thread : Thread)
  | reconcile (action : PassAction)
  deriving DecidableEq

namespace Threads

def current (state : Threads) : Thread → Option OrderUpdate
  | .listener => state.listener
  | .reconciler => state.reconciler

def setCurrent (state : Threads) (call : Option OrderUpdate) : Thread → Threads
  | .listener => { state with listener := call }
  | .reconciler => { state with reconciler := call }

/-- What all reports of one order have in common. -/
def identity (report : ExecutionReport) : ExecutionReport :=
  { report with status := .new, filledVolume := 0, avgFillPrice := 0, fee := 0, feeCurrency := "" }

/-- The reports that can follow `before` in the history of an order.  The states that
the client reads as REJECTED are not among them. -/
def Follows (before entry : PendingOrderInfo) : Prop :=
  isPending before.report.status = true ∧ entry.clientOrderId = before.clientOrderId ∧
    identity entry.report = identity before.report ∧
    match entry.report.status with
    | .partiallyFilled => before.report.filledVolume < entry.report.filledVolume
    | .filled => before.report.filledVolume ≤ entry.report.filledVolume ∧
        0 < entry.report.filledVolume
    | .cancelled => before.report.filledVolume = entry.report.filledVolume
    | .new => False
    | .cancelFailed => False
    | .rejected => False

instance (before entry : PendingOrderInfo) : Decidable (Follows before entry) := by
  unfold Follows
  cases entry.report.status <;> infer_instance

/-- A history starts with a NEW. -/
def Publishable (exchange : Exchange) (entry : PendingOrderInfo) : Prop :=
  match exchange.lookup entry.report.orderId with
  | none => entry.report.status = .new ∧ entry.report.filledVolume = 0
  | some before => Follows before entry

instance (exchange : Exchange) (entry : PendingOrderInfo) :
    Decidable (Publishable exchange entry) := by
  unfold Publishable
  split <;> infer_instance

/-- No order on the exchange carries the client order id: the dispatcher records
it before it sends the order. -/
def Unsent (exchange : Exchange) (clientOrderId : String) : Prop :=
  ∀ orderId ∈ exchange.keys,
    (exchange.lookup orderId).map PendingOrderInfo.clientOrderId ≠ some clientOrderId

instance (exchange : Exchange) (clientOrderId : String) :
    Decidable (Unsent exchange clientOrderId) :=
  inferInstanceAs (Decidable (∀ orderId ∈ exchange.keys, _))

def step (registry : InstrumentRegistry) (state : Threads) : ThreadAction → Option Threads
  | .publish entry =>
      if Publishable state.exchange entry then
        some { state with
          exchange := state.exchange.insert entry.report.orderId entry
          wire := state.wire ++ [entry] }
      else none
  | .record clientOrderId reservation =>
      if Unsent state.exchange clientOrderId then
        some { state with
          engine := { state.engine with
            clientOrderIdToReservation :=
              state.engine.clientOrderIdToReservation.insert clientOrderId reservation } }
      else none
  | .receive =>
      match state.listener, state.wire with
      | none, entry :: rest =>
          some { state with
            wire := rest
            listener := some { report := entry.report, clientOrderId := entry.clientOrderId } }
      | _, _ => none
  | .update thread =>
      match state.current thread with
      | none => none
      | some call =>
          (call.step registry state.engine).map fun result =>
            { state with engine := result.1 }.setCurrent result.2 thread
  | .reconcile action =>
      if state.reconciler = none then
        (passStep state.engine state.exchange state.pass action).map fun result =>
          { state with pass := result.1, reconciler := result.2 }
      else none

/-! ## What a step does to one order -/

def applied (state : Threads) : ThreadAction → Option ExecutionReport
  | .update thread =>
      match state.current thread with
      | none => none
      | some call => if call.point = .applyReport then some call.report else none
  | .publish _ => none
  | .record _ _ => none
  | .receive => none
  | .reconcile _ => none

def started (state : Threads) : ThreadAction → Option OrderUpdate
  | .reconcile action => (passStep state.engine state.exchange state.pass action).bind Prod.snd
  | .publish _ => none
  | .record _ _ => none
  | .receive => none
  | .update _ => none

/-- A pass has got a terminal state of the order back and replays it. -/
def ReplaysTerminal (orderId : String) (state : Threads) (action : ThreadAction) : Prop :=
  match started state action with
  | none => False
  | some call => call.report.orderId = orderId ∧ call.report.status ≠ .new

instance (orderId : String) (state : Threads) (action : ThreadAction) :
    Decidable (ReplaysTerminal orderId state action) := by
  unfold ReplaysTerminal
  cases started state action <;> infer_instance

/-- A pass has found the order not live and makes a NEW for it. -/
def StartsMissedNew (orderId : String) (state : Threads) (action : ThreadAction) : Prop :=
  match started state action with
  | none => False
  | some call => call.report.orderId = orderId ∧ call.report.status = .new

instance (orderId : String) (state : Threads) (action : ThreadAction) :
    Decidable (StartsMissedNew orderId state action) := by
  unfold StartsMissedNew
  cases started state action <;> infer_instance

/-- No report of the order is on its way and no thread is at work. -/
structure Begun (orderId : String) (state : Threads) : Prop where
  unplaced : orderId ∉ state.exchange
  notLive : orderId ∉ state.engine.liveOrderInstruments
  spotTracker : state.engine.positionManager.spotOrderFillTracker.getD orderId 0 = 0
  swapTracker : state.engine.positionManager.swapOrderFillTracker.getD orderId 0 = 0
  contracts : ∀ instrument positionSide,
    0 ≤ (state.engine.positionManager.swap instrument positionSide).contracts
  wire : state.wire = []
  listener : state.listener = none
  reconciler : state.reconciler = none
  pass : state.pass = .idle

/-- Every report of the order has been handled, and no call is about it. -/
structure Settled (orderId : String) (state : Threads) : Prop where
  wire : ∀ info ∈ state.wire, info.report.orderId ≠ orderId
  calls : ∀ thread, ∀ call ∈ state.current thread, call.report.orderId ≠ orderId

end Threads

end CryptoTrading
