import CryptoTrading.TradingEngine.Threads

/-! # Start-up

`Init` with the private connection already in use.  For each market it subscribes
to the order updates and then queries the pending orders, page by page; all of them
are entered as live at the end.  Meanwhile the exchange goes on, takes a subscription
up at some moment after it was sent, and the listener handles what is published.
When `Init` is through, the strategy is given the pending orders and then takes the
reports out of its ring.  The first pass of the reconciler comes later. -/
set_option autoImplicit false

namespace CryptoTrading

open TradingEngine

inductive InitPoint where
  | subscribe (market : MarketType)
  | ask (market : MarketType)
  /-- Of the orders that were pending at the first page, those not shown yet. -/
  | read (market : MarketType) (owed : Finset String)
  | insert
  | finished
  deriving DecidableEq

structure StartUp where
  engine : TradingEngine := {}
  exchange : Exchange := ∅
  subscribed : List MarketType := []
  /-- The markets whose order updates are published on the connection. -/
  effective : List MarketType := []
  wire : List PendingOrderInfo := []
  listener : Option OrderUpdate := none
  point : InitPoint := .subscribe .spot
  allPendingOrders : List PendingOrderInfo := []
  strategyStarted : Bool := false
  /-- The reports that `OnExecutionReport` was called with. -/
  reports : List ExecutionReport := []
  deriving DecidableEq

inductive StartAction where
  | publish (entry : PendingOrderInfo)
  | takeUp (market : MarketType)
  | receive
  | update
  | subscribe
  | ask
  | page (ids : List String)
  | endQuery
  | insert
  | record (clientOrderId : String) (reservation : ReservationInfo)
  /-- Account updates, `InitSwapFromExchange` and the strategy write the positions too. -/
  | writePositions (positions : PositionManager)
  | startStrategy
  | pop
  deriving DecidableEq

def Exchange.pendingIds (exchange : Exchange) (market : MarketType) : Finset String :=
  exchange.keys.filter fun orderId => ∃ entry ∈ exchange.lookup orderId,
    isPending entry.report.status = true ∧ entry.report.marketType = market

/-- An element of a page as the query decodes it; the fee is not read. -/
def queried (entry : PendingOrderInfo) : PendingOrderInfo :=
  { entry with report := { entry.report with fee := 0, feeCurrency := "" } }

/-- What a page shows of an order; one on an unregistered instrument is skipped. -/
def shownOrder (registry : InstrumentRegistry) (exchange : Exchange) (market : MarketType)
    (orderId : String) : Option PendingOrderInfo :=
  match exchange.lookup orderId with
  | none => none
  | some entry =>
      if isPending entry.report.status = true ∧ entry.report.marketType = market ∧
          registry.find entry.report.instrument ≠ none then
        some (queried entry)
      else none

def InitPoint.afterQuery : MarketType → InitPoint
  | .spot => .subscribe .swap
  | .swap => .insert

namespace StartUp

/-- The orders that `Reconstruct` is called with. -/
def pendingOrders (state : StartUp) : List ExecutionReport :=
  (state.allPendingOrders.map PendingOrderInfo.report).filter fun report =>
    report.instrument ∈ state.engine.strategyInstruments

/-- What the strategy has been told, from the first call on. -/
def knowledge (state : StartUp) : List ExecutionReport := state.pendingOrders ++ state.reports

def insertPending (engine : TradingEngine) (pending : List PendingOrderInfo) : TradingEngine :=
  (pending.map PendingOrderInfo.report).foldl
    (fun engine order => engine.insertLive order.orderId order.instrument) engine

def step (registry : InstrumentRegistry) (state : StartUp) : StartAction → Option StartUp
  | .publish entry =>
      if Threads.Publishable state.exchange entry then
        some { state with
          exchange := state.exchange.insert entry.report.orderId entry
          wire := if entry.report.marketType ∈ state.effective then state.wire ++ [entry]
            else state.wire }
      else none
  | .takeUp market =>
      if market ∈ state.subscribed then
        some { state with effective := market :: state.effective }
      else none
  | .receive =>
      match state.listener, state.wire with
      | none, entry :: rest =>
          -- `DecodeOrderUpdate` passes over unregistered instruments
          some { state with
            wire := rest
            listener := if registry.find entry.report.instrument = none then none
              else some { report := entry.report, clientOrderId := entry.clientOrderId } }
      | _, _ => none
  | .update =>
      match state.listener with
      | none => none
      | some call =>
          (call.step registry state.engine).map fun result =>
            { state with engine := result.1, listener := result.2 }
  | .subscribe =>
      match state.point with
      | .subscribe market =>
          some { state with subscribed := market :: state.subscribed, point := .ask market }
      | _ => none
  | .ask =>
      match state.point with
      | .ask market =>
          some { state with point := .read market (state.exchange.pendingIds market) }
      | _ => none
  | .page ids =>
      match state.point with
      | .read market owed =>
          some { state with
            point := .read market (owed \ ids.toFinset)
            allPendingOrders := state.allPendingOrders ++
              ids.filterMap (shownOrder registry state.exchange market) }
      | _ => none
  | .endQuery =>
      match state.point with
      | .read market _ => some { state with point := InitPoint.afterQuery market }
      | _ => none
  | .insert =>
      if state.point = .insert then
        some { state with
          engine := insertPending state.engine state.allPendingOrders
          point := .finished }
      else none
  | .record clientOrderId reservation =>
      if state.point = .finished ∧ Threads.Unsent state.exchange clientOrderId then
        some { state with
          engine := { state.engine with
            clientOrderIdToReservation :=
              state.engine.clientOrderIdToReservation.insert clientOrderId reservation } }
      else none
  | .writePositions positions =>
      some { state with engine := state.engine.setPositions positions }
  | .startStrategy =>
      if state.point = .finished then some { state with strategyStarted := true } else none
  | .pop =>
      if state.strategyStarted then
        (shmPop state.engine.reportRing).map fun popped =>
          { state with
            engine := { state.engine with reportRing := popped.2 }
            reports := state.reports ++ [popped.1] }
      else none

/-! ## What can go wrong for one order -/

/-- A page is still to come that shows the order if it is pending. -/
def WillRead (market : MarketType) (orderId : String) (state : StartUp) : Prop :=
  match state.point with
  | .subscribe next => next = .spot ∨ market = .swap
  | .ask next => next = .spot ∨ market = .swap
  | .read current owed =>
      current = market ∧ orderId ∈ owed ∨ current = .spot ∧ market = .swap
  | .insert => False
  | .finished => False

instance (market : MarketType) (orderId : String) (state : StartUp) :
    Decidable (WillRead market orderId state) := by
  unfold WillRead
  split <;> infer_instance

/-- The order changes when it has been read and is not published yet, or a query
ends in front of it. -/
def PassedOver (orderId : String) (state : StartUp) : StartAction → Prop
  | .publish entry =>
      entry.report.orderId = orderId ∧ entry.report.marketType ∉ state.effective ∧
        ¬ WillRead entry.report.marketType orderId state
  | .endQuery =>
      match state.point with
      | .read market owed => orderId ∈ owed ∧ orderId ∈ state.exchange.pendingIds market
      | _ => False
  | _ => False

instance (orderId : String) (state : StartUp) (action : StartAction) :
    Decidable (PassedOver orderId state action) := by
  cases action <;> unfold PassedOver <;> try infer_instance
  cases state.point <;> infer_instance

/-- The first page is answered before the subscription is taken up, or the query ends
in front of a pending order. -/
def Hasty (state : StartUp) : StartAction → Prop
  | .ask =>
      match state.point with
      | .ask market => market ∉ state.effective
      | _ => False
  | .endQuery =>
      match state.point with
      | .read market owed => 0 < (owed ∩ state.exchange.pendingIds market).card
      | _ => False
  | _ => False

instance (state : StartUp) (action : StartAction) : Decidable (Hasty state action) := by
  cases action <;> unfold Hasty <;> try infer_instance
  all_goals cases state.point <;> infer_instance

/-- The listener handles the end of an order that `Init` has read and is still going
to enter. -/
def Crosses (orderId : String) (state : StartUp) : StartAction → Prop
  | .update =>
      match state.listener with
      | none => False
      | some call =>
          call.point = .updateLive ∧ call.report.orderId = orderId ∧
            isPending call.report.status = false ∧ state.point ≠ .finished ∧
            orderId ∈ state.allPendingOrders.map fun info => info.report.orderId
  | _ => False

instance (orderId : String) (state : StartUp) (action : StartAction) :
    Decidable (Crosses orderId state action) := by
  cases action <;> unfold Crosses <;> try infer_instance
  cases state.listener <;> infer_instance

/-- The listener takes a cancel for a repeated one, or finds the ring full. -/
def Untold (orderId : String) (state : StartUp) : StartAction → Prop
  | .update =>
      match state.listener with
      | none => False
      | some call =>
          call.report.orderId = orderId ∧
            (call.point = .updateLive ∧ state.engine.isDuplicateCancel call.report = true ∨
              call.point = .pushReport ∧
                shmPush executionReportRingCapacity state.engine.reportRing call.report = none)
  | _ => False

instance (orderId : String) (state : StartUp) (action : StartAction) :
    Decidable (Untold orderId state action) := by
  cases action <;> unfold Untold <;> try infer_instance
  cases state.listener <;> infer_instance

/-- `Init` is about to subscribe, and nothing has been heard or entered yet. -/
structure Begins (orderId : String) (state : StartUp) : Prop where
  keyed : ∀ {id entry}, state.exchange.lookup id = some entry → entry.report.orderId = id
  notLive : orderId ∉ state.engine.liveOrderInstruments
  ring : state.engine.reportRing = []
  effective : state.effective = []
  wire : state.wire = []
  listener : state.listener = none
  point : state.point = .subscribe .spot
  allPendingOrders : state.allPendingOrders = []
  reports : state.reports = []

structure Settled (orderId : String) (state : StartUp) : Prop where
  wire : ∀ info ∈ state.wire, info.report.orderId ≠ orderId
  listener : ∀ call ∈ state.listener, call.report.orderId ≠ orderId

/-- Without anything published meanwhile, this is what `init` makes of the pages. -/
theorem insertPending_eq_init (strategyInstruments : List String)
    (balances : List (String × PositionManager.Balance))
    (swapPositions : List ((String × PosSide) × SwapPosition))
    (spotPending swapPending : List PendingOrderInfo) :
    insertPending
        { positionManager := (PositionManager.initSpotFromExchange {} balances).initSwapFromExchange
            swapPositions
          strategyInstruments := strategyInstruments } (spotPending ++ swapPending) =
      TradingEngine.init strategyInstruments balances swapPositions spotPending swapPending := rfl

end StartUp

end CryptoTrading
