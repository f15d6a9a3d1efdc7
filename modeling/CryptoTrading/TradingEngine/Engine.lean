import CryptoTrading.Lib.Runs
import CryptoTrading.TradingEngine.PositionManager

/-! # Trading engine

`HandleOrderUpdate` as the sequence of its lock scopes, the dispatcher step, the
strategy's emit calls and the op responses of the private connection.  `none`
is an exception or a null dereference that ends the process; logging is left
out except where it dereferences the instrument's registry entry. -/
set_option autoImplicit false

namespace CryptoTrading

structure ReservationInfo where
  instrument : String
  currency : String
  amount : ℚ
  side : Side
  tradeMode : TradeMode
  deriving DecidableEq

structure TradingEngine where
  positionManager : PositionManager := {}
  liveOrderInstruments : UnorderedMap String String := ∅
  clientOrderIdToReservation : UnorderedMap String ReservationInfo := ∅
  strategyInstruments : List String := []
  reportRing : List ExecutionReport := []
  deriving DecidableEq

def lockedCurrency (instrument : String) (side : Side) : String :=
  match dashSplit instrument with
  | none => instrument
  | some (base, quote) => if side = .sell then base else quote

namespace TradingEngine

def setPositions (engine : TradingEngine) (pm : PositionManager) : TradingEngine :=
  { engine with positionManager := pm }

def insertLive (engine : TradingEngine) (orderId instrument : String) : TradingEngine :=
  { engine with liveOrderInstruments := engine.liveOrderInstruments.insert orderId instrument }

def eraseLive (engine : TradingEngine) (orderId : String) : TradingEngine :=
  { engine with liveOrderInstruments := engine.liveOrderInstruments.erase orderId }

/-! ## The parts of `HandleOrderUpdate` -/

/-- The two map reads behind `needs_recovery`. -/
def needsRecovery (engine : TradingEngine) (report : ExecutionReport) (clientOrderId : String) :
    Bool :=
  report.status ≠ .new ∧ clientOrderId ≠ "" ∧
    report.orderId ∉ engine.liveOrderInstruments ∧
    clientOrderId ∈ engine.clientOrderIdToReservation

/-- The position part of the recovery: a second copy of the NEW handling. -/
def recoverPositions (registry : InstrumentRegistry) (engine : TradingEngine)
    (report : ExecutionReport) : Option TradingEngine :=
  if report.marketType = .spot then
    (engine.positionManager.updateSpotOnNew registry report report.tradeMode).map
      engine.setPositions
  else some engine

def recoverMissedNew (registry : InstrumentRegistry) (engine : TradingEngine)
    (report : ExecutionReport) (clientOrderId : String) : Option TradingEngine :=
  if engine.needsRecovery report clientOrderId then
    (engine.recoverPositions registry report).map fun engine =>
      engine.insertLive report.orderId report.instrument
  else some engine

def isDuplicateCancel (engine : TradingEngine) (report : ExecutionReport) : Bool :=
  report.status = .cancelled ∧ report.orderId ∉ engine.liveOrderInstruments

def updateLiveOrders (engine : TradingEngine) (report : ExecutionReport) : TradingEngine :=
  match report.status with
  | .cancelled => engine.eraseLive report.orderId
  | .new => engine.insertLive report.orderId report.instrument
  | .filled => engine.eraseLive report.orderId
  | .rejected => engine.eraseLive report.orderId
  | .partiallyFilled => engine
  | .cancelFailed => engine

/-- The statuses that drop the reservation record of their client order id. -/
def endsReservation : OrderStatus → Bool
  | .new => true
  | .filled => true
  | .cancelled => true
  | .rejected => true
  | .partiallyFilled => false
  | .cancelFailed => false

def eraseReservation (engine : TradingEngine) (report : ExecutionReport)
    (clientOrderId : String) : TradingEngine :=
  if clientOrderId ≠ "" ∧ endsReservation report.status then
    { engine with
      clientOrderIdToReservation := engine.clientOrderIdToReservation.erase clientOrderId }
  else engine

/-- The position manager call of each status, with the dereference of `info`
that its log line makes. -/
def applyReport (registry : InstrumentRegistry) (pm : PositionManager)
    (report : ExecutionReport) : Option PositionManager :=
  match report.status with
  | .filled | .partiallyFilled => do
      let pm ←
        if report.marketType = .swap then pm.updateSwapOnFill registry report
        else pm.updateSpotOnFill registry report report.tradeMode
      let _ ← registry.find report.instrument
      some pm
  | .cancelled =>
      if report.marketType = .swap then some (pm.updateSwapOnCancel report)
      else do
        let pm ← pm.updateSpotOnCancel registry report report.tradeMode
        let _ ← registry.find report.instrument
        some pm
  | .rejected =>
      if report.marketType = .swap then some (pm.updateSwapOnRejected report)
      else pm.updateSpotOnRejected registry report report.tradeMode
  | .new =>
      if report.marketType ≠ .swap then do
        let pm ← pm.updateSpotOnNew registry report report.tradeMode
        let _ ← registry.find report.instrument
        some pm
      else some pm
  | .cancelFailed => some pm

/-- The result of `shm_push` is not looked at. -/
def pushReport (engine : TradingEngine) (report : ExecutionReport) : TradingEngine :=
  if report.instrument ∈ engine.strategyInstruments then
    { engine with
      reportRing :=
        (shmPush executionReportRingCapacity engine.reportRing report).getD engine.reportRing }
  else engine

def handleOrderUpdate (registry : InstrumentRegistry) (engine : TradingEngine)
    (report : ExecutionReport) (clientOrderId : String) : Option TradingEngine := do
  let engine ← engine.recoverMissedNew registry report clientOrderId
  if engine.isDuplicateCancel report then some engine
  else
    let engine := (engine.updateLiveOrders report).eraseReservation report clientOrderId
    let pm ← applyReport registry engine.positionManager report
    some ((engine.setPositions pm).pushReport report)

end TradingEngine

/-- One entry of the pending-order queries. -/
structure PendingOrderInfo where
  report : ExecutionReport
  clientOrderId : String
  deriving DecidableEq

/-- The part of `Init` that fills the engine from the exchange's answers. -/
def TradingEngine.init (strategyInstruments : List String)
    (balances : List (String × PositionManager.Balance))
    (swapPositions : List ((String × PosSide) × SwapPosition))
    (spotPending swapPending : List PendingOrderInfo) : TradingEngine :=
  let allPendingOrders := (spotPending ++ swapPending).map PendingOrderInfo.report
  let engine : TradingEngine :=
    { positionManager :=
        (PositionManager.initSpotFromExchange {} balances).initSwapFromExchange swapPositions
      strategyInstruments := strategyInstruments }
  allPendingOrders.foldl (fun engine order => engine.insertLive order.orderId order.instrument)
    engine

/-! ## `ReconcileOrders`

The two pending lists and the answers of `QueryOrderById` are parameters; so is
the order in which the two hash tables are walked. -/

namespace TradingEngine

def remoteActive (remote : List PendingOrderInfo) : List String :=
  remote.map fun info => info.report.orderId

/-- A later entry overwrites an earlier one with the same client order id. -/
def remoteByClientOrderId (remote : List PendingOrderInfo) :
    UnorderedMap String ExecutionReport :=
  remote.foldl (fun table info =>
    if info.clientOrderId ≠ "" then table.insert info.clientOrderId info.report else table) ∅

/-- The live ids, in the order `ids`, that the pending lists do not contain. -/
def orphans (engine : TradingEngine) (remote : List PendingOrderInfo) (ids : List String) :
    List (String × String) :=
  ids.filterMap fun id =>
    if id ∈ remoteActive remote then none
    else (engine.liveOrderInstruments.lookup id).map fun instrument => (id, instrument)

/-- The statuses with which an orphan is skipped as still live on the exchange. -/
def isPending : OrderStatus → Bool
  | .new => true
  | .partiallyFilled => true
  | .filled => false
  | .cancelled => false
  | .cancelFailed => false
  | .rejected => false

/-- The turn of the first loop for one orphan. -/
def replayTerminal (registry : InstrumentRegistry)
    (queryOrderById : String → String → Option PendingOrderInfo) (engine : TradingEngine)
    (orphan : String × String) : Option TradingEngine :=
  match queryOrderById orphan.2 orphan.1 with
  | none => some engine
  | some answer =>
      if isPending answer.report.status then some engine
      else engine.handleOrderUpdate registry answer.report answer.clientOrderId

/-- `synth.status = OrderStatus::NEW`. -/
def asNew (report : ExecutionReport) : ExecutionReport := { report with status := .new }

/-- The turn of the second loop for one recorded client order id. -/
def replayMissedNew (registry : InstrumentRegistry)
    (remoteById : UnorderedMap String ExecutionReport) (engine : TradingEngine)
    (clientOrderId : String) : Option TradingEngine :=
  match remoteById.lookup clientOrderId with
  | none => some engine
  | some report =>
      if report.orderId ∈ engine.liveOrderInstruments then some engine
      else engine.handleOrderUpdate registry (asNew report) clientOrderId

/-- A pass of `ReconcileOrders` that no other thread interrupts. -/
def reconcileOrders (registry : InstrumentRegistry)
    (iteration : UnorderedMap.IterationOrder String) (remoteSpot remoteSwap : List PendingOrderInfo)
    (queryOrderById : String → String → Option PendingOrderInfo) (engine : TradingEngine) :
    Option TradingEngine := do
  let remote := remoteSpot ++ remoteSwap
  let engine ← Runs.run (replayTerminal registry queryOrderById) engine
    (engine.orphans remote (iteration.enumerate engine.liveOrderInstruments.keys))
  Runs.run (replayMissedNew registry (remoteByClientOrderId remote)) engine
    (iteration.enumerate engine.clientOrderIdToReservation.keys)

end TradingEngine

/-! ## The processes around the engine -/

/-- The engine with the signal ring that feeds it and the requests whose op
response is outstanding. -/
structure TradingSystem where
  engine : TradingEngine := {}
  signalRing : List Signal := []
  pendingWsOps : UnorderedMap String OrderRequest := ∅
  deriving DecidableEq

namespace Strategy

def extractBase (instrument : String) : String :=
  match dashSplit instrument with
  | none => instrument
  | some (base, _) => base

def extractQuote (instrument : String) : String :=
  match dashSplit instrument with
  | none => instrument
  | some (_, quote) => quote

end Strategy

namespace TradingSystem

def reserve (system : TradingSystem) (currency : String) (amount : ℚ) : TradingSystem :=
  { system with
    engine := system.engine.setPositions
      (system.engine.positionManager.reserveSpot currency amount) }

def pushSignal (system : TradingSystem) (signal : Signal) : TradingSystem :=
  { system with
    signalRing := (shmPush signalRingCapacity system.signalRing signal).getD system.signalRing }

/-- The signal an emit call writes; `Signal{}` leaves the order id empty. -/
def emittedSignal (action : Action) (instrument : String) (orderType : OrderType)
    (price volume : Int) (marketType : MarketType) (positionSide : PosSide)
    (tradeMode : TradeMode) : Signal :=
  { instrument := setBuffer 32 instrument, orderId := "", action := action,
    orderType := orderType, marketType := marketType, positionSide := positionSide,
    tradeMode := tradeMode, price := price, volume := volume }

def emitBuy (registry : InstrumentRegistry) (system : TradingSystem) (instrument : String)
    (orderType : OrderType) (price volume : Int) (marketType : MarketType)
    (positionSide : PosSide) (tradeMode : TradeMode) : Option TradingSystem := do
  let system ←
    if marketType = .spot then do
      let info ← registry.get instrument
      some (system.reserve (Strategy.extractQuote instrument)
        (decode price info.pricePrecision * decode volume info.volumePrecision))
    else some system
  some (system.pushSignal
    (emittedSignal .buy instrument orderType price volume marketType positionSide tradeMode))

def emitSell (registry : InstrumentRegistry) (system : TradingSystem) (instrument : String)
    (orderType : OrderType) (price volume : Int) (marketType : MarketType)
    (positionSide : PosSide) (tradeMode : TradeMode) : Option TradingSystem := do
  let system ←
    if marketType = .spot ∧ tradeMode = .cash then do
      let info ← registry.get instrument
      some (system.reserve (Strategy.extractBase instrument)
        (decode volume info.volumePrecision))
    else some system
  some (system.pushSignal
    (emittedSignal .sell instrument orderType price volume marketType positionSide tradeMode))

def buildRequest (info : InstrumentInfo) (signal : Signal) (clientOrderId : String) :
    OrderRequest :=
  { instrument := signal.instrument
    side := if signal.action = .buy then .buy else .sell
    orderType := signal.orderType
    marketType := signal.marketType
    positionSide := signal.positionSide
    tradeMode := signal.tradeMode
    size := format signal.volume info.volumePrecision
    price := if signal.orderType = .limit then format signal.price info.pricePrecision else ""
    clientOrderId := clientOrderId }

def reservationAmount (info : InstrumentInfo) (signal : Signal) (request : OrderRequest) :
    ℚ × String :=
  if request.side = .buy then
    (decode signal.price info.pricePrecision * decode signal.volume info.volumePrecision,
      lockedCurrency signal.instrument .buy)
  else if request.tradeMode = .cash then
    (decode signal.volume info.volumePrecision, lockedCurrency signal.instrument .sell)
  else (0, "")

def recordReservation (engine : TradingEngine) (info : InstrumentInfo) (signal : Signal)
    (request : OrderRequest) : TradingEngine :=
  if signal.marketType = .spot then
    let (amount, currency) := reservationAmount info signal request
    if amount > 0 then
      { engine with
        clientOrderIdToReservation := engine.clientOrderIdToReservation.insert
          request.clientOrderId
          { instrument := signal.instrument, currency := currency, amount := amount,
            side := request.side, tradeMode := request.tradeMode } }
    else engine
  else engine

/-- One turn of `RunOrderDispatcher`.  `clientOrderId` and `opId` are the two
clock-derived ids; whether the message reaches the exchange is not looked at. -/
def dispatch (registry : InstrumentRegistry) (system : TradingSystem)
    (clientOrderId opId : String) : Option TradingSystem :=
  match shmPop system.signalRing with
  | none => some system
  | some (signal, rest) =>
      if signal.action = .cancel then some { system with signalRing := rest }
      else do
        let info ← registry.get signal.instrument
        let request := buildRequest info signal clientOrderId
        some
          { engine := recordReservation system.engine info signal request
            signalRing := rest
            pendingWsOps := system.pendingWsOps.insert opId request }

/-! ## Op responses of the private connection -/

/-- `Encode(std::stod(text))` at a precision of the instrument, 0 for an empty
text or an unregistered instrument. -/
def encodeField (registry : InstrumentRegistry) (instrument text : String)
    (precision : InstrumentInfo → Nat) : Option Int :=
  if text = "" then some 0
  else
    match registry.find instrument with
    | none => some 0
    | some info => (stod text).map fun value => encode value (precision info)

/-- The report `OnPrivateMessage` makes for a refused order.  The trade mode of
the request is not copied, so it keeps its zero value. -/
def rejectedReport (registry : InstrumentRegistry) (request : OrderRequest) :
    Option ExecutionReport := do
  let price ← encodeField registry request.instrument request.price (·.pricePrecision)
  let totalVolume ← encodeField registry request.instrument request.size (·.volumePrecision)
  some
    { instrument := setBuffer 32 request.instrument
      status := .rejected
      side := request.side
      marketType := request.marketType
      positionSide := request.positionSide
      price := price
      totalVolume := totalVolume }

/-- `OnPrivateMessage` on an op response with these three fields. -/
def onOpResponse (registry : InstrumentRegistry) (system : TradingSystem)
    (op code id : String) : Option TradingSystem :=
  if code ≠ "0" then
    if op = "order" ∧ id ≠ "" then
      match system.pendingWsOps.lookup id with
      | none => some system
      | some request => do
          let report ← rejectedReport registry request
          let engine ← system.engine.handleOrderUpdate registry report request.clientOrderId
          some { system with engine := engine, pendingWsOps := system.pendingWsOps.erase id }
    else some system
  else if op = "order" ∧ id ≠ "" then
    some { system with pendingWsOps := system.pendingWsOps.erase id }
  else some system

end TradingSystem

end CryptoTrading
