import CryptoTrading.TradingEngine.EngineSpec

/-! # From an emit call to the pending request

The reservation an emit call makes, the record the dispatcher keeps of it and
the report a refused request is turned into, for the spot LIMIT orders of this
process. -/
set_option autoImplicit false

namespace CryptoTrading

structure SpotLimit where
  instrument : String
  side : Side
  tradeMode : TradeMode
  positionSide : PosSide
  price : Int
  volume : Int
  deriving DecidableEq

namespace SpotLimit

def action (order : SpotLimit) : Action :=
  match order.side with
  | .buy => .buy
  | .sell => .sell

def signal (order : SpotLimit) : Signal :=
  TradingSystem.emittedSignal order.action order.instrument .limit order.price order.volume .spot
    order.positionSide order.tradeMode

def emit (registry : InstrumentRegistry) (system : TradingSystem) (order : SpotLimit) :
    Option TradingSystem :=
  match order.side with
  | .buy => TradingSystem.emitBuy registry system order.instrument .limit order.price order.volume
      .spot order.positionSide order.tradeMode
  | .sell => TradingSystem.emitSell registry system order.instrument .limit order.price
      order.volume .spot order.positionSide order.tradeMode

def request (info : InstrumentInfo) (order : SpotLimit) (clientOrderId : String) : OrderRequest :=
  TradingSystem.buildRequest info order.signal clientOrderId

def currency (order : SpotLimit) : String := lockedCurrencyOf order.instrument order.side

def value (info : InstrumentInfo) (order : SpotLimit) : ℚ :=
  lockValue info order.side order.price order.volume

/-- What the emit call reserves: nothing for a margin SELL. -/
def reserves (info : InstrumentInfo) (order : SpotLimit) : ℚ :=
  if HoldsLock order.side order.tradeMode then order.value info else 0

end SpotLimit

namespace TradingSystem

def positions (system : TradingSystem) : PositionManager := system.engine.positionManager

end TradingSystem

section Flow
variable {registry : InstrumentRegistry} {info : InstrumentInfo} {order : SpotLimit}

/-- The strategy's copy of the dash rule and the position manager's agree. -/
theorem lockedCurrencyOf_buy (instrument : String) :
    lockedCurrencyOf instrument .buy = Strategy.extractQuote instrument := by
  unfold lockedCurrencyOf lockedPart extractCurrency Strategy.extractQuote
  cases dashSplit instrument <;> rfl

theorem lockedCurrencyOf_sell (instrument : String) :
    lockedCurrencyOf instrument .sell = Strategy.extractBase instrument := by
  unfold lockedCurrencyOf lockedPart extractCurrency Strategy.extractBase
  cases dashSplit instrument <;> rfl

/-! ## Emitting -/

theorem reserved_reserveSpot (pm : PositionManager) (currency other : String) (amount : ℚ) :
    (pm.reserveSpot currency amount).reserved other =
      pm.reserved other + if other = currency then amount else 0 := by
  rw [PositionManager.reserveSpot, PositionManager.reserved_setReserved]
  split
  · next same => rw [same]
  · rw [add_zero]

structure EmitEffect (info : InstrumentInfo) (order : SpotLimit)
    (before after : TradingSystem) : Prop where
  reserved : ∀ currency, after.positions.reserved currency = before.positions.reserved currency +
    if currency = order.currency then order.reserves info else 0
  spot : ∀ currency, after.positions.spot currency = before.positions.spot currency
  tracker : after.positions.spotOrderFillTracker = before.positions.spotOrderFillTracker
  live : after.engine.liveOrderInstruments = before.engine.liveOrderInstruments
  reservations :
    after.engine.clientOrderIdToReservation = before.engine.clientOrderIdToReservation
  pending : after.pendingWsOps = before.pendingWsOps
  ring : before.signalRing.length < signalRingCapacity →
    after.signalRing = before.signalRing ++ [order.signal]

theorem emit_effect (known : registry.get order.instrument = some info) (system : TradingSystem) :
    ∃ after, order.emit registry system = some after ∧ EmitEffect info order system after := by
  have pushed : ∀ ring : List Signal, ring.length < signalRingCapacity →
      (shmPush signalRingCapacity ring order.signal).getD ring = ring ++ [order.signal] := by
    intro ring room
    rw [shmPush, if_pos room]
    rfl
  cases sideCase : order.side with
  | buy =>
      have sameSignal : order.signal = TradingSystem.emittedSignal .buy order.instrument .limit
          order.price order.volume .spot order.positionSide order.tradeMode := by
        rw [SpotLimit.signal, SpotLimit.action, sideCase]
      have amount : order.reserves info = decode order.price info.pricePrecision *
          decode order.volume info.volumePrecision := by
        rw [SpotLimit.reserves, SpotLimit.value, sideCase, if_pos (holdsLock_buy _), lockValue]
      rw [SpotLimit.emit, sideCase]
      simp only [TradingSystem.emitBuy, known, if_true, Option.bind_eq_bind, Option.bind_some]
      refine ⟨_, rfl, ⟨fun currency => ?_, fun _ => rfl, rfl, rfl, rfl, rfl, fun room => ?_⟩⟩
      · rw [SpotLimit.currency, sideCase, lockedCurrencyOf_buy, amount]
        exact reserved_reserveSpot ..
      · rw [← pushed _ room, sameSignal]
        rfl
  | sell =>
      have sameSignal : order.signal = TradingSystem.emittedSignal .sell order.instrument .limit
          order.price order.volume .spot order.positionSide order.tradeMode := by
        rw [SpotLimit.signal, SpotLimit.action, sideCase]
      rw [SpotLimit.emit, sideCase]
      by_cases cash : order.tradeMode = .cash
      · have amount : order.reserves info = decode order.volume info.volumePrecision := by
          rw [SpotLimit.reserves, SpotLimit.value, sideCase,
            if_pos ((holdsLock_sell _).mpr cash), lockValue]
        simp only [TradingSystem.emitSell, known, cash, and_self, if_true, Option.bind_eq_bind,
          Option.bind_some]
        refine ⟨_, rfl, ⟨fun currency => ?_, fun _ => rfl, rfl, rfl, rfl, rfl, fun room => ?_⟩⟩
        · rw [SpotLimit.currency, sideCase, lockedCurrencyOf_sell, amount]
          exact reserved_reserveSpot ..
        · rw [← pushed _ room, sameSignal, cash]
          rfl
      · have amount : order.reserves info = 0 := by
          rw [SpotLimit.reserves, sideCase,
            if_neg (fun holds => cash ((holdsLock_sell _).mp holds))]
        simp only [TradingSystem.emitSell, cash, and_false, if_false, Option.bind_eq_bind,
          Option.bind_some]
        refine ⟨_, rfl, ⟨fun currency => ?_, fun _ => rfl, rfl, rfl, rfl, rfl, fun room => ?_⟩⟩
        · rw [amount, ite_self, add_zero]
          rfl
        · rw [← pushed _ room, sameSignal]
          rfl

/-! ## Dispatching -/

/-- A name that fits its buffer; every name the registry knows does. -/
def FitsBuffer (instrument : String) : Prop := setBuffer 32 instrument = instrument

instance (instrument : String) : Decidable (FitsBuffer instrument) :=
  inferInstanceAs (Decidable (setBuffer 32 instrument = instrument))

theorem side_request (clientOrderId : String) :
    (order.request info clientOrderId).side = order.side := by
  cases sideCase : order.side <;>
    simp [SpotLimit.request, TradingSystem.buildRequest, SpotLimit.signal,
      TradingSystem.emittedSignal, SpotLimit.action, sideCase]

theorem reservationAmount_eq (clientOrderId : String) :
    (TradingSystem.reservationAmount info order.signal (order.request info clientOrderId)).1 =
      order.reserves info := by
  have mode : (order.request info clientOrderId).tradeMode = order.tradeMode := rfl
  rw [TradingSystem.reservationAmount, side_request, mode, SpotLimit.reserves, SpotLimit.value]
  cases sideCase : order.side with
  | buy =>
      rw [if_pos rfl, if_pos (holdsLock_buy _)]
      rfl
  | sell =>
      rw [if_neg (by decide)]
      by_cases cash : order.tradeMode = .cash
      · rw [if_pos cash, if_pos ((holdsLock_sell _).mpr cash)]
        rfl
      · rw [if_neg cash, if_neg (fun holds => cash ((holdsLock_sell _).mp holds))]

structure DispatchEffect (info : InstrumentInfo) (order : SpotLimit) (clientOrderId opId : String)
    (before after : TradingSystem) : Prop where
  positions : after.positions = before.positions
  live : after.engine.liveOrderInstruments = before.engine.liveOrderInstruments
  reservations : ∀ other, other ∈ after.engine.clientOrderIdToReservation ↔
    other ∈ before.engine.clientOrderIdToReservation ∨
      other = clientOrderId ∧ 0 < order.reserves info
  pending : after.pendingWsOps =
    before.pendingWsOps.insert opId (order.request info clientOrderId)

theorem dispatch_effect (known : registry.get order.instrument = some info)
    (fits : FitsBuffer order.instrument) {system : TradingSystem} {rest : List Signal}
    (ring : system.signalRing = order.signal :: rest) (clientOrderId opId : String) :
    ∃ after, system.dispatch registry clientOrderId opId = some after ∧
      DispatchEffect info order clientOrderId opId system after ∧ after.signalRing = rest := by
  have found : registry.get order.signal.instrument = some info := by
    have named : order.signal.instrument = order.instrument := fits
    rw [named]
    exact known
  have notCancel : order.signal.action ≠ .cancel := by
    have action : order.signal.action = order.action := rfl
    rw [action, SpotLimit.action]
    cases order.side <;> decide
  have recorded : TradingSystem.recordReservation system.engine info order.signal
      (order.request info clientOrderId) =
        if 0 < order.reserves info then
          { system.engine with
            clientOrderIdToReservation := system.engine.clientOrderIdToReservation.insert
              clientOrderId
              { instrument := order.signal.instrument
                currency := (TradingSystem.reservationAmount info order.signal
                  (order.request info clientOrderId)).2
                amount := order.reserves info
                side := (order.request info clientOrderId).side
                tradeMode := (order.request info clientOrderId).tradeMode } }
        else system.engine := by
    rw [TradingSystem.recordReservation, ← reservationAmount_eq clientOrderId]
    rfl
  rw [TradingSystem.dispatch, ring, shmPop]
  simp only [notCancel, if_false, found, Option.bind_eq_bind, Option.bind_some]
  rw [← SpotLimit.request, recorded]
  refine ⟨_, rfl, ⟨?_, ?_, fun other => ?_, rfl⟩, rfl⟩
  · rw [TradingSystem.positions]
    split <;> rfl
  · dsimp only
    split <;> rfl
  · dsimp only
    split
    · next positive => simp [Finmap.mem_insert, positive, or_comm]
    · next idle => simp [idle]

/-! ## A refused request -/

theorem format_ne_empty (scaled : Int) (precision : Nat) : format scaled precision ≠ "" := by
  intro empty
  have parsed := stod_format scaled precision
  rw [empty] at parsed
  have nothing : stod "" = none := by decide
  rw [nothing] at parsed
  cases parsed

theorem encodeField_format {instrument : String} (known : registry.get instrument = some info)
    (scaled : Int) (precision : InstrumentInfo → Nat) :
    TradingSystem.encodeField registry instrument (format scaled (precision info)) precision =
      some scaled := by
  have found : registry.find instrument = some info := known
  rw [TradingSystem.encodeField, if_neg (format_ne_empty scaled _), found]
  exact encode_stod_format scaled (precision info)

/-- The report of a refused request carries everything of the order but its trade mode. -/
def SpotLimit.refusal (order : SpotLimit) : ExecutionReport :=
  { instrument := order.instrument, status := .rejected, side := order.side,
    positionSide := order.positionSide, price := order.price, totalVolume := order.volume }

theorem rejectedReport_request (known : registry.get order.instrument = some info)
    (fits : FitsBuffer order.instrument) (clientOrderId : String) :
    TradingSystem.rejectedReport registry (order.request info clientOrderId) =
      some order.refusal := by
  have named : (order.request info clientOrderId).instrument = order.instrument := fits
  have price : (order.request info clientOrderId).price =
      format order.price info.pricePrecision := rfl
  have size : (order.request info clientOrderId).size =
      format order.volume info.volumePrecision := rfl
  have buffered : setBuffer 32 order.instrument = order.instrument := fits
  rw [TradingSystem.rejectedReport, named, side_request, price, size,
    encodeField_format known order.price (·.pricePrecision),
    encodeField_format known order.volume (·.volumePrecision), buffered]
  rfl

end Flow

end CryptoTrading
