import CryptoTrading.Clients.OkxOrder
import CryptoTrading.TradingEngine.OrderFlow
import CryptoTrading.TradingEngine.OrderHistory

/-! # The amount of a spot BUY

Four places work out what a BUY costs in quote currency: the emit call, the
dispatcher, the order message and the NEW report.  The first two multiply price
and volume whatever the order type is; the message makes the volume of a MARKET
order the quote amount itself, and its report has no price. -/
set_option autoImplicit false

namespace CryptoTrading

structure SpotBuy where
  instrument : String
  orderType : OrderType
  positionSide : PosSide
  tradeMode : TradeMode
  price : Int
  volume : Int
  deriving DecidableEq

namespace SpotBuy

def signal (order : SpotBuy) : Signal :=
  TradingSystem.emittedSignal .buy order.instrument order.orderType order.price order.volume .spot
    order.positionSide order.tradeMode

def request (info : InstrumentInfo) (order : SpotBuy) (clientOrderId : String) : OrderRequest :=
  TradingSystem.buildRequest info order.signal clientOrderId

def quoteCurrency (order : SpotBuy) : String := lockedCurrencyOf order.instrument .buy

def value (info : InstrumentInfo) (order : SpotBuy) : ℚ :=
  decode order.price info.pricePrecision * decode order.volume info.volumePrecision

/-- What `EmitBuy` adds to the reserved quote currency. -/
def reservedBy (registry : InstrumentRegistry) (system : TradingSystem) (order : SpotBuy) :
    Option ℚ :=
  (system.emitBuy registry order.instrument order.orderType order.price order.volume .spot
    order.positionSide order.tradeMode).map fun after =>
      after.positions.reserved order.quoteCurrency - system.positions.reserved order.quoteCurrency

/-- What the dispatcher files for the order; nothing on file counts as zero. -/
def recordedBy (registry : InstrumentRegistry) (system : TradingSystem) (rest : List Signal)
    (clientOrderId opId : String) (order : SpotBuy) : Option ℚ :=
  (TradingSystem.dispatch registry { system with signalRing := order.signal :: rest }
    clientOrderId opId).map fun after =>
      (after.engine.clientOrderIdToReservation.lookup clientOrderId).elim 0 ReservationInfo.amount

/-- What the NEW report of an update adds to the frozen quote currency. -/
def movedBy (registry : InstrumentRegistry) (pm : PositionManager) (data : OrderRecord)
    (order : SpotBuy) : Option ℚ :=
  (decodeOrderUpdate registry data).bind fun decoded =>
    (pm.updateSpotOnNew registry decoded.1 decoded.1.tradeMode).map fun after =>
      (after.spot order.quoteCurrency).frozen - (pm.spot order.quoteCurrency).frozen

end SpotBuy

/-- The quote amount that the members of a spot BUY message commit to: `px * sz`
for LIMIT, `sz` when it is said to be in quote currency. -/
def committedAmount (members : List (String × String)) : Option ℚ :=
  if members.lookup "ordType" = some "limit" then do
    let price ← (members.lookup "px").bind stod
    let size ← (members.lookup "sz").bind stod
    some (price * size)
  else if members.lookup "tgtCcy" = some "quote_ccy" then (members.lookup "sz").bind stod
  else none

/-- The update by which the exchange accepts an order: `sz` and `px` as they were
sent, `px` empty when none was. -/
structure Acknowledges (instrument : String) (members : List (String × String))
    (data : OrderRecord) : Prop where
  instId : data.instId = instrument
  state : data.state = "live"
  side : members.lookup "side" = some data.side
  sz : data.sz = (members.lookup "sz").bind stod
  px : data.px = (members.lookup "px").bind stod

def OneAmount (registry : InstrumentRegistry) (info : InstrumentInfo) (system : TradingSystem)
    (rest : List Signal) (clientOrderId opId : String) (pm : PositionManager)
    (data : OrderRecord) (order : SpotBuy) : Prop :=
  ∃ amount, order.reservedBy registry system = some amount ∧
    order.recordedBy registry system rest clientOrderId opId = some amount ∧
    committedAmount (orderMembers (order.request info clientOrderId)) = some amount ∧
    order.movedBy registry pm data = some amount

section Places
variable {registry : InstrumentRegistry} {info : InstrumentInfo} {order : SpotBuy}

theorem reservedBy_eq (known : registry.get order.instrument = some info)
    (system : TradingSystem) : order.reservedBy registry system = some (order.value info) := by
  have added := reserved_reserveSpot system.positions order.quoteCurrency order.quoteCurrency
    (order.value info)
  rw [if_pos rfl] at added
  rw [SpotBuy.reservedBy, TradingSystem.emitBuy, known]
  simp only [if_true, Option.bind_eq_bind, Option.bind_some, Option.map_some, Option.some.injEq]
  rw [← lockedCurrencyOf_buy, sub_eq_iff_eq_add', ← added]
  rfl

theorem recordedBy_eq (known : registry.get order.instrument = some info)
    (fits : FitsBuffer order.instrument) {system : TradingSystem} (rest : List Signal)
    {clientOrderId : String} (opId : String)
    (fresh : clientOrderId ∉ system.engine.clientOrderIdToReservation) :
    order.recordedBy registry system rest clientOrderId opId =
      some (max 0 (order.value info)) := by
  have found : registry.get order.signal.instrument = some info := by
    have named : order.signal.instrument = order.instrument := fits
    rw [named]
    exact known
  have buys : order.signal.action = .buy := rfl
  have spot : order.signal.marketType = .spot := rfl
  have side : (order.request info clientOrderId).side = .buy := rfl
  have amount : (TradingSystem.reservationAmount info order.signal
      (order.request info clientOrderId)).1 = order.value info := rfl
  rw [SpotBuy.recordedBy, TradingSystem.dispatch, shmPop]
  simp only [buys, found, reduceCtorEq, if_false, Option.bind_eq_bind, Option.bind_some,
    Option.map_some, Option.some.injEq]
  rw [← SpotBuy.request, TradingSystem.recordReservation, if_pos spot]
  dsimp only
  rw [amount]
  by_cases positive : 0 < order.value info
  · rw [if_pos positive, max_eq_right positive.le]
    have own : (order.request info clientOrderId).clientOrderId = clientOrderId := rfl
    simp [own]
  · rw [if_neg positive, max_eq_left (not_lt.mp positive), Finmap.lookup_eq_none.mpr fresh]
    rfl

theorem lookup_orderMembers (info : InstrumentInfo) (order : SpotBuy) (clientOrderId : String) :
    let members := orderMembers (order.request info clientOrderId)
    members.lookup "side" = some "buy" ∧
      members.lookup "sz" = some (format order.volume info.volumePrecision) ∧
      members.lookup "ordType" = some (kOkxOrderType order.orderType) ∧
      members.lookup "px" = (if order.orderType = .limit then
        some (format order.price info.pricePrecision) else none) ∧
      members.lookup "tgtCcy" = if order.orderType = .limit then none else some "quote_ccy" := by
  have priced := format_ne_empty order.price info.pricePrecision
  cases typeCase : order.orderType <;> by_cases named : clientOrderId = "" <;>
    simp [orderMembers, SpotBuy.request, SpotBuy.signal, TradingSystem.buildRequest,
      TradingSystem.emittedSignal, typeCase, named, priced, kOkxSide, kOkxOrderType,
      List.lookup_cons]

theorem committedAmount_eq (info : InstrumentInfo) (order : SpotBuy) (clientOrderId : String) :
    committedAmount (orderMembers (order.request info clientOrderId)) =
      some (if order.orderType = .limit then order.value info
        else decode order.volume info.volumePrecision) := by
  obtain ⟨-, size, orderType, price, target⟩ := lookup_orderMembers info order clientOrderId
  rw [committedAmount, size, orderType, price, target]
  cases order.orderType with
  | limit =>
      simp only [kOkxOrderType, if_true, Option.bind_some, stod_format, Option.bind_eq_bind]
      rfl
  | market => simp [kOkxOrderType, stod_format]

/-- The NEW report of an acknowledged order: it lacks a price exactly when the
message did. -/
theorem decodeOrderUpdate_acknowledged (known : registry.get order.instrument = some info)
    (fits : FitsBuffer order.instrument) {clientOrderId : String} {data : OrderRecord}
    (acknowledged : Acknowledges order.instrument
      (orderMembers (order.request info clientOrderId)) data) :
    ∃ report, decodeOrderUpdate registry data = some (report, data.clOrdId) ∧
      report.status = .new ∧ report.instrument = order.instrument ∧ report.side = .buy ∧
      report.totalVolume = order.volume ∧
      report.price = if order.orderType = .limit then order.price else 0 := by
  obtain ⟨sideMember, size, -, price, -⟩ := lookup_orderMembers info order clientOrderId
  have side : data.side = "buy" := Option.some.inj (acknowledged.side.symm.trans sideMember)
  have name : setBuffer 32 data.instId = order.instrument := by
    rw [acknowledged.instId]
    exact fits
  have found : registry.find (setBuffer 32 data.instId) = some info := by
    rw [name]
    exact known
  rw [decodeOrderUpdate, found]
  refine ⟨_, rfl, ?_, name, ?_, ?_, ?_⟩
  · rw [acknowledged.state]
    rfl
  · rw [side]
    rfl
  · dsimp only
    rw [acknowledged.sz, size, Option.bind_some, stod_format, Option.getD_some, encode_decode]
  · dsimp only
    rw [acknowledged.px, price]
    split
    · rw [Option.bind_some, stod_format, Option.getD_some, encode_decode]
    · rw [Option.bind_none, Option.getD_none, ← decode_zero info.pricePrecision, encode_decode]

theorem movedBy_eq (known : registry.get order.instrument = some info)
    (fits : FitsBuffer order.instrument) {clientOrderId : String} (pm : PositionManager)
    {data : OrderRecord}
    (acknowledged : Acknowledges order.instrument
      (orderMembers (order.request info clientOrderId)) data) :
    order.movedBy registry pm data =
      some (if order.orderType = .limit then order.value info else 0) := by
  obtain ⟨report, decoded, -, name, side, volume, price⟩ :=
    decodeOrderUpdate_acknowledged known fits acknowledged
  rw [SpotBuy.movedBy, decoded, Option.bind_some, PositionManager.updateSpotOnNew_eq, name, known,
    side, Option.map_some, Option.map_some, if_pos (holdsLock_buy _),
    PositionManager.frozen_lock, SpotBuy.quoteCurrency, if_pos rfl, add_sub_cancel_left, lockValue,
    volume, price]
  split
  · rfl
  · rw [decode_zero, zero_mul]

theorem value_nonneg_iff : 0 ≤ order.value info ↔ 0 ≤ order.price * order.volume := by
  have scale : (0 : ℚ) < kPow10 info.pricePrecision * kPow10 info.volumePrecision :=
    mul_pos (kPow10_pos _) (kPow10_pos _)
  rw [SpotBuy.value, decode, decode, div_mul_div_comm, le_div_iff₀ scale, zero_mul,
    ← Int.cast_mul, Int.cast_nonneg_iff]

end Places

/-- The four places agree exactly on LIMIT orders of no negative value and on
orders for nothing. -/
theorem oneAmount_iff {registry : InstrumentRegistry} {info : InstrumentInfo} {order : SpotBuy}
    (known : registry.get order.instrument = some info) (fits : FitsBuffer order.instrument)
    {system : TradingSystem} (rest : List Signal) {clientOrderId : String} (opId : String)
    (fresh : clientOrderId ∉ system.engine.clientOrderIdToReservation) (pm : PositionManager)
    {data : OrderRecord}
    (acknowledged : Acknowledges order.instrument
      (orderMembers (order.request info clientOrderId)) data) :
    OneAmount registry info system rest clientOrderId opId pm data order ↔
      order.volume = 0 ∨ order.orderType = .limit ∧ 0 ≤ order.price * order.volume := by
  rw [OneAmount, reservedBy_eq known, recordedBy_eq known fits rest opId fresh,
    committedAmount_eq, movedBy_eq known fits pm acknowledged, ← value_nonneg_iff]
  simp only [Option.some.injEq, exists_eq_left']
  have nothing : order.volume = 0 → order.value info = 0 := by
    intro none
    rw [SpotBuy.value, none, decode_zero, mul_zero]
  by_cases limit : order.orderType = .limit
  · simp only [limit, if_true, true_and, and_true, max_eq_right_iff]
    constructor
    · exact Or.inr
    · rintro (none | nonneg)
      · exact (nothing none).ge
      · exact nonneg
  · simp only [limit, if_false, false_and, or_false]
    constructor
    · rintro ⟨-, committed, moved⟩
      rw [← decode_inj info.volumePrecision, decode_zero, committed, ← moved]
    · intro none
      rw [nothing none, none, decode_zero]
      exact ⟨max_self 0, rfl, rfl⟩

def twoAtHundred (orderType : OrderType) : SpotBuy :=
  { instrument := "BTC-USDT", orderType := orderType, positionSide := .net, tradeMode := .cash,
    price := 100, volume := 2 }

def twoAtHundredUpdate (px : Option ℚ) : OrderRecord :=
  { instId := "BTC-USDT", ordId := "1", state := "live", side := "buy", posSide := "",
    feeCcy := "", tdMode := "cash", clOrdId := "cts1", px := px, accFillSz := some 0,
    sz := some 2, avgPx := none, fillFee := none }

theorem oneAmount_iff_limit :
    OneAmount btcUsdtRegistry btcUsdt {} [] "cts1" "op1" {} (twoAtHundredUpdate (some 100))
        (twoAtHundred .limit) ↔
      (twoAtHundred .limit).volume = 0 ∨ (twoAtHundred .limit).orderType = .limit ∧
        0 ≤ (twoAtHundred .limit).price * (twoAtHundred .limit).volume :=
  oneAmount_iff (by decide) (by decide) [] "op1" (by decide) {}
    ⟨rfl, rfl, by decide, by decide +kernel, by decide +kernel⟩

/-- As a MARKET order it reserves 200, and the message buys for 2. -/
theorem market_buy_amounts_differ :
    ¬ ∀ (registry : InstrumentRegistry) (info : InstrumentInfo) (order : SpotBuy)
        (system : TradingSystem) (rest : List Signal) (clientOrderId opId : String)
        (pm : PositionManager) (data : OrderRecord),
      registry.get order.instrument = some info → FitsBuffer order.instrument →
      clientOrderId ∉ system.engine.clientOrderIdToReservation →
      Acknowledges order.instrument (orderMembers (order.request info clientOrderId)) data →
      OneAmount registry info system rest clientOrderId opId pm data order := by
  intro claim
  obtain ⟨amount, reserved, -, committed, -⟩ := claim btcUsdtRegistry btcUsdt
    (twoAtHundred .market) {} [] "cts1" "op1" {} (twoAtHundredUpdate none) (by decide)
    (by decide) (by decide) ⟨rfl, rfl, by decide, by decide +kernel, by decide +kernel⟩
  have ordered : (twoAtHundred .market).reservedBy btcUsdtRegistry {} = some 200 := by
    decide +kernel
  have bought : committedAmount
      (orderMembers ((twoAtHundred .market).request btcUsdt "cts1")) = some 2 := by
    decide +kernel
  rw [ordered] at reserved
  rw [bought, ← reserved] at committed
  exact absurd committed (by decide +kernel)

end CryptoTrading
