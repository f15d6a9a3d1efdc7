import CryptoTrading.Clients.OkxOrder
import CryptoTrading.Lib.Paging
import CryptoTrading.TradingEngine.Engine
import CryptoTrading.TradingEngine.OrderHistory

/-! # Order queries of the exchange client

The three REST queries about orders and fills from the parsed answers on.  An
answer is `none` when the request failed, the text did not parse, the code was
not "0" or there was no `data` array; each of these ends the query. -/
set_option autoImplicit false

namespace CryptoTrading

def okxParseInstType (text : String) : MarketType :=
  if text = "SPOT" then .spot
  else if text = "SWAP" then .swap
  else .spot

/-! ## Elements -/

/-- The fields of a report that both order queries fill in the same way. -/
def queriedReport (info : InstrumentInfo) (marketType : MarketType) (data : OrderRecord) :
    ExecutionReport :=
  { instrument := setBuffer 32 data.instId
    orderId := setBuffer 32 data.ordId
    status := okxParseOrderState data.state
    side := okxParseSide (if data.side = "" then "buy" else data.side)
    marketType := marketType
    positionSide := okxParsePosSide (if data.posSide = "" then "net" else data.posSide)
    tradeMode := okxParseTradeMode (if data.tdMode = "" then "cash" else data.tdMode)
    price := encode (data.px.getD 0) info.pricePrecision
    filledVolume := encode (data.accFillSz.getD 0) info.volumePrecision
    totalVolume := encode (data.sz.getD 0) info.volumePrecision
    avgFillPrice := data.avgPx.getD 0 }

/-- One element of the pending list, or `none` when it is skipped. -/
def decodePendingOrder (registry : InstrumentRegistry) (marketType : MarketType)
    (data : OrderRecord) : Option PendingOrderInfo :=
  match registry.find (setBuffer 32 data.instId) with
  | none => none
  | some info =>
      some { report := queriedReport info marketType data, clientOrderId := data.clOrdId }

/-- The element an order query answers with: besides the fields of an update,
the fee of the whole order. -/
structure OrderAnswer extends OrderRecord where
  fee : Option ℚ
  deriving DecidableEq

def decodeOrderAnswer (registry : InstrumentRegistry) (data : OrderAnswer) :
    Option PendingOrderInfo :=
  match registry.find (setBuffer 32 data.instId) with
  | none => none
  | some info =>
      some
        { report :=
            { queriedReport info (detectMarketType data.instId) data.toOrderRecord with
              fee := data.fee.getD 0
              feeCurrency := setBuffer 16 data.feeCcy }
          clientOrderId := data.clOrdId }

/-- `QueryOrderById` returns with the first element, whatever becomes of it. -/
def queryOrderById (registry : InstrumentRegistry) (answer : Option (List OrderAnswer)) :
    Option PendingOrderInfo :=
  match answer with
  | none => none
  | some [] => none
  | some (data :: _) => decodeOrderAnswer registry data

/-- The answer to a query is the update of the same order, but for the fee. -/
theorem decodeOrderAnswer_eq (registry : InstrumentRegistry) (data : OrderAnswer) :
    decodeOrderAnswer registry data =
      (decodeOrderUpdate registry data.toOrderRecord).map fun decoded =>
        { report := { decoded.1 with fee := data.fee.getD 0 }, clientOrderId := decoded.2 } := by
  rw [decodeOrderAnswer, decodeOrderUpdate]
  cases registry.find (setBuffer 32 data.instId) <;> rfl

/-! ## Pages -/

/-- The page length that both loops compare with. -/
def okxPageSize : ℕ := 100

/-- Only the elements that are kept are counted and move the cursor. -/
def queryPendingOrdersByType (registry : InstrumentRegistry)
    (query : String → Option (List OrderRecord)) (instType : String) (fuel : ℕ) :
    Option (List PendingOrderInfo) :=
  Paging.readPages "" OrderRecord.ordId (decodePendingOrder registry (okxParseInstType instType))
    (fun data => (decodePendingOrder registry (okxParseInstType instType) data).isSome)
    okxPageSize query fuel "" []

structure Fill where
  instrument : String
  orderId : String
  tradeId : String
  marketType : MarketType
  side : Side
  positionSide : PosSide
  price : Int
  volume : Int
  fee : ℚ
  feeCurrency : String
  timestampMs : Int
  deriving DecidableEq

structure FillRecord where
  instId : String
  ordId : String
  tradeId : String
  billId : String
  instType : String
  side : String
  posSide : String
  feeCcy : String
  fillPx : Option ℚ
  fillSz : Option ℚ
  fee : Option ℚ
  ts : Option Int
  deriving DecidableEq

def decodeFill (registry : InstrumentRegistry) (data : FillRecord) : Option Fill :=
  match registry.find (setBuffer 32 data.instId) with
  | none => none
  | some info =>
      some
        { instrument := setBuffer 32 data.instId
          orderId := setBuffer 32 data.ordId
          tradeId := setBuffer 32 data.tradeId
          marketType := okxParseInstType data.instType
          side := okxParseSide (if data.side = "" then "buy" else data.side)
          positionSide := okxParsePosSide (if data.posSide = "" then "net" else data.posSide)
          price := encode (data.fillPx.getD 0) info.pricePrecision
          volume := encode (data.fillSz.getD 0) info.volumePrecision
          fee := data.fee.getD 0
          feeCurrency := setBuffer 16 data.feeCcy
          timestampMs := data.ts.getD 0 }

/-- Here a skipped element is counted and moves the cursor like any other. -/
def queryRecentFills (registry : InstrumentRegistry)
    (query : String → Option (List FillRecord)) (fuel : ℕ) : Option (List Fill) :=
  Paging.readPages "" FillRecord.billId (decodeFill registry) (fun _ => true) okxPageSize query
    fuel "" []

/-- The exchange's answers for the list `items`: at most a page of the elements
behind the cursor. -/
def servedPages {α : Type} (key : α → String) (items : List α) (cursor : String) :
    Option (List α) :=
  some ((Paging.following "" key items cursor).take okxPageSize)

theorem queryRecentFills_exact (registry : InstrumentRegistry) {fills : List FillRecord}
    (distinct : (fills.map FillRecord.billId).Nodup) (named : ∀ data ∈ fills, data.billId ≠ "") :
    ∃ fuel, queryRecentFills registry (servedPages FillRecord.billId fills) fuel =
      some (fills.filterMap (decodeFill registry)) :=
  (Paging.reads_all_iff (by decide) distinct named).mpr
    (Paging.noneBehind_of_counts_all fun _ => rfl)

/-! ## Pending orders -/

def Registered (registry : InstrumentRegistry) (data : OrderRecord) : Prop :=
  registry.find (setBuffer 32 data.instId) ≠ none

instance (registry : InstrumentRegistry) (data : OrderRecord) :
    Decidable (Registered registry data) :=
  inferInstanceAs (Decidable (_ ≠ _))

/-- No order on a registered instrument stands on a later page than one on an
unregistered instrument. -/
def NoneBehindUnregistered (registry : InstrumentRegistry) (orders : List OrderRecord) : Prop :=
  ∀ i j skipped kept, orders[i]? = some skipped → orders[j]? = some kept →
    ¬ Registered registry skipped → Registered registry kept → j / okxPageSize ≤ i / okxPageSize

theorem isSome_decodePendingOrder (registry : InstrumentRegistry) (marketType : MarketType)
    (data : OrderRecord) :
    (decodePendingOrder registry marketType data).isSome = true ↔ Registered registry data := by
  rw [decodePendingOrder, Registered]
  cases registry.find (setBuffer 32 data.instId) <;> simp

theorem noneBehind_iff_unregistered (registry : InstrumentRegistry) (marketType : MarketType)
    (orders : List OrderRecord) :
    Paging.NoneBehind (decodePendingOrder registry marketType)
        (fun data => (decodePendingOrder registry marketType data).isSome) okxPageSize orders ↔
      NoneBehindUnregistered registry orders := by
  simp only [Paging.NoneBehind, NoneBehindUnregistered, ← Bool.not_eq_true,
    isSome_decodePendingOrder]

theorem queryPendingOrders_returns (registry : InstrumentRegistry) (instType : String)
    {orders : List OrderRecord} (distinct : (orders.map OrderRecord.ordId).Nodup)
    (named : ∀ data ∈ orders, data.ordId ≠ "") :
    ∃ fuel result, queryPendingOrdersByType registry (servedPages OrderRecord.ordId orders)
      instType fuel = some result := by
  obtain ⟨last, -, fuel, ran⟩ := @Paging.reads_until_short _ _ _ "" OrderRecord.ordId
    (decodePendingOrder registry (okxParseInstType instType))
    (fun data => (decodePendingOrder registry (okxParseInstType instType) data).isSome)
    okxPageSize _ orders (by decide) distinct named
  exact ⟨fuel, _, ran⟩

/-- The query returns every pending order on a registered instrument, each once
and in order, exactly when none of them stands behind a page with a skipped one. -/
theorem queryPendingOrders_exact_iff (registry : InstrumentRegistry) (instType : String)
    {orders : List OrderRecord} (distinct : (orders.map OrderRecord.ordId).Nodup)
    (named : ∀ data ∈ orders, data.ordId ≠ "") :
    (∃ fuel, queryPendingOrdersByType registry (servedPages OrderRecord.ordId orders) instType
        fuel = some (orders.filterMap
          (decodePendingOrder registry (okxParseInstType instType)))) ↔
      NoneBehindUnregistered registry orders := by
  rw [← noneBehind_iff_unregistered registry (okxParseInstType instType)]
  exact Paging.reads_all_iff (by decide) distinct named

/-- A pending order with an id of `n + 1` sevens, the first one delisted. -/
def pendingOrder (n : ℕ) : OrderRecord :=
  { instId := if n = 0 then "OLD-USDT" else "BTC-USDT"
    ordId := String.ofList (List.replicate (n + 1) '7')
    state := "live", side := "buy", posSide := "", feeCcy := "", tdMode := "cash", clOrdId := ""
    px := some 100, accFillSz := some 0, sz := some 2, avgPx := none, fillFee := none }

theorem pendingOrders_distinct (count : ℕ) :
    (((List.range count).map pendingOrder).map OrderRecord.ordId).Nodup := by
  rw [List.map_map]
  apply List.nodup_range.map
  intro first second same
  have lengths := congrArg List.length (String.ofList_injective same)
  rw [List.length_replicate, List.length_replicate] at lengths
  omega

theorem pendingOrders_named (count : ℕ) :
    ∀ data ∈ (List.range count).map pendingOrder, data.ordId ≠ "" := by
  intro data member
  obtain ⟨n, -, rfl⟩ := List.mem_map.mp member
  intro empty
  have letters : List.replicate (n + 1) '7' = [] := String.ofList_injective empty
  cases letters

theorem queryPendingOrders_exact_iff_hundred :
    (∃ fuel, queryPendingOrdersByType btcUsdtRegistry
        (servedPages OrderRecord.ordId ((List.range 100).map pendingOrder)) "SPOT" fuel =
          some (((List.range 100).map pendingOrder).filterMap
            (decodePendingOrder btcUsdtRegistry (okxParseInstType "SPOT")))) ↔
      NoneBehindUnregistered btcUsdtRegistry ((List.range 100).map pendingOrder) :=
  queryPendingOrders_exact_iff btcUsdtRegistry "SPOT" (pendingOrders_distinct 100)
    (pendingOrders_named 100)

/-- The delisted order makes the first page look short, and the last of 101
orders is never asked for. -/
theorem queryPendingOrders_loses_last :
    ¬ ∀ (registry : InstrumentRegistry) (instType : String) (orders : List OrderRecord),
      (orders.map OrderRecord.ordId).Nodup → (∀ data ∈ orders, data.ordId ≠ "") →
      ∃ fuel, queryPendingOrdersByType registry (servedPages OrderRecord.ordId orders) instType
        fuel = some (orders.filterMap
          (decodePendingOrder registry (okxParseInstType instType))) := by
  intro claim
  have all := claim btcUsdtRegistry "SPOT" _ (pendingOrders_distinct 101) (pendingOrders_named 101)
  have none := (noneBehind_iff_unregistered btcUsdtRegistry _ _).mp
    ((Paging.reads_all_iff (by decide) (pendingOrders_distinct 101)
      (pendingOrders_named 101)).mp all)
  have order := none 0 100 (pendingOrder 0) (pendingOrder 100) (by simp) (by simp)
    (by decide) (by decide)
  exact absurd order (by decide)

/-! ## Fills while requests fail -/

def servedUnless {α : Type} (fails : String → Bool) (key : α → String) (items : List α)
    (cursor : String) : Option (List α) :=
  if fails cursor then none else servedPages key items cursor

/-- The requests in front of the page were answered, and the one for it was not,
or no page follows. -/
abbrev FillsEndAt (fails : String → Bool) (fills : List FillRecord) (page : ℕ) : Prop :=
  Paging.EndsAt "" FillRecord.billId okxPageSize fails fills page

/-- Whichever requests fail, the query comes back with the fills on registered
instruments of all pages in front of the first failure, each once and in order. -/
theorem queryRecentFills_until_failure (registry : InstrumentRegistry)
    {fills : List FillRecord} (distinct : (fills.map FillRecord.billId).Nodup)
    (named : ∀ data ∈ fills, data.billId ≠ "") (fails : String → Bool) :
    ∃ page, FillsEndAt fails fills page ∧ ∃ fuel,
      queryRecentFills registry (servedUnless fails FillRecord.billId fills) fuel =
        some ((fills.take (okxPageSize * page)).filterMap (decodeFill registry)) :=
  Paging.reads_until_failure (by decide) distinct named (fun _ => rfl) fails

def fillOf (instrument billId : String) : FillRecord :=
  { instId := instrument, ordId := "7", tradeId := "1", billId := billId, instType := "SPOT"
    side := "buy", posSide := "", feeCcy := "", fillPx := some 100, fillSz := some 1
    fee := none, ts := none }

/-- Two fills, the later one delisted, and the second page out of reach. -/
theorem queryRecentFills_until_failure_delisted :
    ∃ page, FillsEndAt (fun cursor => cursor = "2")
        [fillOf "BTC-USDT" "1", fillOf "OLD-USDT" "2"] page ∧ ∃ fuel,
      queryRecentFills btcUsdtRegistry (servedUnless (fun cursor => cursor = "2")
          FillRecord.billId [fillOf "BTC-USDT" "1", fillOf "OLD-USDT" "2"]) fuel =
        some (([fillOf "BTC-USDT" "1", fillOf "OLD-USDT" "2"].take (okxPageSize * page)).filterMap
          (decodeFill btcUsdtRegistry)) :=
  queryRecentFills_until_failure btcUsdtRegistry (by decide) (by decide) _

end CryptoTrading
