import CryptoTrading.Clients.OkxAccount

/-! # Orders on the wire

The text `BuildOrderMessage` sends, as the members of its `args` object, and
`DecodeOrderUpdate` from the fields of one element on. -/
set_option autoImplicit false

namespace CryptoTrading

/-! ## Words of the protocol -/

def kOkxSide : Side → String
  | .buy => "buy"
  | .sell => "sell"

def kOkxPosSide : PosSide → String
  | .net => "net"
  | .long => "long"
  | .short => "short"

def kOkxOrderType : OrderType → String
  | .market => "market"
  | .limit => "limit"

def kOkxTradeMode : TradeMode → String
  | .cash => "cash"
  | .cross => "cross"
  | .isolated => "isolated"

def okxParseSide (text : String) : Side :=
  if text = "buy" then .buy
  else if text = "sell" then .sell
  else .buy

def okxParseOrderState (text : String) : OrderStatus :=
  if text = "filled" then .filled
  else if text = "partially_filled" then .partiallyFilled
  else if text = "canceled" then .cancelled
  else if text = "live" then .new
  else .rejected

def okxParseTradeMode (text : String) : TradeMode :=
  if text = "cash" then .cash
  else if text = "cross" then .cross
  else if text = "isolated" then .isolated
  else .cash

/-! ## Sending -/

/-- The string members of `args[0]`, in the order in which they are written. -/
def orderMembers (req : OrderRequest) : List (String × String) :=
  [("side", kOkxSide req.side), ("ordType", kOkxOrderType req.orderType), ("sz", req.size),
    ("tdMode", kOkxTradeMode req.tradeMode)] ++
  (if req.marketType = .swap then [("posSide", kOkxPosSide req.positionSide)]
    else if req.orderType = .market ∧ req.side = .buy then
      [("tgtCcy", if req.targetCurrency = "" then "quote_ccy" else req.targetCurrency)]
    else []) ++
  (if req.orderType = .limit ∧ req.price ≠ "" then [("px", req.price)] else []) ++
  (if req.clientOrderId ≠ "" then [("clOrdId", req.clientOrderId)] else [])

/-- `,"name":"value"`. -/
def memberText (member : String × String) : String :=
  ",\"" ++ member.1 ++ "\":\"" ++ member.2 ++ "\""

/-- The text only; the entry of `pending_ws_ops_` is made by `dispatch`. -/
def buildOrderMessage (instIdCodes : UnorderedMap String Int) (id : String)
    (req : OrderRequest) : String :=
  "\x7b\"id\":\"" ++ id ++ "\",\"op\":\"order\",\"args\":[\x7b\"instIdCode\":" ++
    toString (instIdCodes.getD req.instrument 0) ++
    String.join ((orderMembers req).map memberText) ++ "\x7d]\x7d"

example : buildOrderMessage ∅ "7"
    { instrument := "BTC-USDT", side := .buy, orderType := .market, marketType := .spot,
      positionSide := .net, tradeMode := .cash, size := "2" } =
    "\x7b\"id\":\"7\",\"op\":\"order\",\"args\":[\x7b\"instIdCode\":0,\"side\":\"buy\"" ++
      ",\"ordType\":\"market\",\"sz\":\"2\",\"tdMode\":\"cash\"" ++
      ",\"tgtCcy\":\"quote_ccy\"\x7d]\x7d" := by decide +kernel

/-! ## Receiving -/

/-- One element of the orders channel.  A missing text reads as empty; a number
is `none` when it is missing or not a number in a string. -/
structure OrderRecord where
  instId : String
  ordId : String
  state : String
  side : String
  posSide : String
  feeCcy : String
  tdMode : String
  clOrdId : String
  px : Option ℚ
  accFillSz : Option ℚ
  sz : Option ℚ
  avgPx : Option ℚ
  fillFee : Option ℚ
  deriving DecidableEq

/-- The report and client order id that are handed on; `none` is skipped. -/
def decodeOrderUpdate (registry : InstrumentRegistry) (data : OrderRecord) :
    Option (ExecutionReport × String) :=
  match registry.find (setBuffer 32 data.instId) with
  | none => none
  | some info =>
      some
        ({ instrument := setBuffer 32 data.instId
           orderId := setBuffer 32 data.ordId
           status := okxParseOrderState data.state
           side := okxParseSide (if data.side = "" then "buy" else data.side)
           marketType := detectMarketType data.instId
           positionSide := okxParsePosSide (if data.posSide = "" then "net" else data.posSide)
           tradeMode := okxParseTradeMode (if data.tdMode = "" then "cash" else data.tdMode)
           price := encode (data.px.getD 0) info.pricePrecision
           filledVolume := encode (data.accFillSz.getD 0) info.volumePrecision
           totalVolume := encode (data.sz.getD 0) info.volumePrecision
           avgFillPrice := data.avgPx.getD 0
           fee := data.fillFee.getD 0
           feeCurrency := setBuffer 16 data.feeCcy },
          data.clOrdId)

end CryptoTrading
