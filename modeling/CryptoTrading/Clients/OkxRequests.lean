import CryptoTrading.Clients.OkxMessages
import CryptoTrading.TradingEngine.OrderFlow

/-! # What the exchange reads

The cancel message beside the order message, and the request that a reader with
a JSON parser and exact decimals gets out of either. -/
set_option autoImplicit false

namespace CryptoTrading

open Json JsonLiteral QuotedText

/-- The text only; the id is a clock reading that nothing remembers. -/
def buildCancelOrderMessage (instIdCodes : UnorderedMap String Int)
    (id instrument orderId : String) : String :=
  "\x7b\"id\":\"" ++ id ++ "\",\"op\":\"cancel-order\",\"args\":[\x7b\"instIdCode\":" ++
    toString (instIdCodes.getD instrument 0) ++ ",\"ordId\":\"" ++ orderId ++ "\"\x7d]\x7d"

example : buildCancelOrderMessage ∅ "7" "BTC-USDT" "312" =
    "\x7b\"id\":\"7\",\"op\":\"cancel-order\",\"args\":[\x7b\"instIdCode\":0" ++
      ",\"ordId\":\"312\"\x7d]\x7d" := by decide +kernel

/-! ## Requests as they are meant -/

/-- An order; what it need not say is `none`. -/
structure WireOrder where
  instIdCode : ℚ
  side : Side
  orderType : OrderType
  size : ℚ
  tradeMode : TradeMode
  positionSide : Option PosSide
  targetCurrency : Option String
  price : Option ℚ
  clientOrderId : Option String
  deriving DecidableEq

inductive WireRequest where
  | order (id : String) (order : WireOrder)
  | cancel (id : String) (instIdCode : ℚ) (orderId : String)
  deriving DecidableEq

/-! ## Reading -/

def asNumber : Json → Option ℚ
  | .number value => some value
  | _ => none

def textField (json : Json) (name : String) : Option String := (json.field name).bind asText

def numberField (json : Json) (name : String) : Option ℚ := (json.field name).bind asNumber

def spelledBy {α : Type} (values : List α) (spelling : α → String) (text : String) : Option α :=
  values.find? fun value => spelling value = text

def readSide : String → Option Side := spelledBy [.buy, .sell] kOkxSide

def readOrderType : String → Option OrderType := spelledBy [.market, .limit] kOkxOrderType

def readTradeMode : String → Option TradeMode := spelledBy [.cash, .cross, .isolated] kOkxTradeMode

def readPosSide : String → Option PosSide := spelledBy [.net, .long, .short] kOkxPosSide

def readOrder (args : Json) : Option WireOrder := do
  let instIdCode ← numberField args "instIdCode"
  let side ← (textField args "side").bind readSide
  let orderType ← (textField args "ordType").bind readOrderType
  let size ← (textField args "sz").bind stod
  let tradeMode ← (textField args "tdMode").bind readTradeMode
  some
    { instIdCode := instIdCode, side := side, orderType := orderType, size := size
      tradeMode := tradeMode
      positionSide := (textField args "posSide").bind readPosSide
      targetCurrency := textField args "tgtCcy"
      price := (textField args "px").bind stod
      clientOrderId := textField args "clOrdId" }

def readRequest (message : String) : Option WireRequest := do
  let doc ← Json.parse message
  let id ← textField doc "id"
  let op ← textField doc "op"
  let args ← (doc.field "args").bind firstElement
  if op = "order" then (readOrder args).map (.order id)
  else if op = "cancel-order" then do
    let instIdCode ← numberField args "instIdCode"
    let orderId ← textField args "ordId"
    some (.cancel id instIdCode orderId)
  else none

section Spellings

theorem readSide_kOkxSide (side : Side) : readSide (kOkxSide side) = some side := by
  cases side <;> decide +kernel

theorem readOrderType_kOkxOrderType (orderType : OrderType) :
    readOrderType (kOkxOrderType orderType) = some orderType := by
  cases orderType <;> decide +kernel

theorem readTradeMode_kOkxTradeMode (tradeMode : TradeMode) :
    readTradeMode (kOkxTradeMode tradeMode) = some tradeMode := by
  cases tradeMode <;> decide +kernel

theorem readPosSide_kOkxPosSide (positionSide : PosSide) :
    readPosSide (kOkxPosSide positionSide) = some positionSide := by
  cases positionSide <;> decide +kernel

end Spellings

/-! ## Fields of an object without repeated names -/

section Fields
variable {members : List (String × Json)} {name : String}

theorem field_iff (nodup : (members.map Prod.fst).Nodup) (value : Json) :
    (Json.object members).field name = some value ↔ (name, value) ∈ members := by
  rw [Json.field, List.lookup_eq_some_iff]
  constructor
  · rintro ⟨before, after, rfl, -⟩
    exact List.mem_append_right _ List.mem_cons_self
  · intro member
    obtain ⟨before, after, rfl⟩ := List.append_of_mem member
    refine ⟨before, after, rfl, fun other earlier => ?_⟩
    rw [List.map_append, List.map_cons, List.nodup_append] at nodup
    have apart := nodup.2.2 other.1 (List.mem_map_of_mem earlier) name List.mem_cons_self
    simpa using Ne.symm apart

end Fields

/-! ## Orders -/

def Signal.order (codes : UnorderedMap String Int) (info : InstrumentInfo) (signal : Signal)
    (clientOrderId : String) : WireOrder :=
  { instIdCode := codes.getD signal.instrument 0
    side := if signal.action = .buy then .buy else .sell
    orderType := signal.orderType
    size := decode signal.volume info.volumePrecision
    tradeMode := signal.tradeMode
    positionSide := if signal.marketType = .swap then some signal.positionSide else none
    targetCurrency :=
      if signal.marketType = .spot ∧ signal.orderType = .market ∧ signal.action = .buy then
        some "quote_ccy"
      else none
    price :=
      if signal.orderType = .limit then some (decode signal.price info.pricePrecision) else none
    clientOrderId := some clientOrderId }

section Order
variable (codes : UnorderedMap String Int) (info : InstrumentInfo) (signal : Signal)
  {clientOrderId : String}

theorem textField_iff {code : Int} {req : OrderRequest} (dispatchable : Dispatchable req)
    (name value : String) :
    textField (.object (decodedMembers code req)) name = some value ↔
      Asked code req name (.text value) := by
  rw [← mem_decodedMembers_iff code dispatchable, ← field_iff (decodedMembers_nodup code req),
    textField]
  constructor
  · intro found
    obtain ⟨json, member, isText⟩ := Option.bind_eq_some_iff.mp found
    rw [member, asText_some isText]
  · intro member
    rw [member]
    rfl

theorem asked_optional {code : Int} {req : OrderRequest} {name : String} {value : Json}
    (asked : Asked code req name value) :
    (name = "posSide" → req.marketType = .swap) ∧
      (name = "tgtCcy" → req.marketType = .spot ∧ req.orderType = .market ∧ req.side = .buy) ∧
      (name = "px" → req.orderType = .limit) := by
  cases asked with
  | posSide swap => simp [swap]
  | tgtCcy spot market buy => simp [spot, market, buy]
  | px limit nonempty => simp [limit]
  | _ => simp

theorem readOrder_buildRequest (named : clientOrderId ≠ "")
    (wellFormed : clientOrderId.toList.all Char.isAlphanum = true) :
    readOrder (.object (decodedMembers (codes.getD signal.instrument 0)
        (TradingSystem.buildRequest info signal clientOrderId))) =
      some (signal.order codes info clientOrderId) := by
  let req := TradingSystem.buildRequest info signal clientOrderId
  have dispatchable : Dispatchable req := dispatchable_buildRequest info signal wellFormed
  have text : ∀ {name value : String},
      Asked (codes.getD signal.instrument 0) req name (.text value) →
      textField (.object (decodedMembers (codes.getD signal.instrument 0) req)) name =
        some value := fun asked => (textField_iff dispatchable _ _).mpr asked
  have nothing : ∀ {name : String},
      (∀ value, ¬ Asked (codes.getD signal.instrument 0) req name (.text value)) →
      textField (.object (decodedMembers (codes.getD signal.instrument 0) req)) name = none := by
    intro name absent
    refine Option.eq_none_iff_forall_ne_some.mpr fun value found => ?_
    exact absent value ((textField_iff dispatchable _ _).mp found)
  have code : numberField (.object (decodedMembers (codes.getD signal.instrument 0) req))
      "instIdCode" = some ((codes.getD signal.instrument 0 : Int) : ℚ) := rfl
  have positionSide : (textField (.object (decodedMembers (codes.getD signal.instrument 0) req))
      "posSide").bind readPosSide =
        if signal.marketType = .swap then some signal.positionSide else none := by
    by_cases swap : signal.marketType = .swap
    · rw [if_pos swap, text (.posSide swap), Option.bind_some]
      exact readPosSide_kOkxPosSide _
    · rw [if_neg swap, nothing fun value asked => ?_]
      · rfl
      · exact swap ((asked_optional asked).1 rfl)
  have targetCurrency : textField (.object (decodedMembers (codes.getD signal.instrument 0) req))
      "tgtCcy" = if signal.marketType = .spot ∧ signal.orderType = .market ∧ signal.action = .buy
        then some "quote_ccy" else none := by
    have buys : req.side = .buy ↔ signal.action = .buy := by
      simp [req, TradingSystem.buildRequest]
    by_cases quote : signal.marketType = .spot ∧ signal.orderType = .market ∧ signal.action = .buy
    · rw [if_pos quote, text (.tgtCcy quote.1 quote.2.1 (buys.mpr quote.2.2))]
    · rw [if_neg quote, nothing fun value asked => ?_]
      obtain ⟨spot, market, buy⟩ := (asked_optional asked).2.1 rfl
      exact quote ⟨spot, market, buys.mp buy⟩
  have price : (textField (.object (decodedMembers (codes.getD signal.instrument 0) req))
      "px").bind stod = if signal.orderType = .limit then
        some (decode signal.price info.pricePrecision) else none := by
    by_cases limit : signal.orderType = .limit
    · have written : req.price = format signal.price info.pricePrecision := if_pos limit
      have nonempty : req.price ≠ "" := by
        rw [written]
        exact format_ne_empty _ _
      rw [if_pos limit, text (.px limit nonempty), Option.bind_some, written, stod_format]
    · rw [if_neg limit, nothing fun value asked => ?_]
      · rfl
      · exact limit ((asked_optional asked).2.2 rfl)
  rw [readOrder, code, text .side, text .ordType, text .sz, text .tdMode, positionSide,
    targetCurrency, price, text (.clOrdId named)]
  simp [readSide_kOkxSide, readOrderType_kOkxOrderType, readTradeMode_kOkxTradeMode, stod_format,
    req, TradingSystem.buildRequest, Signal.order]

/-- The exchange reads the order that the signal stands for. -/
theorem readRequest_order (nowNs : ℕ) (named : clientOrderId ≠ "")
    (wellFormed : clientOrderId.toList.all Char.isAlphanum = true) :
    readRequest (buildOrderMessage codes (toString nowNs)
        (TradingSystem.buildRequest info signal clientOrderId)) =
      some (.order (toString nowNs) (signal.order codes info clientOrderId)) := by
  have order := readOrder_buildRequest codes info signal named wellFormed
  rw [readRequest, parse_buildOrderMessage codes nowNs
    (dispatchable_buildRequest info signal wellFormed)]
  simp only [Option.bind_eq_bind, Option.bind_some]
  have request : (TradingSystem.buildRequest info signal clientOrderId).instrument =
      signal.instrument := rfl
  simp [textField, Json.field, asText, firstElement, List.lookup_cons, request, order]

end Order

/-! ## Cancels -/

section Cancel
variable (codes : UnorderedMap String Int)

theorem toList_buildCancelOrderMessage (id instrument orderId : String) :
    (buildCancelOrderMessage codes id instrument orderId).toList =
      '{' :: named "id".toList (quoted id.toList ++ ',' :: named "op".toList
        (quoted "cancel-order".toList ++ ',' :: named "args".toList
          ('[' :: '{' :: named "instIdCode".toList ((toString (codes.getD instrument 0)).toList ++
            ',' :: named "ordId".toList (quoted orderId.toList ++ ['}', ']', '}']))))) := by
  have opening : "\x7b\"id\":\"".toList = '{' :: named "id".toList ['"'] := by decide +kernel
  have middle : "\",\"op\":\"cancel-order\",\"args\":[\x7b\"instIdCode\":".toList =
      '"' :: ',' :: named "op".toList (quoted "cancel-order".toList ++ ',' :: named "args".toList
        ('[' :: '{' :: named "instIdCode".toList [])) := by decide +kernel
  have ordId : ",\"ordId\":\"".toList = ',' :: named "ordId".toList ['"'] := by decide +kernel
  have ending : "\"\x7d]\x7d".toList = ['"', '}', ']', '}'] := by decide +kernel
  unfold buildCancelOrderMessage
  simp only [String.toList_append, opening, middle, ordId, ending, named, quoted,
    List.cons_append, List.append_assoc, List.nil_append]

theorem parse_buildCancelOrderMessage (nowNs : ℕ) (instrument : String) {orderId : String}
    (plain : Plain orderId.toList) :
    Json.parse (buildCancelOrderMessage codes (toString nowNs) instrument orderId) =
      some (.object [("id", .text (toString nowNs)), ("op", .text "cancel-order"),
        ("args", .array [.object [("instIdCode", .number (codes.getD instrument 0 : Int)),
          ("ordId", .text orderId)]])]) := by
  have idPlain : Plain (toString nowNs).toList := by
    rw [show (toString nowNs).toList = Nat.toDigits 10 nowNs from Nat.toList_repr]
    exact plain_digits (DecimalText.isDigits_toDigits nowNs)
  have outer : Plain "id".toList ∧ Plain "op".toList ∧ Plain "cancel-order".toList ∧
      Plain "args".toList := by simp
  have inner : Plain "instIdCode".toList ∧ Plain "ordId".toList := by simp
  let code : Member :=
    { name := "instIdCode".toList, text := (toString (codes.getD instrument 0)).toList
      json := .number (codes.getD instrument 0 : Int), plain := inner.1
      spelled := spells_int (codes.getD instrument 0) }
  let ordId := textMember "ordId" orderId inner.2 plain
  let requestId := textMember "id" (toString nowNs) outer.1 idPlain
  let op := textMember "op" "cancel-order" outer.2.1 outer.2.2.1
  let args : Member :=
    { name := "args".toList, text := _, json := _, plain := outer.2.2.2
      spelled := spells_singleton code [ordId] }
  have spelled := spells_object requestId [op, args]
  have message : (buildCancelOrderMessage codes (toString nowNs) instrument orderId).toList =
      objectText requestId [op, args] := by
    rw [toList_buildCancelOrderMessage]
    simp only [objectText, laterText, List.flatMap_cons, List.flatMap_nil, named, requestId, op,
      args, code, ordId, textMember, List.cons_append, List.append_assoc, List.nil_append]
  rw [← message] at spelled
  rw [parse_spelled spelled]
  simp [Member.read, textMember, requestId, op, args, code, ordId]

theorem readRequest_cancel (nowNs : ℕ) (instrument : String) {orderId : String}
    (plain : Plain orderId.toList) :
    readRequest (buildCancelOrderMessage codes (toString nowNs) instrument orderId) =
      some (.cancel (toString nowNs) (codes.getD instrument 0 : Int) orderId) := by
  rw [readRequest, parse_buildCancelOrderMessage codes nowNs instrument plain]
  simp [textField, numberField, Json.field, asText, asNumber, firstElement, List.lookup_cons]

end Cancel

end CryptoTrading
