import CryptoTrading.Clients.OkxOps
import CryptoTrading.Clients.OkxOrder
import CryptoTrading.Lib.OnDemand
import CryptoTrading.Lib.QuotedText

/-! # Messages of the private connection

`OnPrivateMessage` from the raw text on.  `iterate` stands for the parser and
answers `none` to a text it refuses.  Whether a message is an event or an op
response is decided on the raw text: a push in which such a word stands between
quotes anywhere is taken for one. -/
set_option autoImplicit false

namespace CryptoTrading

open OnDemand

def okxChannelOrders : String := "orders"

def okxChannelAccount : String := "account"

/-- `raw.find(part) != npos`. -/
def Holds (raw part : String) : Prop := part.toList <:+: raw.toList

instance (raw part : String) : Decidable (Holds raw part) :=
  inferInstanceAs (Decidable (_ <:+: _))

/-! ## Elements -/

def OrderRecord.ofNode (data : Node) : OrderRecord :=
  { instId := (data.field "instId").string
    ordId := (data.field "ordId").string
    state := (data.field "state").string
    side := (data.field "side").string
    posSide := (data.field "posSide").string
    feeCcy := (data.field "feeCcy").string
    tdMode := (data.field "tdMode").string
    clOrdId := (data.field "clOrdId").string
    px := (data.field "px").getDoubleInString
    accFillSz := (data.field "accFillSz").getDoubleInString
    sz := (data.field "sz").getDoubleInString
    avgPx := (data.field "avgPx").getDoubleInString
    fillFee := (data.field "fillFee").getDoubleInString }

def BalanceDetail.ofNode (detail : Node) : BalanceDetail :=
  { ccy := (detail.field "ccy").string
    availBal := (detail.field "availBal").getDoubleInString
    frozenBal := (detail.field "frozenBal").getDoubleInString
    liab := (detail.field "liab").getDoubleInString }

/-- `DecodeAccountUpdate`, with the balance callback of the engine.  Details that
are errors or carry no currency are skipped. -/
def TradingEngine.decodeAccountUpdate (engine : TradingEngine) (data : Node) : TradingEngine :=
  ((data.field "details").getArray.getD []).foldl
    (fun engine element =>
      let detail := BalanceDetail.ofNode element
      if detail.ccy = "" then engine
      else engine.setPositions (engine.positionManager.syncSpotFromExchange detail.ccy
        detail.balance.1 detail.balance.2.1 detail.balance.2.2))
    engine

/-! ## Routing -/

/-- One turn of a loop over `data`, or an op response. -/
inductive PrivateCall where
  | orderUpdate (element : Node)
  | accountUpdate (element : Node)
  | opResponse (op code id : String)

/-- What `OnPrivateMessage` goes on to do with a message, in order. -/
def privateCalls (iterate : String → Option Node) (raw : String) : List PrivateCall :=
  if Holds raw "\"event\"" then []
  else
    match iterate raw with
    | none => []
    | some doc =>
        if Holds raw "\"op\"" then
          [.opResponse (doc.field "op").string (doc.field "code").string (doc.field "id").string]
        else
          match (doc.field "arg").getObject, (doc.field "data").getArray with
          | some _, some elements =>
              let channel := ((doc.field "arg").field "channel").string
              if channel = okxChannelOrders then elements.map .orderUpdate
              else if channel = okxChannelAccount then elements.map .accountUpdate
              else []
          | _, _ => []

/-- `value()` throws on an erroneous element. -/
def TradingSystem.onPrivateCall (registry : InstrumentRegistry) (system : TradingSystem) :
    PrivateCall → Option TradingSystem
  | .orderUpdate element =>
      if element.isError then none
      else
        match decodeOrderUpdate registry (OrderRecord.ofNode element) with
        | none => some system
        | some (report, clientOrderId) => do
            let engine ← system.engine.handleOrderUpdate registry report clientOrderId
            some { system with engine := engine }
  | .accountUpdate element =>
      if element.isError then none
      else some { system with engine := system.engine.decodeAccountUpdate element }
  | .opResponse op code id => system.onOpResponse registry op code id

def TradingSystem.onPrivateMessage (registry : InstrumentRegistry)
    (iterate : String → Option Node) (system : TradingSystem) (raw : String) :
    Option TradingSystem :=
  Runs.run (TradingSystem.onPrivateCall registry) system (privateCalls iterate raw)

def PrivateCall.decoded : PrivateCall → Option Node
  | .orderUpdate element => if element.isError then none else some element
  | .accountUpdate _ => none
  | .opResponse _ _ _ => none

def orderUpdatesDecoded (iterate : String → Option Node) (raw : String) : List Node :=
  (privateCalls iterate raw).filterMap PrivateCall.decoded

/-! ## Pushes of the orders channel -/

/-- A well-formed push: neither key of the other two kinds of messages stands at
the top. -/
structure OrdersPush (doc : Node) (elements : List Node) : Prop where
  channel : (doc.field "arg").field "channel" = .text okxChannelOrders
  data : doc.field "data" = .array elements
  noOp : doc.field "op" = .error
  noEvent : doc.field "event" = .error
  wellFormed : ∀ element ∈ elements, element.isError = false

section Push
variable {iterate : String → Option Node} {raw : String} {doc : Node} {elements : List Node}

theorem OrdersPush.argObject (push : OrdersPush doc elements) :
    ∃ members, (doc.field "arg").getObject = some members := by
  have channel := push.channel
  cases arg : doc.field "arg" with
  | object members => exact ⟨members, rfl⟩
  | error | null | bool _ | number _ | text _ | array _ =>
      rw [arg] at channel
      cases channel

theorem privateCalls_push (parsed : iterate raw = some doc) (push : OrdersPush doc elements)
    (noEvent : ¬ Holds raw "\"event\"") (noOp : ¬ Holds raw "\"op\"") :
    privateCalls iterate raw = elements.map .orderUpdate := by
  obtain ⟨members, object⟩ := push.argObject
  have channel : ((doc.field "arg").field "channel").string = okxChannelOrders := by
    rw [push.channel]
    rfl
  have data : (doc.field "data").getArray = some elements := by
    rw [push.data]
    rfl
  rw [privateCalls, if_neg noEvent, parsed]
  dsimp only
  rw [if_neg noOp, object, data]
  dsimp only
  rw [if_pos channel]

theorem filterMap_decoded (wellFormed : ∀ element ∈ elements, element.isError = false) :
    (elements.map PrivateCall.orderUpdate).filterMap PrivateCall.decoded = elements := by
  rw [List.filterMap_map]
  induction elements with
  | nil => rfl
  | cons element rest ih =>
      have here : (PrivateCall.decoded ∘ PrivateCall.orderUpdate) element = some element := by
        simp [PrivateCall.decoded, wellFormed element List.mem_cons_self]
      rw [List.filterMap_cons_some here,
        ih fun other member => wellFormed other (List.mem_cons_of_mem _ member)]

theorem orderUpdatesDecoded_misrouted (taken : Holds raw "\"event\"" ∨ Holds raw "\"op\"") :
    orderUpdatesDecoded iterate raw = [] := by
  rw [orderUpdatesDecoded, privateCalls]
  by_cases event : Holds raw "\"event\""
  · rw [if_pos event]
    rfl
  · rw [if_neg event]
    cases iterate raw with
    | none => rfl
    | some doc =>
        dsimp only
        rw [if_pos (taken.resolve_left event)]
        rfl

/-- Each element of a push is decoded once and in order, exactly when the push
has none or its text holds neither word between quotes. -/
theorem orderUpdatesDecoded_iff (parsed : iterate raw = some doc)
    (push : OrdersPush doc elements) :
    orderUpdatesDecoded iterate raw = elements ↔
      elements = [] ∨ (¬ Holds raw "\"event\"" ∧ ¬ Holds raw "\"op\"") := by
  by_cases taken : Holds raw "\"event\"" ∨ Holds raw "\"op\""
  · rw [orderUpdatesDecoded_misrouted taken, ← not_or]
    simp [taken, eq_comm]
  · obtain ⟨noEvent, noOp⟩ := not_or.mp taken
    have decoded : orderUpdatesDecoded iterate raw = elements := by
      rw [orderUpdatesDecoded, privateCalls_push parsed push noEvent noOp,
        filterMap_decoded push.wellFormed]
    simp [decoded, noEvent, noOp]

end Push

/-! ## In terms of the strings of a push -/

section Spelled
open QuotedText

/-- What the grammar of JSON lets stand after a string. -/
def jsonDelimiters : List Char := [',', ':', ']', '\x7d', ' ', '\t', '\n', '\r']

/-- A string, as it is spelled, that one of the two tests finds. -/
def Mistaken (word body : List Char) : Prop := word = body ∨ '"' :: word <:+ body

/-- Any string of the message will do, whether it is a name or a value. -/
theorem orderUpdatesDecoded_iff_spelled {iterate : String → Option Node} {raw : String}
    {doc : Node} {elements : List Node} {lexemes : List Lexeme} (parsed : iterate raw = some doc)
    (push : OrdersPush doc elements) (lexed : Lexed jsonDelimiters lexemes)
    (spelled : raw.toList = text lexemes) :
    orderUpdatesDecoded iterate raw = elements ↔
      elements = [] ∨ ∀ body, .literal body ∈ lexemes →
        ¬ Mistaken "event".toList body ∧ ¬ Mistaken "op".toList body := by
  have event : Holds raw "\"event\"" ↔
      ∃ body, .literal body ∈ lexemes ∧ Mistaken "event".toList body := by
    rw [Holds, spelled]
    exact @quoted_infix_iff _ 'e' "vent".toList (by decide) (by decide) (by decide) _ lexed
  have op : Holds raw "\"op\"" ↔
      ∃ body, .literal body ∈ lexemes ∧ Mistaken "op".toList body := by
    rw [Holds, spelled]
    exact @quoted_infix_iff _ 'o' "p".toList (by decide) (by decide) (by decide) _ lexed
  rw [orderUpdatesDecoded_iff parsed push, event, op]
  simp only [not_exists, not_and, imp_and, forall_and]

end Spelled

/-! ## A client order id -/

def namedOrder (clientOrderId : String) : Node :=
  .object [("instId", .text "BTC-USDT"), ("ordId", .text "1"),
    ("clOrdId", .text clientOrderId), ("state", .text "live")]

def orderPush (clientOrderId : String) : Node :=
  .object [("arg", .object [("channel", .text "orders")]),
    ("data", .array [namedOrder clientOrderId])]

def orderPushText (clientOrderId : String) : String :=
  "\x7b\"arg\":\x7b\"channel\":\"orders\"\x7d,\"data\":[\x7b\"instId\":\"BTC-USDT\"," ++
    "\"ordId\":\"1\",\"clOrdId\":\"" ++ clientOrderId ++ "\",\"state\":\"live\"\x7d]\x7d"

def readOrderPush (clientOrderId raw : String) : Option Node :=
  if raw = orderPushText clientOrderId then some (orderPush clientOrderId) else none

theorem ordersPush_orderPush (clientOrderId : String) :
    OrdersPush (orderPush clientOrderId) [namedOrder clientOrderId] := by
  refine ⟨rfl, rfl, rfl, rfl, ?_⟩
  intro element member
  rw [List.mem_singleton.mp member]
  rfl

/-- The update of an order that the engine itself named is decoded. -/
theorem orderUpdatesDecoded_iff_named :
    orderUpdatesDecoded (readOrderPush "cts1") (orderPushText "cts1") = [namedOrder "cts1"] :=
  (orderUpdatesDecoded_iff (if_pos rfl) (ordersPush_orderPush "cts1")).mpr
    (.inr (by decide +kernel))

/-- An order named "op" is never heard of. -/
theorem order_named_op_dropped : ¬ ∀ (iterate : String → Option Node) (raw : String) (doc : Node)
    (elements : List Node), iterate raw = some doc → OrdersPush doc elements →
      orderUpdatesDecoded iterate raw = elements := by
  intro always
  have decoded := always (readOrderPush "op") (orderPushText "op") (orderPush "op")
    [namedOrder "op"] (if_pos rfl) (ordersPush_orderPush "op")
  have dropped : orderUpdatesDecoded (readOrderPush "op") (orderPushText "op") = [] :=
    orderUpdatesDecoded_misrouted (.inr (by decide +kernel))
  rw [dropped] at decoded
  cases decoded

end CryptoTrading
