import CryptoTrading.Clients.OkxOrder
import CryptoTrading.Lib.Json
import CryptoTrading.TradingEngine.Engine

/-! # Order messages as JSON

`BuildOrderMessage` writes its JSON piece by piece.  For every request that the
dispatcher can build the text is one object, with exactly the members that the
request asks for. -/
set_option autoImplicit false

namespace CryptoTrading

open Json JsonLiteral QuotedText DecimalText

/-! ## Requests of the dispatcher -/

structure Dispatchable (req : OrderRequest) : Prop where
  size : ∃ volume precision, req.size = format volume precision
  price : req.price = "" ∨ ∃ price precision, req.price = format price precision
  targetCurrency : req.targetCurrency = ""
  clientOrderId : req.clientOrderId.toList.all Char.isAlphanum = true

theorem dispatchable_buildRequest (info : InstrumentInfo) (signal : Signal)
    {clientOrderId : String} (wellFormed : clientOrderId.toList.all Char.isAlphanum = true) :
    Dispatchable (TradingSystem.buildRequest info signal clientOrderId) where
  size := ⟨signal.volume, info.volumePrecision, rfl⟩
  price := by
    by_cases limit : signal.orderType = .limit
    · exact .inr ⟨signal.price, info.pricePrecision, if_pos limit⟩
    · exact .inl (if_neg limit)
  targetCurrency := rfl
  clientOrderId := wellFormed

/-- What an order is meant to say, by the name of the member. -/
inductive Asked (code : Int) (req : OrderRequest) : String → Json → Prop
  | instIdCode : Asked code req "instIdCode" (.number code)
  | side : Asked code req "side" (.text (kOkxSide req.side))
  | ordType : Asked code req "ordType" (.text (kOkxOrderType req.orderType))
  | sz : Asked code req "sz" (.text req.size)
  | tdMode : Asked code req "tdMode" (.text (kOkxTradeMode req.tradeMode))
  | px (limit : req.orderType = .limit) (nonempty : req.price ≠ "") :
      Asked code req "px" (.text req.price)
  | posSide (swap : req.marketType = .swap) :
      Asked code req "posSide" (.text (kOkxPosSide req.positionSide))
  | tgtCcy (spot : req.marketType = .spot) (market : req.orderType = .market)
      (buy : req.side = .buy) : Asked code req "tgtCcy" (.text "quote_ccy")
  | clOrdId (nonempty : req.clientOrderId ≠ "") :
      Asked code req "clOrdId" (.text req.clientOrderId)

/-! ## The members of a message -/

def decodedMembers (code : Int) (req : OrderRequest) : List (String × Json) :=
  ("instIdCode", .number code) :: (orderMembers req).map fun text => (text.1, .text text.2)

theorem asked_of_mem (code : Int) {req : OrderRequest} (dispatchable : Dispatchable req)
    {text : String × String} (member : text ∈ orderMembers req) :
    Asked code req text.1 (.text text.2) := by
  rw [orderMembers, dispatchable.targetCurrency, if_pos rfl] at member
  simp only [List.mem_append] at member
  rcases member with ((fixed | optional) | optional) | optional
  · simp only [List.mem_cons, List.not_mem_nil, or_false] at fixed
    rcases fixed with rfl | rfl | rfl | rfl
    · exact .side
    · exact .ordType
    · exact .sz
    · exact .tdMode
  · split at optional
    · next swap =>
        rw [List.mem_singleton.mp optional]
        exact .posSide swap
    · next notSwap =>
        have spot : req.marketType = .spot := by
          cases market : req.marketType with
          | spot => rfl
          | swap => exact absurd market notSwap
        split at optional
        · next buy =>
            rw [List.mem_singleton.mp optional]
            exact .tgtCcy spot buy.1 buy.2
        · cases optional
  · split at optional
    · next limit =>
        rw [List.mem_singleton.mp optional]
        exact .px limit.1 limit.2
    · cases optional
  · split at optional
    · next nonempty =>
        rw [List.mem_singleton.mp optional]
        exact .clOrdId nonempty
    · cases optional

theorem mem_decodedMembers_iff (code : Int) {req : OrderRequest}
    (dispatchable : Dispatchable req) (name : String) (value : Json) :
    (name, value) ∈ decodedMembers code req ↔ Asked code req name value := by
  constructor
  · intro member
    rw [decodedMembers, List.mem_cons, List.mem_map] at member
    rcases member with code | ⟨text, member, same⟩
    · cases code
      exact .instIdCode
    · cases same
      exact asked_of_mem code dispatchable member
  · intro asked
    rw [decodedMembers, orderMembers]
    cases asked with
    | instIdCode => simp
    | side => simp
    | ordType => simp
    | sz => simp
    | tdMode => simp
    | px limit nonempty => simp [limit, nonempty]
    | posSide swap => simp [swap]
    | tgtCcy spot market buy => simp [spot, market, buy, dispatchable.targetCurrency]
    | clOrdId nonempty => simp [nonempty]

/-! ## Texts without escapes -/

theorem plain_of_alphanum {chars : List Char} (alphanum : chars.all Char.isAlphanum = true) :
    Plain chars := by
  intro char member
  have isAlphanum := List.all_eq_true.mp alphanum char member
  refine ⟨?_, ?_, ?_⟩
  · rintro rfl
    cases isAlphanum
  · rintro rfl
    cases isAlphanum
  · intro control
    have below : char.toNat < 32 := control
    have controls : ∀ code < 32, (Char.ofNat code).isAlphanum = false := by decide
    have none := controls char.toNat below
    rw [Char.ofNat_toNat, isAlphanum] at none
    cases none

theorem plain_digits {chars : List Char} (digits : isDigits chars) : Plain chars := by
  refine plain_of_alphanum (List.all_eq_true.mpr fun char member => ?_)
  rw [Char.isAlphanum, digits char member, Bool.or_true]

theorem plain_format (scaled : Int) (precision : ℕ) : Plain (format scaled precision).toList := by
  have digits : ∀ value, Plain (Nat.toDigits 10 value) := fun value =>
    plain_digits (isDigits_toDigits value)
  have padded : ∀ value, Plain (zeroPadded precision value) := fun value =>
    plain_digits (isDigits_zeroPadded precision value)
  rw [format, String.toList_ofList, formatText_eq, unsignedText]
  split <;> split <;> simp [digits, padded]

theorem plain_of_asked {code : Int} {req : OrderRequest} {name value : String}
    (dispatchable : Dispatchable req) (asked : Asked code req name (.text value)) :
    Plain name.toList ∧ Plain value.toList := by
  cases asked with
  | side => cases req.side <;> simp [kOkxSide]
  | ordType => cases req.orderType <;> simp [kOkxOrderType]
  | sz =>
      obtain ⟨volume, precision, same⟩ := dispatchable.size
      rw [same]
      exact ⟨by simp, plain_format volume precision⟩
  | tdMode => cases req.tradeMode <;> simp [kOkxTradeMode]
  | px limit nonempty =>
      rcases dispatchable.price with none | ⟨price, precision, same⟩
      · exact absurd none nonempty
      · rw [same]
        exact ⟨by simp, plain_format price precision⟩
  | posSide swap => cases req.positionSide <;> simp [kOkxPosSide]
  | tgtCcy spot market buy => simp
  | clOrdId nonempty => exact ⟨by simp, plain_of_alphanum dispatchable.clientOrderId⟩

/-! ## The message -/

theorem members_of_texts (texts : List (String × String))
    (plain : ∀ text ∈ texts, Plain text.1.toList ∧ Plain text.2.toList) :
    ∃ later : List Member,
      laterText later = (String.join (texts.map memberText)).toList ∧
        later.map Member.read = texts.map fun text => (text.1, .text text.2) := by
  induction texts with
  | nil => exact ⟨[], rfl, rfl⟩
  | cons text texts ih =>
      obtain ⟨later, written, read⟩ := ih fun other member => plain other (.tail _ member)
      obtain ⟨plainName, plainValue⟩ := plain text List.mem_cons_self
      refine ⟨textMember text.1 text.2 plainName plainValue :: later, ?_, ?_⟩
      · rw [List.map_cons, String.join_cons, String.toList_append, ← written, memberText]
        simp [laterText, textMember, named, quoted]
      · rw [List.map_cons, List.map_cons, read, read_textMember]

theorem parse_buildOrderMessage (codes : UnorderedMap String Int) (nowNs : ℕ)
    {req : OrderRequest} (dispatchable : Dispatchable req) :
    Json.parse (buildOrderMessage codes (toString nowNs) req) =
      some (.object [("id", .text (toString nowNs)), ("op", .text "order"),
        ("args", .array [.object (decodedMembers (codes.getD req.instrument 0) req)])]) := by
  obtain ⟨later, written, read⟩ := members_of_texts (orderMembers req) fun text member =>
    plain_of_asked dispatchable (asked_of_mem (codes.getD req.instrument 0) dispatchable member)
  have idPlain : Plain (toString nowNs).toList := by
    rw [show (toString nowNs).toList = Nat.toDigits 10 nowNs from Nat.toList_repr]
    exact plain_digits (isDigits_toDigits nowNs)
  let code : Member :=
    { name := "instIdCode".toList, text := _, json := _, plain := by simp
      spelled := spells_int (codes.getD req.instrument 0) }
  let id := textMember "id" (toString nowNs) (by simp) idPlain
  let op := textMember "op" "order" (by simp) (by simp)
  let args : Member :=
    { name := "args".toList, text := _, json := _, plain := by simp
      spelled := spells_singleton code later }
  have spelled := spells_object id [op, args]
  have message : (buildOrderMessage codes (toString nowNs) req).toList =
      objectText id [op, args] := by
    simp [buildOrderMessage, objectText, laterText, named, quoted, id, op, args, code, textMember,
      ← written]
  rw [← message] at spelled
  rw [parse_spelled spelled]
  simp [Member.read, textMember, id, op, args, code, read, decodedMembers]

def memberNames : List String :=
  ["instIdCode", "side", "ordType", "sz", "tdMode"] ++ ["posSide", "tgtCcy"] ++ ["px"] ++
    ["clOrdId"]

theorem decodedMembers_sublist (code : Int) (req : OrderRequest) :
    ((decodedMembers code req).map Prod.fst).Sublist memberNames := by
  have names : (decodedMembers code req).map Prod.fst =
      "instIdCode" :: (orderMembers req).map Prod.fst := by
    simp [decodedMembers, Function.comp_def]
  rw [names, orderMembers, memberNames]
  simp only [List.map_append, ← List.cons_append]
  refine ((List.Sublist.append (List.Sublist.refl _) ?_).append ?_).append ?_
  · split
    · simp
    · split <;> simp
  · split <;> simp
  · split <;> simp

theorem decodedMembers_nodup (code : Int) (req : OrderRequest) :
    ((decodedMembers code req).map Prod.fst).Nodup := by
  have names : memberNames.Nodup := by simp [memberNames]
  exact names.sublist (decodedMembers_sublist code req)

/-- The message is one JSON object with the id, the operation and exactly the
members that were asked for, each once. -/
theorem buildOrderMessage_says (codes : UnorderedMap String Int) (nowNs : ℕ)
    {req : OrderRequest} (dispatchable : Dispatchable req) :
    ∃ args, Json.parse (buildOrderMessage codes (toString nowNs) req) =
        some (.object [("id", .text (toString nowNs)), ("op", .text "order"),
          ("args", .array [.object args])]) ∧
      (args.map Prod.fst).Nodup ∧
      ∀ name value, (name, value) ∈ args ↔
        Asked (codes.getD req.instrument 0) req name value :=
  ⟨_, parse_buildOrderMessage codes nowNs dispatchable, decodedMembers_nodup _ _,
    fun name value => mem_decodedMembers_iff _ dispatchable name value⟩

theorem buildOrderMessage_says_swap :
    let codes : UnorderedMap String Int := Finmap.singleton "BTC-USDT-SWAP" 77
    let req := TradingSystem.buildRequest
      { instrument := "BTC-USDT-SWAP", pricePrecision := 1, volumePrecision := 2 }
      { instrument := "BTC-USDT-SWAP", orderId := "", action := .sell, orderType := .limit
        marketType := .swap, positionSide := .short, tradeMode := .cross, price := 1005
        volume := 25 } "cts7"
    ∃ args, Json.parse (buildOrderMessage codes (toString 9) req) =
        some (.object [("id", .text (toString 9)), ("op", .text "order"),
          ("args", .array [.object args])]) ∧
      (args.map Prod.fst).Nodup ∧
      ∀ name value, (name, value) ∈ args ↔
        Asked (codes.getD req.instrument 0) req name value :=
  buildOrderMessage_says _ 9 (@dispatchable_buildRequest _ _ "cts7" (by decide))

end CryptoTrading
