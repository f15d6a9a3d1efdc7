import CryptoTrading.Clients.OkxOrder
import CryptoTrading.Lib.OnDemand
import CryptoTrading.Sdk.MarketData

/-! # Messages of the public connection

`OnPublicMessage` and the four decoders of market data.  `none` is an exception:
`value()` on an erroneous element, or the lookup of an instrument that is not
registered.  A number that cannot be read leaves the variable as it was, so the
variable of a decoder is passed on from field to field. -/
set_option autoImplicit false

namespace CryptoTrading

open OnDemand

def okxChannelTickers : String := "tickers"

def okxChannelBBO : String := "bbo-tbt"

def okxChannelBooks5 : String := "books5"

def okxChannelTrades : String := "trades"

/-- `c_str()`. -/
def cStr (text : String) : String := String.ofList (text.toList.takeWhile (· ≠ '\x00'))

/-- `(void)node.get_double_in_string().get(value)`. -/
def doubleInto (node : Node) (value : ℚ) : ℚ := node.getDoubleInString.getD value

/-! ## Decoders -/

def decodeTicker (registry : InstrumentRegistry) (data : Node) (instId : String) :
    Option MarketData := do
  let instrument := setBuffer 32 instId
  let info ← registry.get instrument
  let last := doubleInto (data.field "last") 0
  let lastSz := doubleInto (data.field "lastSz") last
  let bidPx := doubleInto (data.field "bidPx") lastSz
  let bidSz := doubleInto (data.field "bidSz") bidPx
  let askPx := doubleInto (data.field "askPx") bidSz
  let askSz := doubleInto (data.field "askSz") askPx
  let open24h := doubleInto (data.field "open24h") askSz
  let high24h := doubleInto (data.field "high24h") open24h
  let low24h := doubleInto (data.field "low24h") high24h
  let vol24h := doubleInto (data.field "vol24h") low24h
  some (.ticker
    { instrument := instrument
      marketType := detectMarketType (cStr instId)
      lastPrice := encode last info.pricePrecision
      lastVolume := encode lastSz info.volumePrecision
      bidPrice := encode bidPx info.pricePrecision
      bidVolume := encode bidSz info.volumePrecision
      askPrice := encode askPx info.pricePrecision
      askVolume := encode askSz info.volumePrecision
      open24h := encode open24h info.pricePrecision
      high24h := encode high24h info.pricePrecision
      low24h := encode low24h info.pricePrecision
      volume24h := encode vol24h info.volumePrecision
      volumeCurrency24h := doubleInto (data.field "volCcy24h") 0 })

/-- Price and volume of the first level, as far as there are elements for them;
the loop over the levels ends after its first turn. -/
def bestLevel (info : InstrumentInfo) (levels : Option (List Node)) : Int × Int :=
  match levels with
  | some (level :: _) =>
      match level.getArray with
      | none => (0, 0)
      | some [] => (0, 0)
      | some [px] => (encode (doubleInto px 0) info.pricePrecision, 0)
      | some (px :: sz :: _) =>
          let value := doubleInto px 0
          (encode value info.pricePrecision, encode (doubleInto sz value) info.volumePrecision)
  | _ => (0, 0)

def decodeBBO (registry : InstrumentRegistry) (data : Node) (instId : String) :
    Option MarketData := do
  let instrument := setBuffer 32 instId
  let info ← registry.get instrument
  let bid := bestLevel info (data.field "bids").getArray
  let ask := bestLevel info (data.field "asks").getArray
  some (.bbo
    { instrument := instrument
      marketType := detectMarketType (cStr instId)
      bidPrice := bid.1
      bidVolume := bid.2
      askPrice := ask.1
      askVolume := ask.2 })

/-- The inner loop of `DecodeDepth`: its counter, its variable and the level it
writes. -/
structure LevelScan where
  idx : ℕ := 0
  value : ℚ := 0
  level : PriceLevel := {}

namespace LevelScan

/-- The column with index 2 is passed over; a count is cut to an `int`. -/
def step (info : InstrumentInfo) (scan : LevelScan) (element : Node) : LevelScan :=
  if scan.idx = 0 then
    let value := doubleInto element scan.value
    { idx := 1, value := value,
      level := { scan.level with price := encode value info.pricePrecision } }
  else if scan.idx = 1 then
    let value := doubleInto element scan.value
    { idx := 2, value := value,
      level := { scan.level with volume := encode value info.volumePrecision } }
  else if scan.idx = 3 then
    let count : Int := element.getUint64InString.getD 0
    { scan with idx := 4, level := { scan.level with orderCount := count.bmod (2 ^ 32) } }
  else { scan with idx := scan.idx + 1 }

end LevelScan

/-- The loop is left after the fourth element. -/
def decodeLevel (info : InstrumentInfo) (elements : List Node) : PriceLevel :=
  ((elements.take 4).foldl (LevelScan.step info) {}).level

/-- One turn of the loop over `asks` or `bids`: nothing once the levels are full,
or for an element that is not an array. -/
def pushLevel (info : InstrumentInfo) (levels : List PriceLevel) (element : Node) :
    List PriceLevel :=
  if levels.length ≥ maxDepthLevels then levels
  else
    match element.getArray with
    | none => levels
    | some elements => levels ++ [decodeLevel info elements]

def decodeLevels (info : InstrumentInfo) (elements : Option (List Node)) : List PriceLevel :=
  (elements.getD []).foldl (pushLevel info) []

def decodeDepth (registry : InstrumentRegistry) (data : Node) (instId : String) :
    Option MarketData := do
  let instrument := setBuffer 32 instId
  let info ← registry.get instrument
  some (.depth
    { instrument := instrument
      marketType := detectMarketType (cStr instId)
      asks := decodeLevels info (data.field "asks").getArray
      bids := decodeLevels info (data.field "bids").getArray })

def decodeTrade (registry : InstrumentRegistry) (data : Node) (instId : String) :
    Option MarketData := do
  let instrument := setBuffer 32 instId
  let info ← registry.get instrument
  let px := doubleInto (data.field "px") 0
  let sz := doubleInto (data.field "sz") px
  let side := (data.field "side").string
  some (.trade
    { instrument := instrument
      tradeId := setBuffer 32 (data.field "tradeId").string
      marketType := detectMarketType (cStr instId)
      side := okxParseSide (if side = "" then "buy" else side)
      price := encode px info.pricePrecision
      volume := encode sz info.volumePrecision })

/-! ## Routing -/

/-- The decoder of a channel, and whether its loop is left after one element. -/
def publicDecoder (registry : InstrumentRegistry) (channel : String) :
    Option ((Node → String → Option MarketData) × Bool) :=
  if channel = okxChannelTickers then some (decodeTicker registry, true)
  else if channel = okxChannelBBO then some (decodeBBO registry, true)
  else if channel = okxChannelBooks5 then some (decodeDepth registry, true)
  else if channel = okxChannelTrades then some (decodeTrade registry, false)
  else none

/-- A turn of a loop over `data`. -/
def decodeElement (decode : Node → String → Option MarketData) (instId : String)
    (element : Node) : Option MarketData :=
  if element.isError then none else decode element instId

def onPublicMessage (registry : InstrumentRegistry) (iterate : List UInt8 → Option Node)
    (raw : List UInt8) : Option (List MarketData) :=
  match iterate raw with
  | none => some []
  | some doc =>
      match (doc.field "arg").getObject, (doc.field "data").getArray with
      | some _, some elements =>
          let instId := ((doc.field "arg").field "instId").string
          match publicDecoder registry ((doc.field "arg").field "channel").string with
          | none => some []
          | some (decode, once) =>
              (if once then elements.take 1 else elements).mapM (decodeElement decode instId)
      | _, _ => some []

/-! ## Which messages throw -/

section Throws
variable (registry : InstrumentRegistry) (iterate : List UInt8 → Option Node) (raw : List UInt8)

def visitedElements (doc : Node) : List Node × String :=
  match (doc.field "arg").getObject, (doc.field "data").getArray with
  | some _, some elements =>
      let channel := ((doc.field "arg").field "channel").string
      (if channel = okxChannelTickers ∨ channel = okxChannelBBO ∨ channel = okxChannelBooks5 then
          elements.take 1
        else if channel = okxChannelTrades then elements
        else [],
        ((doc.field "arg").field "instId").string)
  | _, _ => ([], "")

/-- Every element to be decoded is well formed, and the registry knows the
instrument, cut to its buffer, as soon as there is one. -/
def Harmless : Prop :=
  ∀ doc, iterate raw = some doc → ∀ element ∈ (visitedElements doc).1,
    element.isError = false ∧
      ∃ info, registry.get (setBuffer 32 (visitedElements doc).2) = some info

end Throws

section Decoders
variable {registry : InstrumentRegistry}

/-- Beyond `value()`, a decoder fails only at the lookup of its instrument. -/
theorem publicDecoder_decodes {channel : String} {once : Bool}
    {decode : Node → String → Option MarketData}
    (chosen : publicDecoder registry channel = some (decode, once)) (element : Node)
    (instId : String) : (∃ data, decode element instId = some data) ↔
      ∃ info, registry.get (setBuffer 32 instId) = some info := by
  have looksUp : ∀ build : InstrumentInfo → MarketData,
      (∃ data, ((registry.get (setBuffer 32 instId)).bind fun info => some (build info)) =
          some data) ↔ ∃ info, registry.get (setBuffer 32 instId) = some info := by
    intro build
    cases registry.get (setBuffer 32 instId) <;> simp
  rw [publicDecoder] at chosen
  split_ifs at chosen <;> cases chosen
  · exact looksUp _
  · exact looksUp _
  · exact looksUp _
  · exact looksUp _

theorem mapM_some_iff {α β : Type} (f : α → Option β) (items : List α) :
    (∃ results, items.mapM f = some results) ↔ ∀ item ∈ items, ∃ result, f item = some result := by
  induction items with
  | nil => simp
  | cons item rest ih =>
      rw [List.mapM_cons, List.forall_mem_cons, ← ih]
      cases f item with
      | none => simp
      | some result => cases rest.mapM f <;> simp

theorem visitedElements_push (registry : InstrumentRegistry) {doc : Node}
    {members : List (String × Node)} {elements : List Node}
    (object : (doc.field "arg").getObject = some members)
    (array : (doc.field "data").getArray = some elements) :
    (visitedElements doc).1 =
      match publicDecoder registry ((doc.field "arg").field "channel").string with
      | none => []
      | some (_, once) => if once then elements.take 1 else elements := by
  rw [visitedElements, object, array]
  dsimp only
  generalize ((doc.field "arg").field "channel").string = channel
  rw [publicDecoder]
  by_cases tickers : channel = okxChannelTickers
  · rw [if_pos (Or.inl tickers), if_pos tickers]
    rfl
  by_cases bbo : channel = okxChannelBBO
  · rw [if_pos (Or.inr (Or.inl bbo)), if_neg tickers, if_pos bbo]
    rfl
  by_cases books5 : channel = okxChannelBooks5
  · rw [if_pos (Or.inr (Or.inr books5)), if_neg tickers, if_neg bbo, if_pos books5]
    rfl
  rw [if_neg (by simp [tickers, bbo, books5]), if_neg tickers, if_neg bbo, if_neg books5]
  by_cases trades : channel = okxChannelTrades
  · rw [if_pos trades, if_pos trades]
    rfl
  · rw [if_neg trades, if_neg trades]

/-- A message is handled without an exception exactly when it is harmless. -/
theorem onPublicMessage_iff (iterate : List UInt8 → Option Node) (raw : List UInt8) :
    (∃ data, onPublicMessage registry iterate raw = some data) ↔
      Harmless registry iterate raw := by
  rw [onPublicMessage, Harmless]
  cases iterate raw with
  | none => simp
  | some doc =>
      simp only [Option.some.injEq, forall_eq']
      cases object : (doc.field "arg").getObject with
      | none => simp [visitedElements, object]
      | some members =>
          cases array : (doc.field "data").getArray with
          | none => simp [visitedElements, object, array]
          | some elements =>
              have named : (visitedElements doc).2 = ((doc.field "arg").field "instId").string := by
                rw [visitedElements, object, array]
              rw [visitedElements_push registry object array, named]
              dsimp only
              cases chosen : publicDecoder registry
                  ((doc.field "arg").field "channel").string with
              | none => simp
              | some choice =>
                  obtain ⟨decode, once⟩ := choice
                  dsimp only
                  rw [mapM_some_iff]
                  apply forall₂_congr
                  intro element _
                  rw [decodeElement]
                  cases element.isError with
                  | true => simp
                  | false =>
                      simp only [Bool.false_eq_true, if_false, true_and]
                      exact publicDecoder_decodes chosen element _

end Decoders

end CryptoTrading
