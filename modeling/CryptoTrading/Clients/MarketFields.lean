import CryptoTrading.Clients.OkxPublic
import CryptoTrading.Lib.SharedVariable

/-! # Fields of market data

The decoders of market data read several fields into one variable.  A field that
is missing or no number leaves there what the field before it held, and that is
encoded in its place. -/
set_option autoImplicit false

namespace CryptoTrading

open OnDemand SharedVariable

/-- What a field says by itself: nothing is zero. -/
def ownField (precision : ℕ) (node : Node) : Int :=
  match node.getDoubleInString with
  | some value => encode value precision
  | none => 0

def encodedRead (precision : ℕ) (node : Node) : Read ℚ Int :=
  { found := node.getDoubleInString, use := fun value => encode value precision }

/-! ## Own fields -/

def bestElements (levels : Node) : List Node :=
  match levels.getArray with
  | some (level :: _) => level.getArray.getD []
  | _ => []

def levelElements (levels : Node) : List (List Node) :=
  ((levels.getArray.getD []).filterMap Node.getArray).take maxDepthLevels

def ownLevel (info : InstrumentInfo) (elements : List Node) : Int × Int :=
  (ownField info.pricePrecision (elements.getD 0 .error),
    ownField info.volumePrecision (elements.getD 1 .error))

def PriceLevel.pair (level : PriceLevel) : Int × Int := (level.price, level.volume)

def FieldsOwn (info : InstrumentInfo) (data : Node) : MarketData → Prop
  | .ticker ticker =>
      ticker.lastPrice = ownField info.pricePrecision (data.field "last") ∧
      ticker.lastVolume = ownField info.volumePrecision (data.field "lastSz") ∧
      ticker.bidPrice = ownField info.pricePrecision (data.field "bidPx") ∧
      ticker.bidVolume = ownField info.volumePrecision (data.field "bidSz") ∧
      ticker.askPrice = ownField info.pricePrecision (data.field "askPx") ∧
      ticker.askVolume = ownField info.volumePrecision (data.field "askSz") ∧
      ticker.open24h = ownField info.pricePrecision (data.field "open24h") ∧
      ticker.high24h = ownField info.pricePrecision (data.field "high24h") ∧
      ticker.low24h = ownField info.pricePrecision (data.field "low24h") ∧
      ticker.volume24h = ownField info.volumePrecision (data.field "vol24h")
  | .bbo bbo =>
      (bbo.bidPrice, bbo.bidVolume) = ownLevel info (bestElements (data.field "bids")) ∧
      (bbo.askPrice, bbo.askVolume) = ownLevel info (bestElements (data.field "asks"))
  | .depth depth =>
      depth.asks.map PriceLevel.pair = (levelElements (data.field "asks")).map (ownLevel info) ∧
      depth.bids.map PriceLevel.pair = (levelElements (data.field "bids")).map (ownLevel info)
  | .trade trade =>
      trade.price = ownField info.pricePrecision (data.field "px") ∧
      trade.volume = ownField info.volumePrecision (data.field "sz")

/-! ## Shared reads -/

def levelReads (info : InstrumentInfo) (elements : List Node) : List (Read ℚ Int) :=
  List.zipWith encodedRead [info.pricePrecision, info.volumePrecision] elements

def sharedReads (info : InstrumentInfo) (data : Node) : MarketData → List (List (Read ℚ Int))
  | .ticker _ =>
      [[encodedRead info.pricePrecision (data.field "last"),
        encodedRead info.volumePrecision (data.field "lastSz"),
        encodedRead info.pricePrecision (data.field "bidPx"),
        encodedRead info.volumePrecision (data.field "bidSz"),
        encodedRead info.pricePrecision (data.field "askPx"),
        encodedRead info.volumePrecision (data.field "askSz"),
        encodedRead info.pricePrecision (data.field "open24h"),
        encodedRead info.pricePrecision (data.field "high24h"),
        encodedRead info.pricePrecision (data.field "low24h"),
        encodedRead info.volumePrecision (data.field "vol24h")]]
  | .bbo _ =>
      [levelReads info (bestElements (data.field "bids")),
        levelReads info (bestElements (data.field "asks"))]
  | .depth _ =>
      (levelElements (data.field "asks")).map (levelReads info) ++
        (levelElements (data.field "bids")).map (levelReads info)
  | .trade _ =>
      [[encodedRead info.pricePrecision (data.field "px"),
        encodedRead info.volumePrecision (data.field "sz")]]

instance (reads : List (Read ℚ Int)) : Decidable (NoLeftover 0 reads) :=
  decidable_of_iff _ (written_eq_own_iff 0 reads)

section Fields
variable {info : InstrumentInfo} {data : Node}

theorem encode_zero (precision : ℕ) : encode 0 precision = 0 := by
  have decoded := encode_decode 0 precision
  rwa [decode_zero] at decoded

theorem own_encodedRead (precision : ℕ) (node : Node) :
    own 0 (encodedRead precision node) = ownField precision node := by
  rw [own, encodedRead, ownField]
  cases node.getDoubleInString with
  | none => exact encode_zero precision
  | some value => rfl

/-! ## Levels -/

def writtenLevel (info : InstrumentInfo) (elements : List Node) : Int × Int :=
  ((written 0 (levelReads info elements)).getD 0 0, (written 0 (levelReads info elements)).getD 1 0)

theorem writtenLevel_eq_ownLevel_iff (elements : List Node) :
    writtenLevel info elements = ownLevel info elements ↔
      NoLeftover 0 (levelReads info elements) := by
  rw [← written_eq_own_iff, writtenLevel, ownLevel, levelReads]
  have missing : ∀ precision, ownField precision .error = 0 := fun _ => rfl
  rcases elements with _ | ⟨first, _ | ⟨second, rest⟩⟩
  · simp [written, missing]
  · simp [written, missing, own_encodedRead]
  · simp [written, own_encodedRead]

theorem bestLevel_eq (levels : Node) :
    bestLevel info levels.getArray = writtenLevel info (bestElements levels) := by
  unfold bestLevel bestElements
  generalize levels.getArray = found
  rcases found with _ | _ | ⟨level, rest⟩
  · rfl
  · rfl
  · dsimp only
    generalize level.getArray = elements
    rcases elements with _ | _ | ⟨px, _ | ⟨sz, others⟩⟩ <;> rfl

theorem pair_decodeLevel (elements : List Node) :
    (decodeLevel info elements).pair = writtenLevel info elements := by
  rw [decodeLevel, writtenLevel, levelReads, PriceLevel.pair]
  rcases elements with _ | ⟨px, _ | ⟨sz, _ | ⟨third, _ | ⟨fourth, rest⟩⟩⟩⟩ <;> rfl

/-- The loop over the levels takes the arrays among them, up to its five. -/
theorem foldl_pushLevel (elements : List Node) : ∀ levels : List PriceLevel,
    levels.length ≤ maxDepthLevels →
    elements.foldl (pushLevel info) levels = levels ++
      ((elements.filterMap Node.getArray).take (maxDepthLevels - levels.length)).map
        (decodeLevel info) := by
  induction elements with
  | nil =>
      intro levels _
      simp
  | cons element rest ih =>
      intro levels room
      rw [List.foldl_cons, List.filterMap_cons, pushLevel]
      by_cases full : levels.length ≥ maxDepthLevels
      · rw [if_pos full, ih levels room, Nat.sub_eq_zero_of_le full]
        simp
      · rw [if_neg full]
        cases element.getArray with
        | none => exact ih levels room
        | some elements =>
            have grown : (levels ++ [decodeLevel info elements]).length ≤ maxDepthLevels := by
              rw [List.length_append, List.length_singleton]
              omega
            have left : maxDepthLevels - levels.length =
                maxDepthLevels - (levels ++ [decodeLevel info elements]).length + 1 := by
              rw [List.length_append, List.length_singleton]
              omega
            dsimp only
            rw [ih _ grown, left, List.take_succ_cons, List.map_cons, List.append_assoc]
            rfl

theorem decodeLevels_eq (levels : Node) :
    decodeLevels info levels.getArray = (levelElements levels).map (decodeLevel info) := by
  rw [decodeLevels, foldl_pushLevel _ [] (Nat.zero_le _), levelElements]
  rfl

theorem levels_own_iff (levels : Node) :
    (decodeLevels info levels.getArray).map PriceLevel.pair =
        (levelElements levels).map (ownLevel info) ↔
      ∀ elements ∈ levelElements levels, NoLeftover 0 (levelReads info elements) := by
  rw [decodeLevels_eq, List.map_map, List.map_inj_left]
  apply forall₂_congr
  intro elements _
  rw [Function.comp_apply, pair_decodeLevel, writtenLevel_eq_ownLevel_iff]

end Fields

/-! ## Elements -/

section Elements
variable {registry : InstrumentRegistry} {info : InstrumentInfo} {instId : String}

def Ticker.written (ticker : Ticker) : List Int :=
  [ticker.lastPrice, ticker.lastVolume, ticker.bidPrice, ticker.bidVolume, ticker.askPrice,
    ticker.askVolume, ticker.open24h, ticker.high24h, ticker.low24h, ticker.volume24h]

theorem decodeTicker_written (known : registry.get (setBuffer 32 instId) = some info)
    (data : Node) : ∃ ticker, decodeTicker registry data instId = some (.ticker ticker) ∧
      ∀ reads ∈ sharedReads info data (.ticker ticker), ticker.written = written 0 reads := by
  refine ⟨_, (congrArg (Option.bind · _) known).trans rfl, fun reads member => ?_⟩
  rw [List.mem_singleton.mp member]
  rfl

theorem decodeBBO_levels (known : registry.get (setBuffer 32 instId) = some info)
    (data : Node) : ∃ bbo, decodeBBO registry data instId = some (.bbo bbo) ∧
      (bbo.bidPrice, bbo.bidVolume) = bestLevel info (data.field "bids").getArray ∧
      (bbo.askPrice, bbo.askVolume) = bestLevel info (data.field "asks").getArray :=
  ⟨_, (congrArg (Option.bind · _) known).trans rfl, rfl, rfl⟩

theorem decodeDepth_levels (known : registry.get (setBuffer 32 instId) = some info)
    (data : Node) : ∃ depth, decodeDepth registry data instId = some (.depth depth) ∧
      depth.asks = decodeLevels info (data.field "asks").getArray ∧
      depth.bids = decodeLevels info (data.field "bids").getArray :=
  ⟨_, (congrArg (Option.bind · _) known).trans rfl, rfl, rfl⟩

theorem decodeTrade_written (known : registry.get (setBuffer 32 instId) = some info)
    (data : Node) : ∃ trade, decodeTrade registry data instId = some (.trade trade) ∧
      ∀ reads ∈ sharedReads info data (.trade trade),
        [trade.price, trade.volume] = written 0 reads := by
  refine ⟨_, (congrArg (Option.bind · _) known).trans rfl, fun reads member => ?_⟩
  rw [List.mem_singleton.mp member]
  rfl

/-- The fields of what an element decodes to come from their own fields exactly
when no leftover is encoded in the place of a missing one. -/
theorem fieldsOwn_iff {channel : String} {decode : Node → String → Option MarketData}
    {once : Bool} (chosen : publicDecoder registry channel = some (decode, once))
    (known : registry.get (setBuffer 32 instId) = some info) (data : Node) :
    ∃ marketData, decode data instId = some marketData ∧
      (FieldsOwn info data marketData ↔
        ∀ reads ∈ sharedReads info data marketData, NoLeftover 0 reads) := by
  rw [publicDecoder] at chosen
  split_ifs at chosen <;> cases chosen
  · obtain ⟨ticker, decoded, fields⟩ := decodeTicker_written known data
    refine ⟨_, decoded, ?_⟩
    have ten := fields _ (List.mem_singleton_self _)
    rw [sharedReads, List.forall_mem_singleton, ← written_eq_own_iff, ← ten]
    simp only [FieldsOwn, Ticker.written, List.map_cons, List.map_nil, own_encodedRead,
      List.cons.injEq, and_true]
  · obtain ⟨bbo, decoded, bid, ask⟩ := decodeBBO_levels known data
    refine ⟨_, decoded, ?_⟩
    rw [FieldsOwn, bid, ask, bestLevel_eq, bestLevel_eq, writtenLevel_eq_ownLevel_iff,
      writtenLevel_eq_ownLevel_iff, sharedReads, List.forall_mem_cons, List.forall_mem_singleton]
  · obtain ⟨depth, decoded, asks, bids⟩ := decodeDepth_levels known data
    refine ⟨_, decoded, ?_⟩
    rw [FieldsOwn, asks, bids, levels_own_iff, levels_own_iff, sharedReads]
    simp only [List.forall_mem_append, List.forall_mem_map]
  · obtain ⟨trade, decoded, fields⟩ := decodeTrade_written known data
    refine ⟨_, decoded, ?_⟩
    have two := fields _ (List.mem_singleton_self _)
    rw [sharedReads, List.forall_mem_singleton, ← written_eq_own_iff, ← two]
    simp only [FieldsOwn, List.map_cons, List.map_nil, own_encodedRead, List.cons.injEq, and_true]

end Elements

/-! ## A trade and a ticker -/

def btcTicks : InstrumentInfo :=
  { instrument := "BTC-USDT", pricePrecision := 1, volumePrecision := 4 }

def btcTicksRegistry : InstrumentRegistry := InstrumentRegistry.add ∅ btcTicks

/-- A trade without the price, which comes before the volume. -/
def unpricedTrade : Node := .object [("sz", .text "0.25")]

/-- The volume is the first that is read into the variable, and its own. -/
theorem fieldsOwn_iff_unpriced : ∃ marketData,
    decodeTrade btcTicksRegistry unpricedTrade "BTC-USDT" = some marketData ∧
      FieldsOwn btcTicks unpricedTrade marketData := by
  have chosen : publicDecoder btcTicksRegistry okxChannelTrades =
      some (decodeTrade btcTicksRegistry, false) := by
    rw [publicDecoder, if_neg (by decide), if_neg (by decide), if_neg (by decide), if_pos rfl]
  have known : btcTicksRegistry.get (setBuffer 32 "BTC-USDT") = some btcTicks := by decide +kernel
  have read : decodeTrade btcTicksRegistry unpricedTrade "BTC-USDT" = some (.trade
      { instrument := "BTC-USDT", tradeId := "", marketType := .spot, side := .buy,
        price := 0, volume := 2500 }) := by decide +kernel
  obtain ⟨marketData, decoded, fields⟩ := fieldsOwn_iff chosen known unpricedTrade
  refine ⟨marketData, decoded, fields.mpr ?_⟩
  cases decoded.symm.trans read
  decide +kernel

def halfTicker : Node := .object [("last", .text "100.5")]

/-- The last price, at the precision of volumes, becomes the last volume. -/
theorem missing_volume_takes_price : ¬ ∀ (registry : InstrumentRegistry) (info : InstrumentInfo)
    (instId channel : String) (decode : Node → String → Option MarketData) (once : Bool)
    (data : Node) (marketData : MarketData),
      publicDecoder registry channel = some (decode, once) →
      registry.get (setBuffer 32 instId) = some info →
      decode data instId = some marketData → FieldsOwn info data marketData := by
  intro claim
  have chosen : publicDecoder btcTicksRegistry okxChannelTickers =
      some (decodeTicker btcTicksRegistry, true) := if_pos rfl
  have known : btcTicksRegistry.get (setBuffer 32 "BTC-USDT") = some btcTicks := by decide +kernel
  obtain ⟨ticker, decoded, -⟩ := decodeTicker_written known halfTicker
  have volume : (decodeTicker btcTicksRegistry halfTicker "BTC-USDT").map
      (fun marketData => match marketData with
        | .ticker ticker => ticker.lastVolume
        | _ => 0) = some 1005000 := by decide +kernel
  have own := (claim btcTicksRegistry btcTicks "BTC-USDT" okxChannelTickers _ true halfTicker _
    chosen known decoded).2.1
  rw [decoded] at volume
  rw [Option.map_some, Option.some.injEq] at volume
  dsimp only at volume
  rw [volume] at own
  exact absurd own (by decide +kernel)

end CryptoTrading
