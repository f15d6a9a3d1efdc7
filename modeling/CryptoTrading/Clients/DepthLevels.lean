import CryptoTrading.Clients.MarketFields

/-! # Levels of a depth

`DecodeDepth` as it fills the arrays of a `Depth`: both loops with their breaks,
the counter of the levels as the index that is written to, and a write past the
end as a fault.  It never faults there, and the filled part of an array is the
list of levels that `decodeLevels` builds. -/
set_option autoImplicit false

namespace CryptoTrading

open OnDemand

/-! ## The loops -/

structure LevelArray where
  levels : Vector PriceLevel maxDepthLevels := Vector.replicate maxDepthLevels {}
  count : ℕ := 0
  deriving DecidableEq

inductive DepthFault where
  | unknownInstrument
  | pastEnd
  deriving DecidableEq, Repr

namespace LevelArray

def write (array : LevelArray) (update : PriceLevel → PriceLevel) : Except DepthFault LevelArray :=
  if inside : array.count < maxDepthLevels then
    .ok { array with
      levels := array.levels.set array.count (update array.levels[array.count]) }
  else .error .pastEnd

end LevelArray

structure ColumnScan where
  idx : ℕ := 0
  value : ℚ := 0
  array : LevelArray

namespace ColumnScan

def step (info : InstrumentInfo) (scan : ColumnScan) (element : Node) :
    Except DepthFault ColumnScan :=
  if scan.idx = 0 then do
    let value := doubleInto element scan.value
    let array ← scan.array.write fun level =>
      { level with price := encode value info.pricePrecision }
    .ok { idx := 1, value := value, array := array }
  else if scan.idx = 1 then do
    let value := doubleInto element scan.value
    let array ← scan.array.write fun level =>
      { level with volume := encode value info.volumePrecision }
    .ok { idx := 2, value := value, array := array }
  else if scan.idx = 3 then do
    let count : Int := element.getUint64InString.getD 0
    let array ← scan.array.write fun level =>
      { level with orderCount := count.bmod (2 ^ 32) }
    .ok { scan with idx := 4, array := array }
  else .ok { scan with idx := scan.idx + 1 }

end ColumnScan

def scanColumns (info : InstrumentInfo) : List Node → ColumnScan → Except DepthFault ColumnScan
  | [], scan => .ok scan
  | element :: rest, scan => do
      let next ← scan.step info element
      if next.idx > 3 then .ok next else scanColumns info rest next

def scanLevels (info : InstrumentInfo) : List Node → LevelArray → Except DepthFault LevelArray
  | [], array => .ok array
  | element :: rest, array =>
      if array.count ≥ maxDepthLevels then .ok array
      else
        match element.getArray with
        | none => scanLevels info rest array
        | some elements => do
            let scan ← scanColumns info elements { array := array }
            scanLevels info rest { scan.array with count := scan.array.count + 1 }

structure DepthArrays where
  instrument : String := ""
  marketType : MarketType := .spot
  asks : LevelArray := {}
  bids : LevelArray := {}
  deriving DecidableEq

def fillLevels (info : InstrumentInfo) (elements : Option (List Node)) :
    Except DepthFault LevelArray :=
  match elements with
  | none => .ok {}
  | some elements => scanLevels info elements {}

def decodeDepthArrays (registry : InstrumentRegistry) (data : Node) (instId : String) :
    Except DepthFault DepthArrays :=
  let instrument := setBuffer 32 instId
  match registry.get instrument with
  | none => .error .unknownInstrument
  | some info => do
      let asks ← fillLevels info (data.field "asks").getArray
      let bids ← fillLevels info (data.field "bids").getArray
      .ok
        { instrument := instrument
          marketType := detectMarketType (cStr instId)
          asks := asks
          bids := bids }

/-! ## One level -/

section Level
variable {info : InstrumentInfo} {array : LevelArray}

def LevelArray.put (array : LevelArray) (level : PriceLevel) : LevelArray :=
  { array with levels := array.levels.setIfInBounds array.count level }

theorem LevelArray.write_put (inside : array.count < maxDepthLevels) (level : PriceLevel)
    (update : PriceLevel → PriceLevel) :
    (array.put level).write update = .ok (array.put (update level)) := by
  have current : (array.levels.setIfInBounds array.count level)[array.count] = level :=
    Vector.getElem_setIfInBounds_self inside
  have written : (array.levels.setIfInBounds array.count level).set array.count
      (update (array.levels.setIfInBounds array.count level)[array.count]) inside =
        array.levels.setIfInBounds array.count (update level) := by
    rw [current]
    ext i within
    rw [Vector.getElem_set inside within, Vector.getElem_setIfInBounds within,
      Vector.getElem_setIfInBounds within]
    split <;> rfl
  rw [write, dif_pos (show (array.put level).count < maxDepthLevels from inside)]
  exact congrArg (fun levels => Except.ok ({ array with levels := levels } : LevelArray)) written

def ColumnScan.ofLevel (array : LevelArray) (scan : LevelScan) : ColumnScan :=
  { idx := scan.idx, value := scan.value, array := array.put scan.level }

theorem ColumnScan.step_ofLevel (inside : array.count < maxDepthLevels) (scan : LevelScan)
    (element : Node) : (ColumnScan.ofLevel array scan).step info element =
      .ok (ColumnScan.ofLevel array (scan.step info element)) := by
  obtain ⟨idx, value, level⟩ := scan
  simp only [ColumnScan.step, ColumnScan.ofLevel, LevelScan.step, LevelArray.write_put inside]
  split
  · rfl
  · split
    · rfl
    · split <;> rfl

theorem LevelScan.step_idx (scan : LevelScan) (element : Node) :
    (scan.step info element).idx = scan.idx + 1 := by
  rw [LevelScan.step]
  split_ifs with first second fourth
  · rw [first]
  · rw [second]
  · rw [fourth]
  · rfl

theorem scanColumns_ofLevel (inside : array.count < maxDepthLevels) (elements : List Node) :
    ∀ scan : LevelScan, scan.idx ≤ 3 →
      scanColumns info elements (.ofLevel array scan) =
        .ok (.ofLevel array ((elements.take (4 - scan.idx)).foldl (LevelScan.step info) scan)) := by
  induction elements with
  | nil =>
      intro scan _
      rw [List.take_nil]
      rfl
  | cons element rest ih =>
      intro scan running
      have moved := @LevelScan.step_idx info scan element
      have left : 4 - scan.idx = 4 - (scan.step info element).idx + 1 := by omega
      rw [scanColumns, ColumnScan.step_ofLevel inside, left, List.take_succ_cons, List.foldl_cons]
      by_cases last : (scan.step info element).idx > 3
      · have none : 4 - (scan.step info element).idx = 0 := by omega
        rw [none, List.take_zero]
        exact if_pos last
      · exact (if_neg last).trans (ih _ (by omega))

end Level

/-! ## All levels -/

section Levels
variable {info : InstrumentInfo} {array : LevelArray}

def LevelArray.filled (array : LevelArray) : List PriceLevel :=
  array.levels.toList.take array.count

/-- The levels from the counter on have not been written to. -/
structure LevelArray.Fresh (array : LevelArray) : Prop where
  room : array.count ≤ maxDepthLevels
  unwritten : ∀ i (inside : i < maxDepthLevels), array.count ≤ i → array.levels[i] = {}

theorem LevelArray.Fresh.put_empty (fresh : array.Fresh) (inside : array.count < maxDepthLevels) :
    array.put {} = array := by
  have empty := fresh.unwritten array.count inside (Nat.le_refl _)
  have same : array.levels.setIfInBounds array.count {} = array.levels := by
    ext i within
    rw [Vector.getElem_setIfInBounds]
    split
    · next here =>
        subst here
        exact empty.symm
    · rfl
  rw [put, same]

theorem scanColumns_level (fresh : array.Fresh) (inside : array.count < maxDepthLevels)
    (elements : List Node) : ∃ scan, scanColumns info elements { array := array } = .ok scan ∧
      scan.array = array.put (decodeLevel info elements) := by
  have start : ({ array := array } : ColumnScan) = .ofLevel array {} := by
    rw [ColumnScan.ofLevel, fresh.put_empty inside]
  rw [start, scanColumns_ofLevel inside elements {} (Nat.zero_le _)]
  exact ⟨_, rfl, rfl⟩

theorem LevelArray.filled_put (inside : array.count < maxDepthLevels) (level : PriceLevel) :
    ({ array.put level with count := array.count + 1 } : LevelArray).filled =
      array.filled ++ [level] := by
  have length : array.count < array.levels.toList.length := by
    rw [Vector.length_toList]
    exact inside
  rw [filled, filled, put, Vector.toList_setIfInBounds, List.take_add_one, List.take_set_of_le
    (Nat.le_refl _), List.getElem?_set_self length]
  rfl

theorem LevelArray.Fresh.put (fresh : array.Fresh) (inside : array.count < maxDepthLevels)
    (level : PriceLevel) :
    ({ array.put level with count := array.count + 1 } : LevelArray).Fresh where
  room := inside
  unwritten i within behind :=
    (Vector.getElem_setIfInBounds_ne within (Nat.ne_of_lt behind)).trans
      (fresh.unwritten i within (Nat.le_of_succ_le behind))

/-- The loop over the levels builds the list of them and never writes past the end. -/
theorem scanLevels_eq (elements : List Node) : ∀ array : LevelArray, array.Fresh →
    ∃ after, scanLevels info elements array = .ok after ∧ after.Fresh ∧
      after.filled = elements.foldl (pushLevel info) array.filled := by
  induction elements with
  | nil => exact fun array fresh => ⟨array, rfl, fresh, rfl⟩
  | cons element rest ih =>
      intro array fresh
      have length : array.filled.length = array.count := by
        rw [LevelArray.filled, List.length_take, Vector.length_toList]
        exact Nat.min_eq_left fresh.room
      rw [scanLevels, List.foldl_cons, pushLevel, length]
      by_cases full : array.count ≥ maxDepthLevels
      · rw [if_pos full, if_pos full]
        refine ⟨array, rfl, fresh, ?_⟩
        rw [foldl_pushLevel _ _ (length.trans_le fresh.room), length,
          Nat.sub_eq_zero_of_le full]
        simp
      · rw [if_neg full, if_neg full]
        cases element.getArray with
        | none => exact ih array fresh
        | some elements =>
            have inside := Nat.lt_of_not_le full
            obtain ⟨⟨idx, value, filled⟩, scanned, rfl⟩ :=
              @scanColumns_level info array fresh inside elements
            dsimp only
            rw [scanned, ← LevelArray.filled_put inside]
            exact ih _ (fresh.put inside _)

theorem fresh_empty : ({} : LevelArray).Fresh where
  room := Nat.zero_le _
  unwritten _ inside _ := Vector.getElem_replicate inside

theorem fillLevels_eq (levels : Node) : ∃ array, fillLevels info levels.getArray = .ok array ∧
    array.count ≤ maxDepthLevels ∧ array.filled = decodeLevels info levels.getArray := by
  cases levels.getArray with
  | none => exact ⟨{}, rfl, Nat.zero_le _, rfl⟩
  | some elements =>
      obtain ⟨after, filledAll, fresh, same⟩ := @scanLevels_eq info elements {} fresh_empty
      exact ⟨after, filledAll, fresh.room, same⟩

end Levels

/-! ## Depths -/

def DepthArrays.toDepth (depth : DepthArrays) : Depth :=
  { instrument := depth.instrument
    marketType := depth.marketType
    asks := depth.asks.filled
    bids := depth.bids.filled }

/-- Neither array is written past its end. -/
theorem decodeDepthArrays_inside (registry : InstrumentRegistry) (data : Node) (instId : String) :
    decodeDepthArrays registry data instId ≠ .error .pastEnd ∧
      (decodeDepthArrays registry data instId).toOption.map (fun depth => .depth depth.toDepth) =
        decodeDepth registry data instId := by
  rw [decodeDepthArrays, decodeDepth]
  cases registry.get (setBuffer 32 instId) with
  | none => exact ⟨by simp, rfl⟩
  | some info =>
      obtain ⟨asks, filledAsks, -, sameAsks⟩ := @fillLevels_eq info (data.field "asks")
      obtain ⟨bids, filledBids, -, sameBids⟩ := @fillLevels_eq info (data.field "bids")
      dsimp only
      rw [filledAsks, filledBids]
      refine ⟨fun impossible => ?_, ?_⟩
      · cases impossible
      · simp only [Option.bind_eq_bind, Option.bind_some, ← sameAsks, ← sameBids]
        rfl

/-- The elements of a level that quotes a price, a volume and a number of orders. -/
def Quotes (columns : List Node) (price volume : ℚ) (orders : ℕ) : Prop :=
  ∃ px sz third count rest, columns = px :: sz :: third :: count :: rest ∧
    px.getDoubleInString = some price ∧ sz.getDoubleInString = some volume ∧
      count.getUint64InString = some orders ∧ orders < 2 ^ 31

/-- The array holds the first levels among the elements, in order, and no others. -/
structure LevelsTaken (info : InstrumentInfo) (elements : List Node) (array : LevelArray) :
    Prop where
  count : array.count = min 5 (elements.filterMap Node.getArray).length
  level : ∀ i < array.count, ∃ columns price volume orders,
    (elements.filterMap Node.getArray)[i]? = some columns ∧ Quotes columns price volume orders ∧
      array.levels[i]? = some
        { price := encode price info.pricePrecision
          volume := encode volume info.volumePrecision
          orderCount := orders }

section Faithful
variable {info : InstrumentInfo}

theorem decodeLevel_quotes {columns : List Node} {price volume : ℚ} {orders : ℕ}
    (quotes : Quotes columns price volume orders) : decodeLevel info columns =
      { price := encode price info.pricePrecision
        volume := encode volume info.volumePrecision
        orderCount := orders } := by
  obtain ⟨px, sz, third, count, rest, rfl, readPx, readSz, readCount, small⟩ := quotes
  have uncut : (orders : Int).bmod 4294967296 = orders :=
    Int.bmod_eq_of_le (by omega) (by omega)
  simp [decodeLevel, LevelScan.step, doubleInto, readPx, readSz, readCount, uncut]

theorem levelsTaken_of_filled {elements : List Node} {array : LevelArray}
    (room : array.count ≤ maxDepthLevels)
    (filled : array.filled = decodeLevels info (some elements))
    (quoted : ∀ columns ∈ elements.filterMap Node.getArray,
      ∃ price volume orders, Quotes columns price volume orders) :
    LevelsTaken info elements array := by
  have taken : array.filled =
      ((elements.filterMap Node.getArray).take maxDepthLevels).map (decodeLevel info) :=
    filled.trans (decodeLevels_eq (.array elements))
  have count : array.count = min 5 (elements.filterMap Node.getArray).length := by
    have lengths := congrArg List.length taken
    rw [LevelArray.filled, List.length_take, Vector.length_toList, List.length_map,
      List.length_take] at lengths
    rwa [Nat.min_eq_left room] at lengths
  refine ⟨count, fun i below => ?_⟩
  have inside : i < (elements.filterMap Node.getArray).length := by omega
  have within : i < maxDepthLevels := Nat.lt_of_lt_of_le below room
  obtain ⟨price, volume, orders, quotes⟩ := quoted _ (List.getElem_mem inside)
  refine ⟨_, price, volume, orders, List.getElem?_eq_getElem inside, quotes, ?_⟩
  have here := congrArg (·[i]?) taken
  rw [LevelArray.filled, List.getElem?_take_of_lt below, List.getElem?_map,
    List.getElem?_take_of_lt within, List.getElem?_eq_getElem inside, Option.map_some,
    decodeLevel_quotes quotes, Vector.getElem?_toList] at here
  exact here

/-- The arrays of a depth hold the levels of its message, and nothing is written
past their ends. -/
theorem decodeDepth_levelsTaken {registry : InstrumentRegistry} {data : Node} {instId : String}
    {asks bids : List Node} (known : registry.get (setBuffer 32 instId) = some info)
    (hasAsks : (data.field "asks").getArray = some asks)
    (hasBids : (data.field "bids").getArray = some bids)
    (quotedAsks : ∀ columns ∈ asks.filterMap Node.getArray,
      ∃ price volume orders, Quotes columns price volume orders)
    (quotedBids : ∀ columns ∈ bids.filterMap Node.getArray,
      ∃ price volume orders, Quotes columns price volume orders) :
    ∃ depth, decodeDepthArrays registry data instId = .ok depth ∧
      LevelsTaken info asks depth.asks ∧ LevelsTaken info bids depth.bids := by
  obtain ⟨askArray, filledAsks, roomAsks, sameAsks⟩ := @fillLevels_eq info (data.field "asks")
  obtain ⟨bidArray, filledBids, roomBids, sameBids⟩ := @fillLevels_eq info (data.field "bids")
  rw [hasAsks] at sameAsks
  rw [hasBids] at sameBids
  have decoded : decodeDepthArrays registry data instId = .ok
      { instrument := setBuffer 32 instId
        marketType := detectMarketType (cStr instId)
        asks := askArray
        bids := bidArray } := by
    rw [decodeDepthArrays, known]
    dsimp only
    rw [filledAsks, filledBids]
    rfl
  exact ⟨_, decoded, levelsTaken_of_filled roomAsks sameAsks quotedAsks,
    levelsTaken_of_filled roomBids sameBids quotedBids⟩

end Faithful

/-- Seven elements, the second no array. -/
def sevenAsks : List Node :=
  let level := fun price => Node.array [.text price, .text "2", .text "0", .text "3"]
  [level "1.5", .null, level "2.5", level "3.5", level "4.5", level "5.5", level "6.5"]

def sevenAskDepth : Node := .object [("asks", .array sevenAsks), ("bids", .array [])]

/-- The element that is no array is passed over, and the last level not taken. -/
theorem decodeDepth_levelsTaken_seven : ∃ depth,
    decodeDepthArrays btcTicksRegistry sevenAskDepth "BTC-USDT" = .ok depth ∧
      LevelsTaken btcTicks sevenAsks depth.asks ∧ LevelsTaken btcTicks [] depth.bids := by
  have quoted : ∀ columns ∈ sevenAsks.filterMap Node.getArray,
      ∃ price volume orders, Quotes columns price volume orders := by
    intro columns member
    have level : ∀ price : String, ∀ value, (Node.text price).getDoubleInString = some value →
        Quotes [.text price, .text "2", .text "0", .text "3"] value 2 3 := fun price value read =>
      ⟨_, _, _, _, _, rfl, read, by decide +kernel, by decide +kernel, by decide⟩
    simp only [sevenAsks, List.filterMap_cons, Node.getArray, List.filterMap_nil, List.mem_cons,
      List.not_mem_nil, or_false] at member
    rcases member with rfl | rfl | rfl | rfl | rfl | rfl
    · exact ⟨3 / 2, 2, 3, level "1.5" _ (by decide +kernel)⟩
    · exact ⟨5 / 2, 2, 3, level "2.5" _ (by decide +kernel)⟩
    · exact ⟨7 / 2, 2, 3, level "3.5" _ (by decide +kernel)⟩
    · exact ⟨9 / 2, 2, 3, level "4.5" _ (by decide +kernel)⟩
    · exact ⟨11 / 2, 2, 3, level "5.5" _ (by decide +kernel)⟩
    · exact ⟨13 / 2, 2, 3, level "6.5" _ (by decide +kernel)⟩
  exact decodeDepth_levelsTaken (by decide +kernel) rfl rfl quoted
    (fun columns member => nomatch member)

end CryptoTrading
