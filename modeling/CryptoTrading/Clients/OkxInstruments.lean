import CryptoTrading.Lib.OnDemand
import CryptoTrading.Sdk.Defs
import CryptoTrading.Sdk.Utils
import Mathlib.Data.List.TakeWhile

/-! # Instruments of the exchange

`FetchAllInstruments` from the bodies of its two requests on.  A precision is
the number of characters behind the dot of a step size, as the server spells
it; nothing compares it with the length of the table of powers. -/
set_option autoImplicit false

namespace CryptoTrading

open OnDemand

/-! ## Elements -/

structure FetchedInstrument where
  instrument : String
  instIdCode : Int
  info : InstrumentInfo
  deriving DecidableEq, Repr

/-- `none` is an element that is skipped. -/
def decodeInstrument (element : Node) : Option FetchedInstrument :=
  match (element.field "instId").getString with
  | none => none
  | some instId =>
      if instId = "" then none
      else
        let codeVal := (element.field "instIdCode").getInt64.getD 0
        some
          { instrument := instId
            instIdCode := codeVal.bmod (2 ^ 32)
            info :=
              { instrument := setBuffer 32 instId
                pricePrecision := countDecimalPlaces (element.field "tickSz").string
                volumePrecision := countDecimalPlaces (element.field "lotSz").string } }

/-! ## Responses -/

/-- The elements of a response; one without a brace, that does not parse, has
another code than "0" or no array is logged and left out. -/
def instrumentElements (iterate : List UInt8 → Option Node) (rawBody : List UInt8) : List Node :=
  let paddedBody := rawBody.dropWhile (· ≠ 0x7B)
  if paddedBody = [] then []
  else
    match iterate paddedBody with
    | none => []
    | some doc =>
        if (doc.field "code").getString = some "0" then (doc.field "data").getArray.getD [] else []

structure InstrumentTables where
  instIdCodes : UnorderedMap String Int
  registry : InstrumentRegistry

def InstrumentTables.add (tables : InstrumentTables) (fetched : FetchedInstrument) :
    InstrumentTables :=
  { instIdCodes := tables.instIdCodes.insert fetched.instrument fetched.instIdCode
    registry := tables.registry.add fetched.info }

section Fetch
variable (iterate : List UInt8 → Option Node) (request : String → List UInt8)

def allElements : List Node :=
  ["SPOT", "SWAP"].flatMap fun instType => instrumentElements iterate (request instType)

def fetchedInstruments : List FetchedInstrument :=
  (allElements iterate request).filterMap decodeInstrument

def fetchAllInstruments (tables : InstrumentTables) : InstrumentTables :=
  (fetchedInstruments iterate request).foldl InstrumentTables.add tables

end Fetch

/-! ## The table of powers -/

/-- `kPow10` has the powers 0 to 12. -/
def InTable (precision : ℕ) : Prop := precision ≤ 12

instance (precision : ℕ) : Decidable (InTable precision) := inferInstanceAs (Decidable (_ ≤ _))

def InstrumentInfo.InTables (info : InstrumentInfo) : Prop :=
  InTable info.pricePrecision ∧ InTable info.volumePrecision

/-- At most twelve bytes follow the first dot, up to a NUL or the end. -/
def FewDecimals (text : String) : Prop :=
  ∀ whole decimals, text.toList.takeWhile (· ≠ '\x00') = whole ++ '.' :: decimals →
    '.' ∉ whole → (decimals.map Char.utf8Size).sum ≤ 12

def NamesInstrument (element : Node) : Prop :=
  ∃ instId, (element.field "instId").getString = some instId ∧ instId ≠ ""

theorem inTable_countDecimalPlaces_iff (text : String) :
    InTable (countDecimalPlaces text) ↔ FewDecimals text := by
  rw [InTable, countDecimalPlaces, FewDecimals]
  generalize text.toList.takeWhile (· ≠ '\x00') = chars
  constructor
  · intro few whole decimals split noDot
    have dropped : chars.dropWhile (· ≠ '.') = '.' :: decimals := by
      rw [split, List.dropWhile_append_of_pos fun char member => by
        simpa using fun same : char = '.' => noDot (same ▸ member)]
      rfl
    rw [dropped] at few
    exact few
  · intro few
    split
    · exact Nat.zero_le _
    · next dot decimals dropped =>
        have stops := List.head?_dropWhile_not (fun char => decide (char ≠ '.')) chars
        rw [dropped, List.head?_cons] at stops
        have isDot : dot = '.' := by simpa using stops
        refine few (chars.takeWhile (· ≠ '.')) decimals ?_ ?_
        · rw [isDot] at dropped
          rw [← dropped, List.takeWhile_append_dropWhile]
        · intro member
          have passes := List.mem_takeWhile_imp member
          simp at passes

section Fetched
variable {iterate : List UInt8 → Option Node} {request : String → List UInt8}

/-- An element that names an instrument is added with the precisions its step
sizes have; no other is added. -/
theorem decodeInstrument_some_iff (element : Node) :
    (∃ fetched, decodeInstrument element = some fetched) ↔ NamesInstrument element := by
  rw [decodeInstrument, NamesInstrument]
  cases (element.field "instId").getString with
  | none => simp
  | some instId => by_cases nameless : instId = "" <;> simp [nameless]

theorem inTables_decodeInstrument {element : Node} {fetched : FetchedInstrument}
    (decoded : decodeInstrument element = some fetched) :
    fetched.info.InTables ↔
      FewDecimals (element.field "tickSz").string ∧ FewDecimals (element.field "lotSz").string := by
  rw [InstrumentInfo.InTables, ← inTable_countDecimalPlaces_iff, ← inTable_countDecimalPlaces_iff]
  rw [decodeInstrument] at decoded
  split at decoded
  · cases decoded
  · split at decoded
    · cases decoded
    · cases decoded
      rfl

theorem fetched_inTables
    (few : ∀ element ∈ allElements iterate request, NamesInstrument element →
      FewDecimals (element.field "tickSz").string ∧ FewDecimals (element.field "lotSz").string)
    {fetched : FetchedInstrument} (member : fetched ∈ fetchedInstruments iterate request) :
    fetched.info.InTables := by
  obtain ⟨element, visited, decoded⟩ := List.mem_filterMap.mp member
  have named := (decodeInstrument_some_iff element).mp ⟨fetched, decoded⟩
  exact (inTables_decodeInstrument decoded).mpr (few element visited named)

/-- Every precision that is added lies in the table exactly when no step size of
a named instrument has more than twelve decimals. -/
theorem fetched_inTables_iff : (∀ fetched ∈ fetchedInstruments iterate request,
      fetched.info.InTables) ↔
    ∀ element ∈ allElements iterate request, NamesInstrument element →
      FewDecimals (element.field "tickSz").string ∧
        FewDecimals (element.field "lotSz").string := by
  constructor
  · intro inTables element visited named
    obtain ⟨fetched, decoded⟩ := (decodeInstrument_some_iff element).mpr named
    have member := List.mem_filterMap.mpr ⟨element, visited, decoded⟩
    exact (inTables_decodeInstrument decoded).mp (inTables fetched member)
  · intro few fetched member
    exact fetched_inTables few member

theorem thirteen_decimals_added : ¬ ∀ (iterate : List UInt8 → Option Node)
    (request : String → List UInt8), ∀ fetched ∈ fetchedInstruments iterate request,
      fetched.info.InTables := by
  intro claim
  let body := ("\x7b\"code\":\"0\",\"data\":[\x7b\"instId\":\"X-USDT\"," ++
    "\"tickSz\":\"0.0000000000001\",\"lotSz\":\"1\"\x7d]\x7d").toUTF8.toList
  let doc : Node := .object [("code", .text "0"), ("data", .array [.object
    [("instId", .text "X-USDT"), ("tickSz", .text "0.0000000000001"), ("lotSz", .text "1")]])]
  have outside := (claim (fun text => if text = body then some doc else none)
    (fun instType => if instType = "SPOT" then body else []) ⟨"X-USDT", 0, "X-USDT", 13, 0⟩
    (by decide +kernel)).1
  exact absurd outside (by decide)

/-- A registered instrument is one that was fetched, or was there before. -/
theorem fetchAllInstruments_find {tables : InstrumentTables} {name : String}
    {info : InstrumentInfo}
    (found : (fetchAllInstruments iterate request tables).registry.find name = some info) :
    (∃ fetched ∈ fetchedInstruments iterate request, fetched.info = info) ∨
      tables.registry.find name = some info := by
  rw [fetchAllInstruments] at found
  generalize fetchedInstruments iterate request = list at found
  induction list generalizing tables with
  | nil => exact .inr found
  | cons first rest ih =>
      rcases ih found with ⟨fetched, member, same⟩ | before
      · exact .inl ⟨fetched, List.mem_cons_of_mem _ member, same⟩
      · by_cases here : name = first.info.instrument
        · subst here
          rw [InstrumentTables.add, InstrumentRegistry.add, InstrumentRegistry.find,
            Finmap.lookup_insert, Option.some.injEq] at before
          exact .inl ⟨first, List.mem_cons_self, before⟩
        · rw [InstrumentTables.add, InstrumentRegistry.add, InstrumentRegistry.find,
            Finmap.lookup_insert_of_ne _ here] at before
          exact .inr before

/-- With such step sizes the whole registry stays inside the table. -/
theorem fetchAllInstruments_inTables {tables : InstrumentTables}
    (few : ∀ element ∈ allElements iterate request, NamesInstrument element →
      FewDecimals (element.field "tickSz").string ∧ FewDecimals (element.field "lotSz").string)
    (inTables : ∀ name info, tables.registry.find name = some info → info.InTables) :
    ∀ name info, (fetchAllInstruments iterate request tables).registry.find name = some info →
      info.InTables := by
  intro name info found
  rcases fetchAllInstruments_find found with ⟨fetched, member, rfl⟩ | before
  · exact fetched_inTables few member
  · exact inTables name info before

end Fetched

end CryptoTrading
