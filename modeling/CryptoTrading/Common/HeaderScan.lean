import CryptoTrading.Common.Https
import Mathlib.Data.List.TakeWhile

/-! # Recognising chunked responses

The scan of the header block looks for two words anywhere in a line.  Header
names and codings may be written in any letter case, and the two words may stand
in a line that announces nothing, so it errs both ways. -/
set_option autoImplicit false

namespace CryptoTrading

namespace Https

open TextSearch

/-! ## Header blocks -/

structure HeaderBlock where
  statusLine : List UInt8
  fields : List (List UInt8)
  statusClear : ¬ crlf <:+: statusLine
  fieldsClear : ∀ field ∈ fields, ¬ crlf <:+: field

def fieldBytes (fields : List (List UInt8)) : List UInt8 := fields.flatMap (crlf ++ ·)

def HeaderBlock.bytes (block : HeaderBlock) : List UInt8 :=
  block.statusLine ++ fieldBytes block.fields

/-! ## What a field says -/

def lower (byte : UInt8) : UInt8 := if 0x41 ≤ byte ∧ byte ≤ 0x5A then byte + 0x20 else byte

def SameWord (text : List UInt8) (word : String) : Prop :=
  text.map lower = (ascii word).map lower

instance (text : List UInt8) (word : String) : Decidable (SameWord text word) :=
  inferInstanceAs (Decidable (_ = _))

def isBlank (byte : UInt8) : Bool := byte = 0x20 ∨ byte = 0x09

/-- The codings of a value, without the blanks around them; empty ones do not
count. -/
def codings (value : List UInt8) : List (List UInt8) :=
  ((value.splitOn 0x2C).map fun coding =>
    ((coding.dropWhile isBlank).reverse.dropWhile isBlank).reverse).filter (· ≠ [])

/-- A field with the name Transfer-Encoding whose last coding is chunked. -/
def SaysChunked (field : List UInt8) : Prop :=
  0x3A ∈ field ∧ SameWord (field.takeWhile (· ≠ 0x3A)) "Transfer-Encoding" ∧
    ∃ coding ∈ (codings (field.dropWhile (· ≠ 0x3A)).tail).getLast?, SameWord coding "chunked"

/-- The field is spelled as the scan looks for it. -/
def Spelled (field : List UInt8) : Prop :=
  (field.takeWhile (· ≠ 0x3A) = ascii "Transfer-Encoding" ∨
    Has (field.dropWhile (· ≠ 0x3A)).tail "Transfer-Encoding") ∧
  Has (field.dropWhile (· ≠ 0x3A)).tail "chunked"

/-- The line contains both words but does not say that the body is chunked. -/
def Misleading (line : List UInt8) : Prop := NamesChunked line ∧ ¬ SaysChunked line

/-! ## The scan -/

section Scan
variable {before line field : List UInt8} {fields : List (List UInt8)}

theorem findFrom_fieldBytes (clear : ¬ crlf <:+: line) :
    findFrom crlf (before ++ (line ++ fieldBytes fields)) before.length =
      if fields = [] then none else some (before.length + line.length) := by
  cases fields with
  | nil =>
      rw [if_pos rfl, findFrom, List.drop_left, fieldBytes, List.flatMap_nil, List.append_nil,
        find_eq_none clear]
      rfl
  | cons first rest =>
      rw [if_neg (List.cons_ne_nil _ _)]
      have found := @findFrom_line _ _ crlf line (first ++ fieldBytes rest) before (by decide)
        (endsAtFirst_pair (by decide) clear)
      rw [fieldBytes, List.flatMap_cons]
      rw [fieldBytes] at found
      simpa only [List.append_assoc] using found

theorem line_eq_field (clear : ¬ crlf <:+: field) :
    ((before ++ (field ++ fieldBytes fields)).drop before.length).take
        ((findFrom crlf (before ++ (field ++ fieldBytes fields)) before.length).getD
          (before ++ (field ++ fieldBytes fields)).length - before.length) = field := by
  rw [findFrom_fieldBytes clear, List.drop_left]
  cases fields with
  | nil =>
      rw [if_pos rfl, Option.getD_none, fieldBytes, List.flatMap_nil, List.append_nil,
        List.length_append, Nat.add_sub_cancel_left, List.take_length]
  | cons first rest =>
      rw [if_neg (List.cons_ne_nil _ _), Option.getD_some, Nat.add_sub_cancel_left,
        List.take_left]

theorem scanLines_iff (turns : ℕ) : ∀ {before line : List UInt8} {fields : List (List UInt8)},
    ¬ crlf <:+: line → (∀ field ∈ fields, ¬ crlf <:+: field) → fields.length < turns →
    (scanLines (before ++ (line ++ fieldBytes fields)) turns before.length = true ↔
      ∃ field ∈ fields, NamesChunked field) := by
  induction turns with
  | zero =>
      intro before line fields _ _ impossible
      exact absurd impossible (Nat.not_lt_zero _)
  | succ turns ih =>
      intro before line fields clear fieldsClear enough
      rw [scanLines, findFrom_fieldBytes clear]
      cases fields with
      | nil => simp
      | cons first rest =>
          have firstClear := fieldsClear first List.mem_cons_self
          have text : before ++ (line ++ fieldBytes (first :: rest)) =
              (before ++ line ++ crlf) ++ (first ++ fieldBytes rest) := by
            rw [fieldBytes, fieldBytes, List.flatMap_cons]
            simp only [List.append_assoc]
          have start : before.length + line.length + 2 = (before ++ line ++ crlf).length := by
            simp [crlf, Nat.add_assoc]
          rw [if_neg (List.cons_ne_nil _ _)]
          dsimp only
          rw [text, start, line_eq_field firstClear, List.exists_mem_cons_iff]
          have onward := @ih (before ++ line ++ crlf) first rest firstClear
            (fun field member => fieldsClear field (List.mem_cons_of_mem _ member))
            (Nat.lt_of_succ_lt_succ enough)
          split
          · next here => simp [here]
          · next notHere => rw [onward, or_iff_right notHere]

theorem length_fieldBytes_ge (fields : List (List UInt8)) :
    fields.length ≤ (fieldBytes fields).length := by
  induction fields with
  | nil => exact Nat.le_refl _
  | cons field rest ih =>
      rw [fieldBytes, List.flatMap_cons, List.length_append, List.length_append, List.length_cons]
      rw [fieldBytes] at ih
      have two : crlf.length = 2 := rfl
      omega

/-- Chunks are decoded when some field contains both words. -/
theorem isChunked_iff (block : HeaderBlock) :
    isChunked block.bytes = true ↔ ∃ field ∈ block.fields, NamesChunked field := by
  have enough : block.fields.length < block.bytes.length + 1 := by
    have atLeast := length_fieldBytes_ge block.fields
    rw [HeaderBlock.bytes, List.length_append]
    omega
  exact @scanLines_iff _ [] block.statusLine block.fields block.statusClear block.fieldsClear
    enough

theorem field_split (colon : 0x3A ∈ field) :
    field = field.takeWhile (· ≠ 0x3A) ++ 0x3A :: (field.dropWhile (· ≠ 0x3A)).tail := by
  have split := @List.takeWhile_append_dropWhile _ (fun byte : UInt8 => decide (byte ≠ 0x3A)) field
  cases behind : field.dropWhile (· ≠ 0x3A) with
  | nil =>
      rw [behind, List.append_nil] at split
      rw [← split] at colon
      have passes := List.mem_takeWhile_imp colon
      simp at passes
  | cons first rest =>
      have stops := List.head?_dropWhile_not (fun byte : UInt8 => decide (byte ≠ 0x3A)) field
      rw [behind, List.head?_cons] at stops
      have isColon : first = 0x3A := by simpa using stops
      rw [behind, isColon] at split
      exact split.symm

theorem namesChunked_iff_spelled (said : SaysChunked field) :
    NamesChunked field ↔ Spelled field := by
  obtain ⟨colon, sameName, -⟩ := said
  have split := field_split colon
  rw [Spelled]
  generalize field.takeWhile (· ≠ 0x3A) = name at sameName split
  generalize (field.dropWhile (· ≠ 0x3A)).tail = value at split
  subst split
  have length : name.length = (ascii "Transfer-Encoding").length := by
    have lengths := congrArg List.length sameName
    rwa [List.length_map, List.length_map] at lengths
  have exactName : Has name "Transfer-Encoding" ↔ name = ascii "Transfer-Encoding" := by
    constructor
    · intro here
      exact (here.eq_of_length length.symm).symm
    · rintro rfl
      exact List.infix_rfl
  have noCoding : ¬ Has name "chunked" := by
    intro here
    have lowered : (ascii "chunked").map lower <:+: name.map lower := here.map lower
    rw [sameName] at lowered
    exact absurd lowered (by decide +kernel)
  rw [NamesChunked, Has, Has, infix_mark_iff (by decide) (by decide),
    infix_mark_iff (by decide) (by decide)]
  exact and_congr (or_congr_left exactName) (or_iff_right noCoding)

theorem namesChunked_iff (line : List UInt8) :
    NamesChunked line ↔ SaysChunked line ∧ Spelled line ∨ Misleading line := by
  by_cases said : SaysChunked line
  · simp [namesChunked_iff_spelled said, said, Misleading]
  · simp [said, Misleading]

/-- The decision is right exactly when a block with a field that says chunked has
one that is spelled for the scan, or a misleading line, and a block with a
misleading line has a field that says chunked. -/
theorem isChunked_exact_iff (block : HeaderBlock) :
    (isChunked block.bytes = true ↔ ∃ field ∈ block.fields, SaysChunked field) ↔
      ((∃ field ∈ block.fields, SaysChunked field) →
        ∃ line ∈ block.fields, SaysChunked line ∧ Spelled line ∨ Misleading line) ∧
      ((∃ line ∈ block.fields, Misleading line) → ∃ field ∈ block.fields, SaysChunked field) := by
  rw [isChunked_iff]
  constructor
  · intro exact
    refine ⟨fun said => ?_, fun ⟨line, member, misleads⟩ => ?_⟩
    · obtain ⟨line, member, names⟩ := exact.mpr said
      exact ⟨line, member, (namesChunked_iff line).mp names⟩
    · exact exact.mp ⟨line, member, misleads.1⟩
  · rintro ⟨found, announced⟩
    constructor
    · rintro ⟨line, member, names⟩
      rcases (namesChunked_iff line).mp names with ⟨said, -⟩ | misleads
      · exact ⟨line, member, said⟩
      · exact announced ⟨line, member, misleads⟩
    · intro said
      obtain ⟨line, member, names⟩ := found said
      exact ⟨line, member, (namesChunked_iff line).mpr names⟩

theorem lower_case_name_missed : ¬ ∀ block : HeaderBlock,
    (isChunked block.bytes = true ↔ ∃ field ∈ block.fields, SaysChunked field) := by
  intro claim
  have exact := claim
    { statusLine := ascii "HTTP/1.1 200 OK", fields := [ascii "transfer-encoding: chunked"]
      statusClear := by decide +kernel, fieldsClear := by decide +kernel }
  have said : SaysChunked (ascii "transfer-encoding: chunked") :=
    ⟨by decide, by decide +kernel, ascii "chunked", by decide +kernel, by decide⟩
  have found := exact.mpr ⟨_, List.mem_singleton_self _, said⟩
  exact absurd found (by decide +kernel)

end Scan

end Https

end CryptoTrading
