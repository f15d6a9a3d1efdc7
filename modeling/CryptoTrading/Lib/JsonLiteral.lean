import CryptoTrading.Lib.QuotedText
import Mathlib.Tactic.Common

/-! # String literals of JSON

What stands between two quotes, decoded: a backslash starts an escape, control
characters are not allowed.  A text that needs no escape decodes to itself.  A
text that is put between quotes as it is, although it needs one, does not come
back: the literal fails, or decodes to something else, or goes on behind the
quote that was meant to end it. -/
set_option autoImplicit false

namespace JsonLiteral

open QuotedText

/-! ## Escapes -/

def hexDigit (char : Char) : Option ℕ :=
  if '0' ≤ char ∧ char ≤ '9' then some (char.toNat - 48)
  else if 'A' ≤ char ∧ char ≤ 'F' then some (char.toNat - 55)
  else if 'a' ≤ char ∧ char ≤ 'f' then some (char.toNat - 87)
  else none

def hexUnit : List Char → Option (ℕ × List Char)
  | first :: second :: third :: fourth :: rest => do
      let first ← hexDigit first
      let second ← hexDigit second
      let third ← hexDigit third
      let fourth ← hexDigit fourth
      some (((first * 16 + second) * 16 + third) * 16 + fourth, rest)
  | _ => none

def lowSurrogate : List Char → Option (ℕ × List Char)
  | back :: mark :: rest =>
      if back = '\\' ∧ mark = 'u' then
        (hexUnit rest).filter fun unit => 0xDC00 ≤ unit.1 ∧ unit.1 < 0xE000
      else none
  | _ => none

/-- One code unit or a pair of surrogates; half a pair is an error. -/
def unicode (chars : List Char) : Option (Char × List Char) := do
  let (unit, rest) ← hexUnit chars
  if 0xD800 ≤ unit ∧ unit < 0xDC00 then
    let (low, rest) ← lowSurrogate rest
    some (Char.ofNat (0x10000 + (unit - 0xD800) * 0x400 + (low - 0xDC00)), rest)
  else if 0xDC00 ≤ unit ∧ unit < 0xE000 then none
  else some (Char.ofNat unit, rest)

def shortEscapes : List (Char × Char) :=
  [('"', '"'), ('\\', '\\'), ('/', '/'), ('b', '\x08'), ('f', '\x0c'), ('n', '\n'),
    ('r', '\r'), ('t', '\t')]

def escape : List Char → Option (Char × List Char)
  | [] => none
  | mark :: rest =>
      if mark = 'u' then unicode rest else (shortEscapes.lookup mark).map fun char => (char, rest)

/-! ## Literals -/

def scan : ℕ → List Char → Option (List Char × List Char)
  | 0, _ => none
  | _ + 1, [] => none
  | fuel + 1, char :: rest =>
      if char = '"' then some ([], rest)
      else if char = '\\' then do
        let (decoded, rest) ← escape rest
        let (others, rest) ← scan fuel rest
        some (decoded :: others, rest)
      else if char < ' ' then none
      else do
        let (others, rest) ← scan fuel rest
        some (char :: others, rest)

def literal (chars : List Char) : Option (List Char × List Char) := scan chars.length chars

/-- No quote, backslash or control character. -/
def Plain (chars : List Char) : Prop := ∀ char ∈ chars, char ≠ '"' ∧ char ≠ '\\' ∧ ¬ char < ' '

instance (chars : List Char) : Decidable (Plain chars) := List.decidableBAll _ chars

@[simp] theorem plain_nil : Plain [] := fun _ member => absurd member List.not_mem_nil

@[simp] theorem plain_cons {char : Char} {rest : List Char} :
    Plain (char :: rest) ↔ (char ≠ '"' ∧ char ≠ '\\' ∧ ¬ char < ' ') ∧ Plain rest :=
  List.forall_mem_cons

@[simp] theorem plain_append {before after : List Char} :
    Plain (before ++ after) ↔ Plain before ∧ Plain after := List.forall_mem_append

theorem scan_plain {word : List Char} (plain : Plain word) {fuel : ℕ} {rest : List Char}
    (enough : word.length < fuel) : scan fuel (word ++ '"' :: rest) = some (word, rest) := by
  induction word generalizing fuel with
  | nil =>
      obtain ⟨fuel, rfl⟩ := Nat.exists_eq_add_of_lt enough
      rfl
  | cons char others ih =>
      obtain ⟨fuel, rfl⟩ := Nat.exists_eq_succ_of_ne_zero (Nat.ne_zero_of_lt enough)
      obtain ⟨⟨noQuote, noEscape, noControl⟩, plainOthers⟩ := plain_cons.mp plain
      have onward := @ih plainOthers fuel (Nat.lt_of_succ_lt_succ enough)
      rw [List.cons_append, scan, if_neg noQuote, if_neg noEscape, if_neg noControl, onward]
      rfl

theorem literal_plain {word : List Char} (plain : Plain word) (rest : List Char) :
    literal (word ++ '"' :: rest) = some (word, rest) :=
  scan_plain plain (by rw [List.length_append, List.length_cons]; omega)

/-! ## What an escape takes up -/

theorem hexDigit_plain {char : Char} {digit : ℕ} (found : hexDigit char = some digit) :
    char ≠ '"' ∧ char ≠ '\\' := by
  constructor
  · rintro rfl
    cases found
  · rintro rfl
    cases found

theorem hexUnit_some {chars rest : List Char} {unit : ℕ}
    (found : hexUnit chars = some (unit, rest)) : ∃ used, chars = used ++ rest ∧ Escaped used := by
  match chars with
  | first :: second :: third :: fourth :: others =>
      simp only [hexUnit, Option.bind_eq_bind, Option.bind_eq_some_iff] at found
      obtain ⟨_, one, _, two, _, three, _, four, same⟩ := found
      obtain ⟨-, rfl⟩ := Prod.mk.inj (Option.some.inj same)
      refine ⟨[first, second, third, fourth], rfl, ?_⟩
      have escaped : Escaped [fourth] :=
        .plain (hexDigit_plain four).1 (hexDigit_plain four).2 .nil
      exact .plain (hexDigit_plain one).1 (hexDigit_plain one).2
        (.plain (hexDigit_plain two).1 (hexDigit_plain two).2
          (.plain (hexDigit_plain three).1 (hexDigit_plain three).2 escaped))
  | [] | [_] | [_, _] | [_, _, _] => cases found

theorem escaped_append {before after : List Char} (first : Escaped before)
    (second : Escaped after) : Escaped (before ++ after) := by
  induction first with
  | nil => exact second
  | plain noQuote noEscape _ ih => exact .plain noQuote noEscape ih
  | escape _ ih => exact .escape ih

theorem lowSurrogate_some {chars rest : List Char} {unit : ℕ}
    (found : lowSurrogate chars = some (unit, rest)) :
    ∃ used, chars = used ++ rest ∧ Escaped used := by
  match chars with
  | back :: mark :: others =>
      rw [lowSurrogate] at found
      split at found
      · next marks =>
          obtain ⟨used, rfl, escaped⟩ := hexUnit_some (Option.filter_eq_some_iff.mp found).1
          exact ⟨back :: mark :: used, rfl, marks.1 ▸ .escape escaped⟩
      · cases found
  | [] | [_] => cases found

theorem unicode_some {chars rest : List Char} {char : Char}
    (found : unicode chars = some (char, rest)) : ∃ used, chars = used ++ rest ∧ Escaped used := by
  rw [unicode, Option.bind_eq_bind, Option.bind_eq_some_iff] at found
  obtain ⟨⟨unit, later⟩, first, found⟩ := found
  obtain ⟨used, rfl, escaped⟩ := hexUnit_some first
  dsimp only at found
  split at found
  · rw [Option.bind_eq_some_iff] at found
    obtain ⟨⟨low, last⟩, second, same⟩ := found
    obtain ⟨more, rfl, escapedMore⟩ := lowSurrogate_some second
    obtain ⟨-, rfl⟩ := Prod.mk.inj (Option.some.inj same)
    exact ⟨used ++ more, (List.append_assoc _ _ _).symm, escaped_append escaped escapedMore⟩
  · split at found
    · cases found
    · obtain ⟨-, rfl⟩ := Prod.mk.inj (Option.some.inj found)
      exact ⟨used, rfl, escaped⟩

theorem escape_some {chars rest : List Char} {char : Char}
    (found : escape chars = some (char, rest)) :
    ∃ mark used, chars = mark :: (used ++ rest) ∧ Escaped used := by
  cases chars with
  | nil => cases found
  | cons mark others =>
      rw [escape] at found
      split at found
      · obtain ⟨used, rfl, escaped⟩ := unicode_some found
        exact ⟨mark, used, rfl, escaped⟩
      · obtain ⟨decoded, -, same⟩ := Option.map_eq_some_iff.mp found
        obtain ⟨-, rfl⟩ := Prod.mk.inj same
        exact ⟨mark, [], rfl, .nil⟩

/-! ## Texts that were not escaped -/

/-- How a literal is taken up, character by character. -/
inductive Scanned (rest : List Char) : List Char → List Char → Prop
  | quote : Scanned rest ('"' :: rest) []
  | escape {mark decoded : Char} {used later others : List Char} (escaped : Escaped used)
      (scanned : Scanned rest later others) :
      Scanned rest ('\\' :: mark :: (used ++ later)) (decoded :: others)
  | plain {char : Char} {later others : List Char} (noQuote : char ≠ '"')
      (noEscape : char ≠ '\\') (noControl : ¬ char < ' ') (scanned : Scanned rest later others) :
      Scanned rest (char :: later) (char :: others)

section Scan
variable {chars decoded rest : List Char}

theorem scanned_of_scan {fuel : ℕ} (found : scan fuel chars = some (decoded, rest)) :
    Scanned rest chars decoded := by
  induction fuel generalizing chars decoded with
  | zero => cases found
  | succ fuel ih =>
      cases chars with
      | nil => cases found
      | cons char others =>
          rw [scan] at found
          split at found
          · next quote =>
              obtain ⟨rfl, rfl⟩ := Prod.mk.inj (Option.some.inj found)
              rw [quote]
              exact .quote
          · next noQuote =>
              split at found
              · next back =>
                  simp only [Option.bind_eq_bind, Option.bind_eq_some_iff] at found
                  obtain ⟨⟨_, later⟩, escaped, ⟨_, last⟩, scanned, same⟩ := found
                  obtain ⟨rfl, rfl⟩ := Prod.mk.inj (Option.some.inj same)
                  obtain ⟨mark, used, rfl, escapedUsed⟩ := escape_some escaped
                  rw [back]
                  exact .escape escapedUsed (ih scanned)
              · next noEscape =>
                  split at found
                  · cases found
                  · next noControl =>
                      simp only [Option.bind_eq_bind, Option.bind_eq_some_iff] at found
                      obtain ⟨⟨_, last⟩, scanned, same⟩ := found
                      obtain ⟨rfl, rfl⟩ := Prod.mk.inj (Option.some.inj same)
                      exact .plain noQuote noEscape noControl (ih scanned)

theorem Scanned.raw (scanned : Scanned rest chars decoded) :
    ∃ raw, chars = raw ++ '"' :: rest ∧ Escaped raw := by
  induction scanned with
  | quote => exact ⟨[], rfl, .nil⟩
  | @escape mark _ used _ _ escaped _ ih =>
      obtain ⟨raw, rfl, escapedRaw⟩ := ih
      refine ⟨'\\' :: mark :: (used ++ raw), ?_, .escape (escaped_append escaped escapedRaw)⟩
      simp
  | @plain char _ _ noQuote noEscape _ _ ih =>
      obtain ⟨raw, rfl, escapedRaw⟩ := ih
      exact ⟨char :: raw, rfl, .plain noQuote noEscape escapedRaw⟩

theorem Scanned.longer (scanned : Scanned rest chars decoded) :
    (Plain decoded ∧ chars = decoded ++ '"' :: rest) ∨
      decoded.length + rest.length + 2 ≤ chars.length := by
  induction scanned with
  | quote => exact .inl ⟨plain_nil, rfl⟩
  | escape _ _ ih =>
      right
      rcases ih with ⟨-, rfl⟩ | longer
      · simp only [List.length_cons, List.length_append]
        omega
      · simp only [List.length_cons, List.length_append]
        omega
  | plain noQuote noEscape noControl _ ih =>
      rcases ih with ⟨plain, rfl⟩ | longer
      · exact .inl ⟨plain_cons.mpr ⟨⟨noQuote, noEscape, noControl⟩, plain⟩, rfl⟩
      · right
        simp only [List.length_cons]
        omega

end Scan

/-- Behind a quote that does not end an escaped text it goes on as one. -/
theorem escaped_after_quote {chars before after : List Char} (escaped : Escaped chars)
    (split : chars = before ++ '"' :: after) : Escaped after := by
  induction escaped generalizing before with
  | nil => exact absurd split.symm (by simp)
  | plain noQuote _ _ ih =>
      cases before with
      | nil => exact absurd (List.cons.inj split).1 noQuote
      | cons _ before => exact ih (List.cons.inj split).2
  | escape escapedRest ih =>
      rcases before with _ | ⟨_, _ | ⟨_, before⟩⟩
      · simp at split
      · obtain ⟨-, rfl⟩ := List.cons.inj (List.cons.inj split).2
        exact escapedRest
      · exact ih (List.cons.inj (List.cons.inj split).2).2

/-- A text between quotes that is decoded to itself needed no escape, or the
literal ends at the next quote only. -/
theorem literal_decoded_itself {word rest behind : List Char} {next : Char}
    (found : literal (word ++ '"' :: ',' :: '"' :: next :: behind) = some (word, rest)) :
    Plain word ∨ rest = next :: behind := by
  have scanned := scanned_of_scan found
  rcases scanned.longer with ⟨plain, -⟩ | longer
  · exact .inl plain
  · right
    obtain ⟨raw, shape, escaped⟩ := scanned.raw
    have lengths := congrArg List.length shape
    simp only [List.length_append, List.length_cons] at lengths longer
    rcases List.append_eq_append_iff.mp shape with ⟨more, split, tails⟩ | ⟨more, split, tails⟩
    · cases more with
      | nil =>
          have short := congrArg List.length split
          simp only [List.append_nil] at short
          omega
      | cons quote more =>
          obtain ⟨rfl, behindQuote⟩ := List.cons.inj tails
          have escapedMore := escaped_after_quote escaped split
          rcases more with _ | ⟨comma, _ | ⟨_, _⟩⟩
          · simp at behindQuote
          · exact (List.cons.inj (List.cons.inj behindQuote).2).2.symm
          · obtain ⟨rfl, behindComma⟩ := List.cons.inj behindQuote
            obtain ⟨rfl, -⟩ := List.cons.inj behindComma
            cases escapedMore with
            | plain _ _ escapedQuote =>
                cases escapedQuote with
                | plain noQuote _ _ => exact absurd rfl noQuote
    · have short := congrArg List.length split
      simp only [List.length_append] at short
      omega

/-- With no other quote behind it, a text between quotes that is decoded to itself
needed no escape. -/
theorem plain_of_literal_last {word rest behind : List Char} (noQuote : '"' ∉ behind)
    (found : literal (word ++ '"' :: behind) = some (word, rest)) : Plain word := by
  have scanned := scanned_of_scan found
  rcases scanned.longer with ⟨plain, -⟩ | longer
  · exact plain
  · obtain ⟨raw, shape, -⟩ := scanned.raw
    have lengths := congrArg List.length shape
    simp only [List.length_append, List.length_cons] at lengths longer
    -- the quote that ends the literal would stand behind the last one
    rcases List.append_eq_append_iff.mp shape with ⟨more, split, tails⟩ | ⟨more, split, -⟩
    · cases more with
      | nil =>
          have short := congrArg List.length split
          simp only [List.append_nil] at short
          omega
      | cons quote more =>
          obtain ⟨-, inBehind⟩ := List.cons.inj tails
          exact absurd (by rw [inBehind]; simp) noQuote
    · have short := congrArg List.length split
      simp only [List.length_append] at short
      omega

end JsonLiteral
