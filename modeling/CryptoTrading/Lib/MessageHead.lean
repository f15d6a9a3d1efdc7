import CryptoTrading.Lib.TextSearch
import Mathlib.Data.List.TakeWhile

/-! # Heads of messages

A head is a sequence of lines, each with its line end, and an empty line behind
them.  A field is a name, a mark and a value between blanks that do not count.  What
is written without line ends of its own is read back, and nothing else can be. -/
set_option autoImplicit false

namespace MessageHead

open TextSearch

variable {α : Type} [DecidableEq α]

/-! ## Lines -/

def readLines (lineEnd : List α) : ℕ → List α → Option (List (List α) × List α)
  | 0, _ => none
  | fuel + 1, text =>
      match find lineEnd text with
      | none => none
      | some at' =>
          if at' = 0 then some ([], text.drop lineEnd.length)
          else (readLines lineEnd fuel (text.drop (at' + lineEnd.length))).map
            fun read => (text.take at' :: read.1, read.2)

def headText (lineEnd : List α) (lines : List (List α)) : List α :=
  lines.flatMap (· ++ lineEnd) ++ lineEnd

section Lines
variable {lineEnd : List α} {lines : List (List α)} {rest text : List α}

theorem readLines_headText (nonempty : lineEnd ≠ [])
    (clear : ∀ line ∈ lines, line ≠ [] ∧ EndsAtFirst lineEnd line) :
    ∀ fuel, lines.length < fuel →
      readLines lineEnd fuel (headText lineEnd lines ++ rest) = some (lines, rest) := by
  induction lines with
  | nil =>
      intro fuel enough
      obtain ⟨less, rfl⟩ := Nat.exists_eq_add_of_lt enough
      have found := @find_line _ _ lineEnd [] rest nonempty
        (fun before after split remains => absurd (List.append_eq_nil_iff.mp split.symm).2 remains)
      rw [List.nil_append] at found
      rw [headText, List.flatMap_nil, List.nil_append, readLines, found]
      simp
  | cons line others ih =>
      intro fuel enough
      obtain ⟨less, rfl⟩ := Nat.exists_eq_add_of_lt enough
      obtain ⟨lineNonempty, ends⟩ := clear line List.mem_cons_self
      have later := ih (fun other member => clear other (List.mem_cons_of_mem _ member))
        ((line :: others).length + less) (by rw [List.length_cons]; omega)
      have text : headText lineEnd (line :: others) ++ rest =
          line ++ lineEnd ++ (headText lineEnd others ++ rest) := by
        simp only [headText, List.flatMap_cons, List.append_assoc]
      have positive := List.length_pos_of_ne_nil lineNonempty
      rw [text, readLines, find_line nonempty ends]
      dsimp only
      rw [if_neg (by omega), List.drop_left' (by rw [List.length_append]), later,
        List.append_assoc, List.take_left]
      rfl

theorem clear_of_readLines (nonempty : lineEnd ≠ []) : ∀ (fuel : ℕ) {text : List α}
    {lines : List (List α)} {rest : List α}, readLines lineEnd fuel text = some (lines, rest) →
      ∀ line ∈ lines, ¬ lineEnd <:+: line := by
  intro fuel
  induction fuel with
  | zero =>
      intro text lines rest ran
      cases ran
  | succ fuel ih =>
      intro text lines rest ran line member
      rw [readLines] at ran
      cases found : find lineEnd text with
      | none =>
          rw [found] at ran
          cases ran
      | some at' =>
          rw [found] at ran
          dsimp only at ran
          split at ran
          · cases ran
            cases member
          · obtain ⟨⟨others, behind⟩, later, same⟩ := Option.map_eq_some_iff.mp ran
            cases same
            rcases List.mem_cons.mp member with rfl | inOthers
            · intro inside
              have positive := List.length_pos_of_ne_nil nonempty
              have missed := @find_take _ _ lineEnd text nonempty at'
              rw [found, Option.filter, if_neg (by simp; omega)] at missed
              obtain ⟨position, here⟩ := find_of_infix nonempty inside
              rw [missed] at here
              cases here
            · exact ih later line inOthers

end Lines

/-! ## Fields -/

def trim (blank : α → Bool) (text : List α) : List α :=
  ((text.dropWhile blank).reverse.dropWhile blank).reverse

def readField (mark : α) (blank : α → Bool) (line : List α) : Option (List α × List α) :=
  if mark ∈ line then
    some (line.takeWhile (· ≠ mark), trim blank (line.dropWhile (· ≠ mark)).tail)
  else none

/-- A value that comes through: it contains no line end, and no blank stands at
either end of it. -/
structure Clean (lineEnd : List α) (blank : α → Bool) (value : List α) : Prop where
  noLineEnd : ¬ lineEnd <:+: value
  noBlankFront : ∀ item ∈ value.head?, blank item = false
  noBlankBack : ∀ item ∈ value.getLast?, blank item = false

section Fields
variable {mark : α} {blank : α → Bool} {name value lineEnd line : List α}

omit [DecidableEq α] in
theorem dropWhile_eq_self_iff : value.dropWhile blank = value ↔
    ∀ item ∈ value.head?, blank item = false := by
  cases value with
  | nil => simp
  | cons first rest =>
      rw [List.dropWhile_cons]
      split
      · next isBlank =>
          constructor
          · intro same
            have shorter := List.length_dropWhile_le blank rest
            rw [same, List.length_cons] at shorter
            omega
          · intro notBlank
            have clear := notBlank first rfl
            rw [isBlank] at clear
            cases clear
      · next notBlank => simpa using notBlank

omit [DecidableEq α] in
theorem trim_eq_self (front : ∀ item ∈ value.head?, blank item = false)
    (back : ∀ item ∈ value.getLast?, blank item = false) : trim blank value = value := by
  rw [trim, dropWhile_eq_self_iff.mpr front, dropWhile_eq_self_iff.mpr, List.reverse_reverse]
  rwa [List.head?_reverse]

omit [DecidableEq α] in
theorem trim_blank_cons {item : α} (isBlank : blank item = true) (value : List α) :
    trim blank (item :: value) = trim blank value := by
  rw [trim, trim, List.dropWhile_cons_of_pos isBlank]

omit [DecidableEq α] in
theorem ends_of_trim : (∀ item ∈ (trim blank value).head?, blank item = false) ∧
    ∀ item ∈ (trim blank value).getLast?, blank item = false := by
  have clears : ∀ text : List α, ∀ item ∈ (text.dropWhile blank).head?, blank item = false := by
    intro text item first
    have stops := List.head?_dropWhile_not blank text
    rw [Option.mem_def.mp first] at stops
    simpa using stops
  constructor
  · intro item first
    rw [trim, List.head?_reverse] at first
    -- the last item that is kept from behind is the first one from the front
    have suffix' := List.dropWhile_suffix blank (l := (value.dropWhile blank).reverse)
    obtain ⟨dropped, whole⟩ := suffix'
    have kept := congrArg List.getLast? whole
    rw [List.getLast?_append, first, Option.some_or, List.getLast?_reverse] at kept
    exact clears value item kept.symm
  · intro item last
    rw [trim, List.getLast?_reverse] at last
    exact clears _ item last

theorem readField_written {space : α} (isBlank : blank space = true) (noMark : mark ∉ name)
    (front : ∀ item ∈ value.head?, blank item = false)
    (back : ∀ item ∈ value.getLast?, blank item = false) :
    readField mark blank (name ++ mark :: space :: value) = some (name, value) := by
  have passes : ∀ item ∈ name, decide (item ≠ mark) = true := by
    intro item member
    exact decide_eq_true fun same => noMark (same ▸ member)
  rw [readField, if_pos (by simp), List.takeWhile_append_of_pos passes,
    List.dropWhile_append_of_pos passes, List.takeWhile_cons_of_neg (by simp),
    List.dropWhile_cons_of_neg (by simp), List.append_nil, List.tail_cons, trim_blank_cons isBlank,
    trim_eq_self front back]

theorem clean_of_readField (clear : ¬ lineEnd <:+: line)
    (read : readField mark blank line = some (name, value)) : Clean lineEnd blank value := by
  rw [readField] at read
  split at read
  · cases read
    refine ⟨fun inside => clear (inside.trans ?_), ends_of_trim.1, ends_of_trim.2⟩
    have inner : trim blank (line.dropWhile (· ≠ mark)).tail <:+:
        (line.dropWhile (· ≠ mark)).tail := by
      rw [trim]
      have back := (List.dropWhile_suffix blank
        (l := ((line.dropWhile (· ≠ mark)).tail.dropWhile blank).reverse))
      have front := List.dropWhile_suffix blank (l := (line.dropWhile (· ≠ mark)).tail)
      rw [← List.reverse_prefix, List.reverse_reverse] at back
      exact back.isInfix.trans front.isInfix
    exact inner.trans ((List.tail_suffix _).trans (List.dropWhile_suffix _)).isInfix
  · cases read

end Fields

end MessageHead
