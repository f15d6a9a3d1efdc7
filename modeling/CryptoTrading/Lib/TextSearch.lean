import Mathlib.Data.List.Infix

/-! # Searching for a text

The position of the first occurrence of a non-empty text, from a position on, as
`find` of a string gives it.  A text that ends at the first occurrence of a
separator is found back when the separator starts nowhere before. -/
set_option autoImplicit false

namespace TextSearch

variable {α : Type} [DecidableEq α]

def find (needle : List α) : List α → Option ℕ
  | [] => none
  | item :: rest => if needle <+: item :: rest then some 0 else (find needle rest).map (· + 1)

def findFrom (needle text : List α) (pos : ℕ) : Option ℕ :=
  (find needle (text.drop pos)).map (pos + ·)

/-- Before the needle itself no other occurrence starts. -/
def EndsAtFirst (needle line : List α) : Prop :=
  ∀ before after, line = before ++ after → after ≠ [] → ¬ needle <+: after ++ needle

section Search
variable {needle text line rest : List α}

theorem find_some {at' : ℕ} (found : find needle text = some at') :
    ∃ after, text.drop at' = needle ++ after ∧ at' < text.length := by
  induction text generalizing at' with
  | nil => cases found
  | cons item rest ih =>
      rw [find] at found
      split at found
      · next here =>
          cases found
          obtain ⟨after, same⟩ := here
          exact ⟨after, same.symm, Nat.zero_lt_succ _⟩
      · obtain ⟨later, foundLater, rfl⟩ := Option.map_eq_some_iff.mp found
        obtain ⟨after, same, below⟩ := ih foundLater
        exact ⟨after, same, Nat.succ_lt_succ below⟩

theorem find_eq_none (absent : ¬ needle <:+: text) : find needle text = none := by
  cases found : find needle text with
  | none => rfl
  | some at' =>
      obtain ⟨after, same, -⟩ := find_some found
      refine absurd ⟨text.take at', after, ?_⟩ absent
      rw [List.append_assoc, ← same, List.take_append_drop]

theorem find_of_infix (nonempty : needle ≠ []) (inside : needle <:+: text) :
    ∃ at', find needle text = some at' := by
  induction text with
  | nil => exact absurd (List.infix_nil.mp inside) nonempty
  | cons item rest ih =>
      rw [find]
      by_cases here : needle <+: item :: rest
      · exact ⟨0, if_pos here⟩
      · obtain ⟨later, found⟩ := ih ((List.infix_cons_iff.mp inside).resolve_left here)
        exact ⟨later + 1, by rw [if_neg here, found]; rfl⟩

omit [DecidableEq α] in
/-- A separator of two different items cannot start inside a line without it. -/
theorem endsAtFirst_pair {first second : α} (distinct : first ≠ second)
    (absent : ¬ [first, second] <:+: line) : EndsAtFirst [first, second] line := by
  intro before after split nonempty here
  obtain ⟨rest, same⟩ := here
  rcases after with _ | ⟨one, _ | ⟨two, others⟩⟩
  · exact nonempty rfl
  · obtain ⟨rfl, tails⟩ := List.cons.inj same
    exact distinct (List.cons.inj tails).1.symm
  · obtain ⟨rfl, tails⟩ := List.cons.inj same
    obtain ⟨rfl, -⟩ := List.cons.inj tails
    exact absent ⟨before, others, by rw [split]; simp⟩

theorem find_line (nonempty : needle ≠ []) (ends : EndsAtFirst needle line) :
    find needle (line ++ needle ++ rest) = some line.length := by
  induction line with
  | nil =>
      rw [List.nil_append]
      cases needle with
      | nil => exact absurd rfl nonempty
      | cons item others => exact if_pos (List.prefix_append _ _)
  | cons item others ih =>
      have notHere : ¬ needle <+: item :: (others ++ needle ++ rest) := by
        intro here
        have first := ends [] (item :: others) rfl (List.cons_ne_nil _ _)
        have shorter : needle.length ≤ (item :: others ++ needle).length := by
          rw [List.length_append]
          omega
        exact first (List.prefix_of_prefix_length_le here (List.prefix_append _ rest) shorter)
      have endsLater : EndsAtFirst needle others := by
        intro before after split
        exact ends (item :: before) after (by rw [split]; rfl)
      rw [List.cons_append, List.cons_append, find, if_neg notHere, ih endsLater]
      rfl

theorem findFrom_line {before : List α} (nonempty : needle ≠ []) (ends : EndsAtFirst needle line) :
    findFrom needle (before ++ (line ++ needle ++ rest)) before.length =
      some (before.length + line.length) := by
  rw [findFrom, List.drop_left, find_line nonempty ends]
  rfl

theorem find_skip {front : List α} (absent : ∀ before after, front = before ++ after →
    after ≠ [] → ¬ needle <+: after ++ text) :
    find needle (front ++ text) = (find needle text).map (front.length + ·) := by
  induction front with
  | nil =>
      rw [List.nil_append, List.length_nil]
      simp
  | cons item others ih =>
      have notHere : ¬ needle <+: item :: (others ++ text) :=
        absent [] (item :: others) rfl (List.cons_ne_nil _ _)
      have later := ih fun before after split =>
        absent (item :: before) after (by rw [split, List.cons_append])
      rw [List.cons_append, find, if_neg notHere, later, Option.map_map, List.length_cons]
      congr 1
      funext position
      simp only [Function.comp]
      omega

/-- In a text that is cut off an occurrence is found when it lies in front of the
cut as a whole. -/
theorem find_take (nonempty : needle ≠ []) (count : ℕ) :
    find needle (text.take count) =
      (find needle text).filter (fun at' => at' + needle.length ≤ count) := by
  have positive := List.length_pos_of_ne_nil nonempty
  have short : ∀ (text : List α) (count : ℕ), count < needle.length →
      find needle (text.take count) = none := by
    intro text count tooShort
    refine find_eq_none fun inside => ?_
    have fits := inside.length_le
    rw [List.length_take] at fits
    omega
  induction text generalizing count with
  | nil =>
      rw [List.take_nil]
      rfl
  | cons item rest ih =>
      cases count with
      | zero =>
          rw [short _ 0 positive]
          symm
          rw [Option.filter_eq_none_iff]
          intro at' _
          simp only [decide_eq_true_eq]
          omega
      | succ count =>
          rw [List.take_succ_cons, find, find]
          have front : needle <+: item :: rest.take count ↔
              needle <+: item :: rest ∧ needle.length ≤ count + 1 := by
            rw [← List.take_succ_cons]
            exact List.prefix_take_iff
          by_cases here : needle <+: item :: rest
          · rw [if_pos here]
            by_cases fits : needle.length ≤ count + 1
            · rw [if_pos (front.mpr ⟨here, fits⟩)]
              simp [Option.filter, fits]
            · rw [if_neg fun both => fits (front.mp both).2, short rest count (by omega)]
              simp [Option.filter, fits]
          · rw [if_neg fun both => here (front.mp both).1, if_neg here, ih]
            cases find needle rest with
            | none => rfl
            | some later =>
                simp only [Option.filter, Option.map_some, decide_eq_true_eq]
                by_cases fits : later + needle.length ≤ count
                · rw [if_pos fits, if_pos (by omega)]
                  rfl
                · rw [if_neg fits, if_neg (by omega)]
                  rfl

theorem findFrom_take (nonempty : needle ≠ []) (count pos : ℕ) :
    findFrom needle (text.take count) pos =
      (findFrom needle text pos).filter (fun at' => at' + needle.length ≤ count) := by
  have positive := List.length_pos_of_ne_nil nonempty
  rw [findFrom, findFrom, List.drop_take, find_take nonempty]
  cases find needle (text.drop pos) with
  | none => rfl
  | some later =>
      simp only [Option.filter, Option.map_some, decide_eq_true_eq]
      by_cases fits : pos + later + needle.length ≤ count
      · rw [if_pos fits, if_pos (by omega)]
        rfl
      · rw [if_neg fits, if_neg (by omega)]
        rfl

theorem findFrom_some {pos at' : ℕ} (found : findFrom needle text pos = some at') :
    pos ≤ at' ∧ at' + needle.length ≤ text.length := by
  obtain ⟨offset, foundThere, rfl⟩ := Option.map_eq_some_iff.mp found
  obtain ⟨after, same, below⟩ := find_some foundThere
  have lengths := congrArg List.length same
  rw [List.length_drop, List.length_drop, List.length_append] at lengths
  rw [List.length_drop] at below
  omega

end Search

/-! ## Both sides of a mark -/

section Mark
variable {word name value : List α} {mark : α}

omit [DecidableEq α] in
theorem prefix_mark_iff (noMark : mark ∉ word) :
    word <+: name ++ mark :: value ↔ word <+: name := by
  induction name generalizing word with
  | nil =>
      cases word with
      | nil => simp
      | cons item others =>
          have first : item ≠ mark := fun same => noMark (by simp [same])
          simp [List.cons_prefix_cons, first]
  | cons head rest ih =>
      cases word with
      | nil => simp
      | cons item others =>
          rw [List.cons_append, List.cons_prefix_cons, List.cons_prefix_cons,
            ih fun member => noMark (List.mem_cons_of_mem _ member)]

omit [DecidableEq α] in
/-- A word without the mark stands before it or behind it. -/
theorem infix_mark_iff (nonempty : word ≠ []) (noMark : mark ∉ word) :
    word <:+: name ++ mark :: value ↔ word <:+: name ∨ word <:+: value := by
  induction name with
  | nil =>
      have notHere : ¬ word <+: mark :: value := by
        rw [← List.nil_append (mark :: value), prefix_mark_iff noMark, List.prefix_nil]
        exact nonempty
      rw [List.nil_append, List.infix_cons_iff, List.infix_nil]
      simp [notHere, nonempty]
  | cons head rest ih =>
      rw [List.cons_append, List.infix_cons_iff, ← List.cons_append, prefix_mark_iff noMark, ih,
        List.infix_cons_iff, or_assoc]

end Mark

end TextSearch
