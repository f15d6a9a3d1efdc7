import Mathlib.Data.List.Basic

/-! # Self-delimiting encodings

A reader that takes exactly one encoded item off the front of its input, whatever
follows.  Read again and again, it takes the items of a concatenation one after
the other.  A reader that does not look at what it leaves cannot take an item that
is not there as a whole. -/
set_option autoImplicit false

namespace SelfDelimiting

section Read
variable {α β γ ε : Type}

/-- `write item` is read as `meaning item`, and nothing behind it is touched. -/
def Delimits (write : β → List α) (read : List α → Except ε (γ × List α)) (meaning : β → γ)
    (item : β) : Prop :=
  ∀ rest, read (write item ++ rest) = .ok (meaning item, rest)

def readMany (read : List α → Except ε (γ × List α)) :
    ℕ → List α → Except ε (List γ × List α)
  | 0, input => .ok ([], input)
  | count + 1, input =>
      match read input with
      | .error fault => .error fault
      | .ok (item, rest) =>
          match readMany read count rest with
          | .error fault => .error fault
          | .ok (items, rest) => .ok (item :: items, rest)

variable {write : β → List α} {read : List α → Except ε (γ × List α)} {meaning : β → γ}

theorem readMany_cons {count : ℕ} {input middle rest : List α} {item : γ} {items : List γ}
    (first : read input = .ok (item, middle)) (later : readMany read count middle =
      .ok (items, rest)) : readMany read (count + 1) input = .ok (item :: items, rest) := by
  rw [readMany, first]
  dsimp only
  rw [later]

theorem readMany_writes {items : List β}
    (delimits : ∀ item ∈ items, Delimits write read meaning item) (rest : List α) :
    readMany read items.length (items.flatMap write ++ rest) = .ok (items.map meaning, rest) := by
  induction items with
  | nil => rfl
  | cons item others ih =>
      have first : read ((item :: others).flatMap write ++ rest) =
          .ok (meaning item, others.flatMap write ++ rest) := by
        rw [List.flatMap_cons, List.append_assoc]
        exact delimits item List.mem_cons_self _
      exact readMany_cons first
        (ih fun other member => delimits other (List.mem_cons_of_mem _ member))

end Read

/-! ## Input that is cut off -/

section Cut
variable {α β γ δ ε : Type} {write : β → List α} {read : List α → Except ε (γ × List α)}
  {meaning : β → γ}

/-- What is read stays the same when more follows. -/
def Stable (read : List α → Except ε (γ × List α)) : Prop :=
  ∀ (input more rest : List α) (item : γ), read input = .ok (item, rest) →
    read (input ++ more) = .ok (item, rest ++ more)

theorem stable_ok (item : γ) : Stable fun input : List α => (.ok (item, input) : Except ε _) := by
  intro input more rest other ran
  cases ran
  rfl

theorem stable_error (fault : ε) :
    Stable fun _ : List α => (.error fault : Except ε (γ × List α)) := by
  intro input more rest other ran
  cases ran

theorem Stable.bind {next : γ → List α → Except ε (δ × List α)} (first : Stable read)
    (later : ∀ item, Stable (next item)) :
    Stable fun input => (read input).bind fun taken => next taken.1 taken.2 := by
  intro input more rest result ran
  dsimp only at ran ⊢
  cases taken : read input with
  | error fault =>
      rw [taken] at ran
      cases ran
  | ok pair =>
      obtain ⟨item, middle⟩ := pair
      rw [taken] at ran
      rw [first input more middle item taken]
      exact later item middle more rest result ran

/-- No part of an encoding that is missing something at its end is read. -/
theorem Delimits.not_early {item : β} (delimits : Delimits write read meaning item)
    (stable : Stable read) {count : ℕ} (early : count < (write item).length)
    (result : γ × List α) : read ((write item).take count) ≠ .ok result := by
  intro ran
  obtain ⟨other, rest⟩ := result
  have longer := stable _ ((write item).drop count) _ _ ran
  have whole := delimits []
  rw [List.take_append_drop] at longer
  rw [List.append_nil, longer] at whole
  have nothing := (List.append_eq_nil_iff.mp (Prod.mk.inj (Except.ok.inj whole)).2).2
  rw [List.drop_eq_nil_iff] at nothing
  omega

end Cut

end SelfDelimiting
