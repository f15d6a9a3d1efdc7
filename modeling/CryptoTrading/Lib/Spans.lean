import Mathlib.Data.Nat.Init

/-! # Spans one after another

Spans with lengths of their own, laid end to end from zero on.  A point is found
by the span it is in and its offset there, and points are in the order of these
two. -/
set_option autoImplicit false

namespace Spans

variable (len : ℕ → ℕ)

def start : ℕ → ℕ
  | 0 => 0
  | index + 1 => start index + len index

/-- The span a point is in and its offset there, from a span on. -/
def locateFrom : ℕ → ℕ → ℕ → ℕ × ℕ
  | 0, index, point => (index, point)
  | turns + 1, index, point =>
      if point < len index then (index, point)
      else locateFrom turns (index + 1) (point - len index)

/-- With lengths that are not zero a turn for each point is enough. -/
def locate (point : ℕ) : ℕ × ℕ := locateFrom len (point + 1) 0 point

example : locate (fun index => index + 2) 7 = (2, 2) := by decide

section Order
variable {len}

theorem start_mono {before after : ℕ} (ordered : before ≤ after) :
    start len before ≤ start len after := by
  induction ordered with
  | refl => exact Nat.le_refl _
  | step _ ih => exact Nat.le_trans ih (Nat.le_add_right _ _)

theorem start_const (length index : ℕ) : start (fun _ => length) index = length * index := by
  induction index with
  | zero => rfl
  | succ index ih => rw [start, ih, Nat.mul_succ]

/-- Points are in the order of their spans, and in one span in that of their
offsets. -/
theorem point_lt_iff {index offset otherIndex otherOffset : ℕ} (inside : offset < len index)
    (otherInside : otherOffset < len otherIndex) :
    start len index + offset < start len otherIndex + otherOffset ↔
      index < otherIndex ∨ index = otherIndex ∧ offset < otherOffset := by
  have apart : ∀ {first second : ℕ}, first < second →
      start len first + len first ≤ start len second := fun ordered =>
    @start_mono len _ _ (Nat.succ_le_of_lt ordered)
  rcases Nat.lt_trichotomy index otherIndex with before | same | after
  · have gap := apart before
    exact iff_of_true (by omega) (Or.inl before)
  · subst same
    simp
  · have gap := apart after
    refine iff_of_false (by omega) ?_
    rintro (before | ⟨same, -⟩) <;> omega

theorem locateFrom_spec (positive : ∀ index, 0 < len index) (turns : ℕ) : ∀ index point,
    point < turns →
      start len (locateFrom len turns index point).1 + (locateFrom len turns index point).2 =
          start len index + point ∧
        (locateFrom len turns index point).2 < len (locateFrom len turns index point).1 := by
  induction turns with
  | zero =>
      intro index point impossible
      exact absurd impossible (Nat.not_lt_zero _)
  | succ turns ih =>
      intro index point enough
      rw [locateFrom]
      split
      · next inside => exact ⟨rfl, inside⟩
      · next outside =>
          have shorter := positive index
          obtain ⟨found, within⟩ := ih (index + 1) (point - len index) (by omega)
          refine ⟨?_, within⟩
          rw [found, start]
          omega

theorem locate_spec (positive : ∀ index, 0 < len index) (point : ℕ) :
    start len (locate len point).1 + (locate len point).2 = point ∧
      (locate len point).2 < len (locate len point).1 := by
  obtain ⟨found, within⟩ := locateFrom_spec positive (point + 1) 0 point (Nat.lt_succ_self _)
  refine ⟨?_, within⟩
  rw [locate, found, start, Nat.zero_add]

end Order

end Spans
