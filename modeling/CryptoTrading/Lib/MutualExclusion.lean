import Mathlib.Logic.Basic

/-! # Mutual exclusion

A lock says who owns it, and `inside` which threads are in a section that it
protects.  The two agree as long as a thread gets in only when the lock is free
and frees it when it gets out. -/
set_option autoImplicit false

namespace MutualExclusion

variable {T : Type}

/-- The thread inside, if there is one, is the owner of the lock. -/
def Exclusive (lock : Option T) (inside : T → Prop) : Prop :=
  ∀ thread, inside thread ↔ lock = some thread

section Exclusive
variable {lock : Option T} {before after : T → Prop} {thread : T}

theorem Exclusive.owner (exclusive : Exclusive lock before) (inside : before thread) :
    lock = some thread := (exclusive thread).mp inside

theorem Exclusive.only (exclusive : Exclusive lock before) {other : T} (inside : before thread)
    (otherInside : before other) : other = thread :=
  Option.some.inj ((exclusive.owner otherInside).symm.trans (exclusive.owner inside))

theorem Exclusive.outside (exclusive : Exclusive lock before) {other : T}
    (inside : before thread) (apart : other ≠ thread) : ¬ before other :=
  fun otherInside => apart (exclusive.only inside otherInside)

theorem Exclusive.stay (exclusive : Exclusive lock before)
    (same : ∀ other, after other ↔ before other) : Exclusive lock after :=
  fun other => (same other).trans (exclusive other)

theorem Exclusive.enter (exclusive : Exclusive none before) (inside : after thread)
    (others : ∀ other, other ≠ thread → (after other ↔ before other)) :
    Exclusive (some thread) after := by
  intro other
  by_cases same : other = thread
  · subst same
    exact ⟨fun _ => rfl, fun _ => inside⟩
  · rw [others other same, exclusive other]
    exact ⟨fun owned => (nomatch owned), fun owned => absurd (Option.some.inj owned).symm same⟩

theorem Exclusive.leave (exclusive : Exclusive lock before) (inside : before thread)
    (out : ¬ after thread)
    (others : ∀ other, other ≠ thread → (after other ↔ before other)) :
    Exclusive none after := by
  intro other
  refine ⟨fun still => ?_, fun owned => (nomatch owned)⟩
  have apart : other ≠ thread := by
    rintro rfl
    exact out still
  exact absurd ((others other apart).mp still) (exclusive.outside inside apart)

end Exclusive

end MutualExclusion
