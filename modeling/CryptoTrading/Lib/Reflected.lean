import Mathlib.Algebra.Order.Group.Abs
import Mathlib.Data.List.Infix

/-! # Levels cut off at zero

A net amount develops over a stream of records; a level follows it step by step
but is cut off at zero whenever it would become negative.  The level is never
below the net amount, and it is the net amount exactly as long as that has never
been negative. -/
set_option autoImplicit false

namespace Reflected

variable {ι K : Type} [AddCommGroup K] [LinearOrder K]

/-- Along `records` the level follows the net amount, cut off at zero. -/
structure Follows (net level : List ι → K) (records : List ι) : Prop where
  start : level [] = max 0 (net [])
  step : ∀ front record, front ++ [record] <+: records →
    level (front ++ [record]) = max 0 (level front + (net (front ++ [record]) - net front))

section Level
variable {net level : List ι → K} {records : List ι}

theorem Follows.of_prefix {front : List ι} (follows : Follows net level records)
    (first : front <+: records) : Follows net level front :=
  ⟨follows.start, fun earlier record inside => follows.step earlier record (inside.trans first)⟩

variable [IsOrderedAddMonoid K]

theorem Follows.net_le (follows : Follows net level records) : net records ≤ level records := by
  induction records using List.reverseRecOn with
  | nil =>
      rw [follows.start]
      exact le_max_right _ _
  | append_singleton front record ih =>
      have before := ih (follows.of_prefix (List.prefix_append _ _))
      rw [follows.step front record (List.prefix_refl _)]
      calc net (front ++ [record])
          = net front + (net (front ++ [record]) - net front) := (add_sub_cancel _ _).symm
        _ ≤ level front + (net (front ++ [record]) - net front) := by gcongr
        _ ≤ max 0 (level front + (net (front ++ [record]) - net front)) := le_max_right _ _

/-- A level above the net amount stays above it, so equality at the end needs
equality all the way. -/
theorem Follows.level_eq_iff (follows : Follows net level records) :
    level records = net records ↔ ∀ front, front <+: records → 0 ≤ net front := by
  induction records using List.reverseRecOn with
  | nil =>
      rw [follows.start, max_eq_right_iff]
      simp
  | append_singleton front record ih =>
      have earlier := follows.of_prefix (List.prefix_append front [record])
      have split : (∀ first, first <+: front ++ [record] → 0 ≤ net first) ↔
          0 ≤ net (front ++ [record]) ∧ level front = net front := by
        simp only [List.prefix_concat_iff, forall_eq_or_imp, ih earlier]
      rw [split, follows.step front record (List.prefix_refl _)]
      constructor
      · intro same
        have nonneg : 0 ≤ net (front ++ [record]) := same ▸ le_max_left _ _
        refine ⟨nonneg, le_antisymm ?_ earlier.net_le⟩
        have bounded := (le_max_right 0 _).trans same.le
        rw [← le_sub_iff_add_le, sub_sub_cancel] at bounded
        exact bounded
      · rintro ⟨nonneg, same⟩
        rw [same, add_sub_cancel, max_eq_right nonneg]

end Level

end Reflected
