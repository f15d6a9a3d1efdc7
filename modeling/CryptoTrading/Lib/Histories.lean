import Mathlib.Algebra.BigOperators.Group.Finset.Basic
import Mathlib.Algebra.BigOperators.Group.Finset.Piecewise

/-! # Interleaved histories

A stream of records, each of which belongs to one key: the history of a key is
the sublist of its records.  A value that depends on each history alone is added
up over the keys, and one more record changes that sum by what it changes in the
history of its own key. -/
set_option autoImplicit false

namespace Histories

variable {ι κ M : Type} [DecidableEq κ] (keyOf : ι → κ)

def history (key : κ) (records : List ι) : List ι :=
  records.filter fun record => keyOf record = key

def keys (records : List ι) : Finset κ := (records.map keyOf).toFinset

/-- The sum over the keys of what their histories come to. -/
def overall [AddCommMonoid M] (value : κ → List ι → M) (records : List ι) : M :=
  ∑ key ∈ keys keyOf records, value key (history keyOf key records)

section History
variable {keyOf} {key : κ}

theorem history_append_self (front : List ι) (record : ι) :
    history keyOf (keyOf record) (front ++ [record]) =
      history keyOf (keyOf record) front ++ [record] := by
  simp [history]

theorem history_append_other (front : List ι) {record : ι} (other : keyOf record ≠ key) :
    history keyOf key (front ++ [record]) = history keyOf key front := by
  simp [history, other]

theorem mem_history {records : List ι} {record : ι} :
    record ∈ history keyOf key records ↔ record ∈ records ∧ keyOf record = key := by
  simp [history]

theorem mem_keys {records : List ι} :
    key ∈ keys keyOf records ↔ ∃ record ∈ records, keyOf record = key := by
  simp [keys]

theorem history_eq_nil {records : List ι} (absent : key ∉ keys keyOf records) :
    history keyOf key records = [] := by
  rw [history, List.filter_eq_nil_iff]
  intro record member same
  exact absent (mem_keys.mpr ⟨record, member, of_decide_eq_true same⟩)

theorem keys_append_singleton (front : List ι) (record : ι) :
    keys keyOf (front ++ [record]) = insert (keyOf record) (keys keyOf front) := by
  ext key
  simp [keys]

theorem history_prefix {front records : List ι} (first : front <+: records) (key : κ) :
    history keyOf key front <+: history keyOf key records :=
  first.filter _

end History

section Overall
variable {keyOf} (value : κ → List ι → M)

@[simp] theorem overall_nil [AddCommMonoid M] : overall keyOf value [] = 0 := rfl

/-- Keys without records may be added if an empty history is worth nothing. -/
theorem overall_eq_sum [AddCommMonoid M] (empty : ∀ key, value key [] = 0) {records : List ι}
    {among : Finset κ} (all : keys keyOf records ⊆ among) :
    overall keyOf value records = ∑ key ∈ among, value key (history keyOf key records) := by
  apply Finset.sum_subset all
  intro key _ absent
  rw [history_eq_nil absent, empty]

theorem overall_append_singleton [AddCommGroup M] (empty : ∀ key, value key [] = 0)
    (front : List ι) (record : ι) :
    overall keyOf value (front ++ [record]) = overall keyOf value front +
      (value (keyOf record) (history keyOf (keyOf record) front ++ [record]) -
        value (keyOf record) (history keyOf (keyOf record) front)) := by
  have among : keys keyOf front ⊆ keys keyOf (front ++ [record]) := by
    rw [keys_append_singleton]
    exact Finset.subset_insert _ _
  have inside : keyOf record ∈ keys keyOf (front ++ [record]) := by
    rw [keys_append_singleton]
    exact Finset.mem_insert_self _ _
  rw [overall_eq_sum value empty among, overall, ← sub_eq_iff_eq_add', ← Finset.sum_sub_distrib,
    Finset.sum_eq_single_of_mem (keyOf record) inside, history_append_self]
  intro key _ other
  rw [history_append_other front (Ne.symm other), sub_self]

end Overall

end Histories
