import Mathlib.Data.Finmap

/-! # Hash maps read through a default

A finite map whose reads fall back to a default, the way `operator[]` of a
standard map does.  Equality is extensional, so two maps that answer every
lookup alike are the same map; iteration order is not part of the value and is
supplied from outside as an `IterationOrder`. -/
set_option autoImplicit false

/-- A finite map without an iteration order. -/
abbrev UnorderedMap (κ α : Type) : Type := Finmap fun _ : κ => α

namespace UnorderedMap

variable {κ α : Type} [DecidableEq κ]

def getD (m : UnorderedMap κ α) (key : κ) (fallback : α) : α :=
  (Finmap.lookup key m).getD fallback

theorem lookup_insert_ite (m : UnorderedMap κ α) (key other : κ) (value : α) :
    Finmap.lookup other (Finmap.insert key value m) =
      if other = key then some value else Finmap.lookup other m := by
  by_cases same : other = key
  · subst same
    simp
  · rw [if_neg same, Finmap.lookup_insert_of_ne m same]

theorem lookup_erase_ite (m : UnorderedMap κ α) (key other : κ) :
    Finmap.lookup other (Finmap.erase key m) =
      if other = key then none else Finmap.lookup other m := by
  by_cases same : other = key
  · subst same
    simp
  · rw [if_neg same, Finmap.lookup_erase_ne same]

@[simp] theorem getD_insert (m : UnorderedMap κ α) (key other : κ) (value fallback : α) :
    getD (Finmap.insert key value m) other fallback =
      if other = key then value else getD m other fallback := by
  rw [getD, lookup_insert_ite]
  split <;> rfl

@[simp] theorem getD_erase (m : UnorderedMap κ α) (key other : κ) (fallback : α) :
    getD (Finmap.erase key m) other fallback =
      if other = key then fallback else getD m other fallback := by
  rw [getD, lookup_erase_ite]
  split <;> rfl

theorem getD_of_lookup {m : UnorderedMap κ α} {key : κ} {value : α}
    (found : Finmap.lookup key m = some value) (fallback : α) : getD m key fallback = value := by
  rw [getD, found]
  rfl

theorem getD_of_notMem {m : UnorderedMap κ α} {key : κ} (absent : key ∉ m) (fallback : α) :
    getD m key fallback = fallback := by
  rw [getD, Finmap.lookup_eq_none.mpr absent]
  rfl

theorem insert_lookup_self {m : UnorderedMap κ α} {key : κ} {value : α}
    (found : Finmap.lookup key m = some value) : Finmap.insert key value m = m := by
  apply Finmap.ext_lookup
  intro other
  rw [lookup_insert_ite]
  split
  · rename_i same
    rw [same, found]
  · rfl

theorem erase_erase_self (m : UnorderedMap κ α) (key : κ) :
    Finmap.erase key (Finmap.erase key m) = Finmap.erase key m := by
  apply Finmap.ext_lookup
  intro other
  rw [lookup_erase_ite, lookup_erase_ite]
  split <;> rfl

/-- One enumeration of every finite key set: the order in which a hash table
happens to be walked.  Nothing but completeness and the absence of repeats is
known about it. -/
structure IterationOrder (κ : Type) where
  enumerate : Finset κ → List κ
  nodup : ∀ keys, (enumerate keys).Nodup
  mem_iff : ∀ keys key, key ∈ enumerate keys ↔ key ∈ keys

/-- Every key type has an enumeration of its finite sets. -/
noncomputable def IterationOrder.ofToList : IterationOrder κ where
  enumerate := Finset.toList
  nodup := Finset.nodup_toList
  mem_iff := fun _ _ => Finset.mem_toList

end UnorderedMap
