import Mathlib.Data.List.Basic

/-! # One variable for several reads

A variable is read into again and again and used after each read, and a read
that finds nothing leaves in it what the last one found.  The uses come out as
if each read had a variable of its own exactly when no use can tell such a
leftover from the value the variable started with. -/
set_option autoImplicit false

namespace SharedVariable

/-- A read into the variable, and what is made of the variable after it. -/
structure Read (α β : Type) where
  found : Option α
  use : α → β

section Reads
variable {α β : Type}

def held (value : α) (reads : List (Read α β)) : α :=
  reads.foldl (fun value read => read.found.getD value) value

def written : α → List (Read α β) → List β
  | _, [] => []
  | value, read :: rest =>
      read.use (read.found.getD value) :: written (read.found.getD value) rest

/-- What is made of a variable that only this read is for. -/
def own (start : α) (read : Read α β) : β := read.use (read.found.getD start)

/-- Where nothing is found, the use of what is left over is that of the start. -/
def NoLeftover (start : α) (reads : List (Read α β)) : Prop :=
  ∀ before read after, reads = before ++ read :: after → read.found = none →
    read.use (held start before) = read.use start

theorem written_eq_own_iff_from (start : α) (reads : List (Read α β)) : ∀ value,
    written value reads = reads.map (own start) ↔
      ∀ before read after, reads = before ++ read :: after → read.found = none →
        read.use (held value before) = read.use start := by
  induction reads with
  | nil =>
      intro value
      refine iff_of_true rfl fun before read after split => ?_
      exact absurd split.symm (by simp)
  | cons first rest ih =>
      intro value
      rw [written, List.map_cons, List.cons.injEq, ih]
      constructor
      · rintro ⟨here, later⟩ before read after split missing
        cases before with
        | nil =>
            obtain ⟨rfl, rfl⟩ := List.cons.inj split
            rw [own, missing] at here
            exact here
        | cons head front =>
            obtain ⟨rfl, tails⟩ := List.cons.inj split
            exact later front read after tails missing
      · intro all
        refine ⟨?_, fun before read after split missing => ?_⟩
        · cases found : first.found with
          | none =>
              rw [own, found]
              exact all [] first rest rfl found
          | some _ => rw [own, found, Option.getD_some, Option.getD_some]
        · exact all (first :: before) read after (by rw [split]; rfl) missing

theorem written_eq_own_iff (start : α) (reads : List (Read α β)) :
    written start reads = reads.map (own start) ↔ NoLeftover start reads :=
  written_eq_own_iff_from start reads start

end Reads

end SharedVariable
