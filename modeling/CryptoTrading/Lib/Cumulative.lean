import Mathlib.Algebra.Ring.Defs
import Mathlib.Tactic.Ring

/-! # Cumulative readings

A counter is read at increasing levels, each reading with a price.  `stepCost`
charges every increment at the price of its own reading; `drift` adds up how
much the price of the amount already counted has moved.  Summation by parts
says that the two together are the last price on the whole level. -/
set_option autoImplicit false

namespace Cumulative

variable {K : Type} [CommRing K]

def stepCost (level : K) : List (K × K) → K
  | [] => 0
  | (next, price) :: rest => price * (next - level) + stepCost next rest

def drift (level price : K) : List (K × K) → K
  | [] => 0
  | (next, nextPrice) :: rest => level * (nextPrice - price) + drift next nextPrice rest

def finalCost (level price : K) : List (K × K) → K
  | [] => price * level
  | (next, nextPrice) :: rest => finalCost next nextPrice rest

theorem stepCost_add_drift (readings : List (K × K)) (level price : K) :
    price * level + stepCost level readings + drift level price readings =
      finalCost level price readings := by
  induction readings generalizing level price with
  | nil => simp [stepCost, drift, finalCost]
  | cons reading rest ih =>
      obtain ⟨next, nextPrice⟩ := reading
      rw [stepCost, drift, finalCost, ← ih next nextPrice]
      ring

theorem finalCost_append_singleton (readings : List (K × K)) (level price last lastPrice : K) :
    finalCost level price (readings ++ [(last, lastPrice)]) = lastPrice * last := by
  induction readings generalizing level price with
  | nil => rfl
  | cons reading rest ih =>
      rw [List.cons_append, finalCost]
      exact ih _ _

/-- From level zero the step costs miss the final cost by exactly the drift. -/
theorem stepCost_eq_finalCost_iff (readings : List (K × K)) (last lastPrice : K) :
    stepCost 0 (readings ++ [(last, lastPrice)]) = lastPrice * last ↔
      drift 0 0 (readings ++ [(last, lastPrice)]) = 0 := by
  have byParts := stepCost_add_drift (readings ++ [(last, lastPrice)]) 0 0
  rw [finalCost_append_singleton, mul_zero, zero_add] at byParts
  rw [← byParts]
  exact left_eq_add

end Cumulative
