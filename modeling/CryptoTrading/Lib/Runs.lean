import Mathlib.Algebra.Group.Nat.Defs
import Mathlib.Algebra.Group.Prod
import Mathlib.Data.List.Forall2

/-! # Runs of a labelled step function

`step` consumes one action and may fail; `run` executes a list of actions and
fails with the first failing one.  `total` adds up what each taken step weighs,
so a quantity that the state does not record can still be followed along a run.
The induction rule carries the actions that are still to come, for invariants
that speak about them. -/
set_option autoImplicit false

namespace Runs

variable {σ α M : Type}

def run (step : σ → α → Option σ) : σ → List α → Option σ
  | state, [] => some state
  | state, action :: rest =>
      match step state action with
      | none => none
      | some next => run step next rest

def total [AddMonoid M] (step : σ → α → Option σ) (weight : σ → α → M) : σ → List α → M
  | _, [] => 0
  | state, action :: rest =>
      match step state action with
      | none => 0
      | some next => weight state action + total step weight next rest

section Run
variable (step : σ → α → Option σ)

@[simp] theorem run_nil (state : σ) : run step state [] = some state := rfl

theorem run_cons (state : σ) (action : α) (rest : List α) :
    run step state (action :: rest) = (step state action).bind fun next => run step next rest := by
  rw [run]
  cases step state action <;> rfl

theorem run_cons_some {state final : σ} {action : α} {rest : List α}
    (ran : run step state (action :: rest) = some final) :
    ∃ next, step state action = some next ∧ run step next rest = some final := by
  rw [run_cons] at ran
  exact Option.bind_eq_some_iff.mp ran

theorem run_append (state : σ) (first second : List α) :
    run step state (first ++ second) = (run step state first).bind fun middle =>
      run step middle second := by
  induction first generalizing state with
  | nil => rfl
  | cons action rest ih =>
      rw [List.cons_append, run_cons, run_cons]
      cases step state action with
      | none => rfl
      | some next => exact ih next

theorem run_append_singleton (state : σ) (front : List α) (action : α) :
    run step state (front ++ [action]) =
      (run step state front).bind fun middle => step middle action := by
  rw [run_append]
  congr 1
  funext middle
  rw [run_cons]
  exact Option.bind_fun_some _

theorem run_prefix {state final : σ} {front actions : List α} (first : front <+: actions)
    (ran : run step state actions = some final) : ∃ middle, run step state front = some middle := by
  obtain ⟨rest, rfl⟩ := first
  rw [run_append] at ran
  obtain ⟨middle, reached, -⟩ := Option.bind_eq_some_iff.mp ran
  exact ⟨middle, reached⟩

theorem run_total (actions : List α)
    (total : ∀ state, ∀ action ∈ actions, ∃ next, step state action = some next) (state : σ) :
    ∃ final, run step state actions = some final := by
  induction actions generalizing state with
  | nil => exact ⟨state, rfl⟩
  | cons action rest ih =>
      obtain ⟨next, stepped⟩ := total state action List.mem_cons_self
      rw [run_cons, stepped]
      exact ih (fun state other member => total state other (List.mem_cons_of_mem _ member)) next

theorem run_some_iff {state : σ} {actions : List α} :
    (∃ final, run step state actions = some final) ↔
      ∀ before action after middle, actions = before ++ action :: after →
        run step state before = some middle → ∃ next, step middle action = some next := by
  constructor
  · rintro ⟨final, ran⟩ before action after middle rfl reached
    rw [run_append, reached, Option.bind_some] at ran
    obtain ⟨next, stepped, -⟩ := run_cons_some step ran
    exact ⟨next, stepped⟩
  · intro goes
    induction actions generalizing state with
    | nil => exact ⟨state, rfl⟩
    | cons action rest ih =>
        obtain ⟨next, stepped⟩ := goes [] action rest state rfl rfl
        rw [run_cons, stepped]
        apply ih
        intro before other after middle split reached
        apply goes (action :: before) other after middle (by rw [split]; rfl)
        rw [run_cons, stepped]
        exact reached

/-- The invariant rule. -/
theorem run_induction (Inv : σ → Prop)
    (preserved : ∀ state action next, Inv state → step state action = some next → Inv next)
    {state final : σ} {actions : List α} (start : Inv state)
    (ran : run step state actions = some final) : Inv final := by
  induction actions generalizing state with
  | nil =>
      cases ran
      exact start
  | cons action rest ih =>
      obtain ⟨next, stepped, ranRest⟩ := run_cons_some step ran
      exact ih (preserved state action next start stepped) ranRest

end Run

section Total
variable [AddMonoid M] (step : σ → α → Option σ) (weight : σ → α → M)

@[simp] theorem total_nil (state : σ) : total step weight state [] = 0 := rfl

theorem total_cons {state next : σ} {action : α} (rest : List α)
    (stepped : step state action = some next) :
    total step weight state (action :: rest) =
      weight state action + total step weight next rest := by
  rw [total, stepped]

theorem total_eq_zero (light : ∀ state action next, step state action = some next →
    weight state action = 0) (state : σ) (actions : List α) :
    total step weight state actions = 0 := by
  induction actions generalizing state with
  | nil => rfl
  | cons action rest ih =>
      cases stepped : step state action with
      | none => rw [total, stepped]
      | some next =>
          rw [total_cons step weight rest stepped, light state action next stepped, ih, add_zero]

/-- The invariant rule for a state together with the weight accumulated so far. -/
theorem total_induction (Inv : M → σ → List α → Prop)
    (preserved : ∀ sum state next action rest, Inv sum state (action :: rest) →
      step state action = some next → Inv (sum + weight state action) next rest)
    {state final : σ} {actions : List α} (start : Inv 0 state actions)
    (ran : run step state actions = some final) :
    Inv (total step weight state actions) final [] := by
  suffices general : ∀ (actions : List α) (sum : M) (state : σ), Inv sum state actions →
      run step state actions = some final →
      Inv (sum + total step weight state actions) final [] by
    simpa using general actions 0 state start ran
  intro actions
  induction actions with
  | nil =>
      intro sum state held ran
      cases ran
      simpa using held
  | cons action rest ih =>
      intro sum state held ran
      obtain ⟨next, stepped, ranRest⟩ := run_cons_some step ran
      rw [total_cons step weight rest stepped, ← add_assoc]
      exact ih _ next (preserved sum state next action rest held stepped) ranRest

/-- Two quantities followed along a run at once. -/
theorem total_prod {N : Type} [AddMonoid N] (other : σ → α → N) (actions : List α) :
    ∀ state, total step (fun state action => (weight state action, other state action)) state
        actions = (total step weight state actions, total step other state actions) := by
  induction actions with
  | nil =>
      intro state
      rfl
  | cons action rest ih =>
      intro state
      rw [total, total, total]
      cases step state action with
      | none => rfl
      | some next =>
          dsimp only
          rw [ih next, Prod.mk_add_mk]

end Total

/-! ## Counting steps -/

section Count
variable (step : σ → α → Option σ) (P : σ → α → Prop) [∀ state action, Decidable (P state action)]

def count : σ → List α → Nat := total step fun state action => if P state action then 1 else 0

theorem count_cons_eq_zero {state next : σ} {action : α} {rest : List α}
    (stepped : step state action = some next) (none : count step P state (action :: rest) = 0) :
    ¬ P state action ∧ count step P next rest = 0 := by
  rw [count, total_cons _ _ _ stepped] at none
  obtain ⟨here, later⟩ := Nat.add_eq_zero_iff.mp none
  refine ⟨fun holds => ?_, later⟩
  rw [if_pos holds] at here
  exact absurd here Nat.one_ne_zero

/-- Under an invariant that rules them out, no step satisfies `P`. -/
theorem count_eq_zero_of_inv (Inv : σ → Prop)
    (preserved : ∀ state action next, Inv state → step state action = some next → Inv next)
    (avoids : ∀ state action, Inv state → ¬ P state action) {state : σ} (start : Inv state)
    (actions : List α) : count step P state actions = 0 := by
  induction actions generalizing state with
  | nil => rfl
  | cons action rest ih =>
      cases stepped : step state action with
      | none => rw [count, total, stepped]
      | some next =>
          rw [count, total_cons _ _ _ stepped, if_neg (avoids state action start), zero_add]
          exact ih (preserved state action next start stepped)

/-- Steps with `Q` are ruled out by an invariant of the runs that avoid `P`. -/
theorem count_eq_zero_avoiding (Q : σ → α → Prop) [∀ state action, Decidable (Q state action)]
    (Inv : σ → Prop)
    (preserved : ∀ state action next, ¬ P state action → Inv state →
      step state action = some next → Inv next)
    (avoids : ∀ state action, ¬ P state action → Inv state → ¬ Q state action)
    {actions : List α} : ∀ {state : σ}, Inv state → count step P state actions = 0 →
      count step Q state actions = 0 := by
  induction actions with
  | nil => exact fun _ _ => rfl
  | cons action rest ih =>
      intro state held avoided
      cases stepped : step state action with
      | none => rw [count, total, stepped]
      | some next =>
          obtain ⟨here, later⟩ := count_cons_eq_zero step P stepped avoided
          rw [count, total_cons _ _ _ stepped, if_neg (avoids state action here held), zero_add]
          exact ih (preserved state action next here held stepped) later

/-- The invariant rule for runs that avoid the steps with `P`. -/
theorem run_induction_avoiding (Inv : σ → Prop)
    (preserved : ∀ state action next, ¬ P state action → Inv state →
      step state action = some next → Inv next)
    {state final : σ} {actions : List α} (start : Inv state)
    (avoided : count step P state actions = 0) (ran : run step state actions = some final) :
    Inv final := by
  induction actions generalizing state with
  | nil =>
      cases ran
      exact start
  | cons action rest ih =>
      obtain ⟨next, stepped, ranRest⟩ := run_cons_some step ran
      obtain ⟨here, later⟩ := count_cons_eq_zero step P stepped avoided
      exact ih (preserved state action next here start stepped) later ranRest

end Count

/-! ## Seeing steps -/

def observe {β : Type} (step : σ → α → Option σ) (view : σ → α → β) : σ → List α → List β
  | _, [] => []
  | state, action :: rest =>
      match step state action with
      | none => []
      | some next => view state action :: observe step view next rest

theorem observe_cons {β : Type} (step : σ → α → Option σ) (view : σ → α → β) {state next : σ}
    {action : α} (rest : List α) (stepped : step state action = some next) :
    observe step view state (action :: rest) =
      view state action :: observe step view next rest := by
  rw [observe, stepped]

/-! ## Two systems side by side -/

/-- When each step of the one can be shown by a step of the other, so can a run:
both come to related states, or both fail. -/
theorem run_shown {τ β : Type} {step : σ → α → Option σ} {other : τ → β → Option τ}
    {Related : σ → τ → Prop} {Shows : α → β → Prop} {Allowed : α → Prop}
    (steps : ∀ {state otherState action}, Related state otherState → Allowed action →
      ∃ shown, Shows action shown ∧
        Option.Rel Related (step state action) (other otherState shown))
    (actions : List α) : ∀ {state : σ} {otherState : τ}, Related state otherState →
      (∀ action ∈ actions, Allowed action) → ∃ shown, List.Forall₂ Shows actions shown ∧
        Option.Rel Related (run step state actions) (run other otherState shown) := by
  induction actions with
  | nil => exact fun related _ => ⟨[], .nil, .some related⟩
  | cons action rest ih =>
      intro state otherState related allowed
      have allowedRest := fun later member => allowed later (List.mem_cons_of_mem action member)
      obtain ⟨first, shows', here⟩ := steps related (allowed action List.mem_cons_self)
      cases stepped : step state action with
      | none =>
          obtain ⟨shown, showsRest, -⟩ := ih related allowedRest
          refine ⟨first :: shown, .cons shows' showsRest, ?_⟩
          rw [stepped] at here
          rw [run_cons, run_cons, stepped]
          cases otherStepped : other otherState first with
          | none => exact .none
          | some otherNext =>
              rw [otherStepped] at here
              cases here
      | some next =>
          rw [stepped] at here
          cases otherStepped : other otherState first with
          | none =>
              rw [otherStepped] at here
              cases here
          | some otherNext =>
              rw [otherStepped] at here
              cases here with
              | some onward =>
                  obtain ⟨shown, showsRest, final⟩ := ih onward allowedRest
                  refine ⟨first :: shown, .cons shows' showsRest, ?_⟩
                  rw [run_cons, run_cons, stepped, otherStepped]
                  exact final

end Runs
