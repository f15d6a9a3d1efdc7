import CryptoTrading.Lib.BoundedFifo
import CryptoTrading.Lib.Runs

/-! # Polled queues

A bounded queue over many steps, by the events that are seen of it.  A poll
finds an entry as long as there is one, so an entry waits for one poll more than
there are entries before it, whatever is added behind it. -/
set_option autoImplicit false

namespace BoundedFifo

variable {α : Type} {capacity : Nat}

namespace Event

def isPoll : Event α → Bool
  | .accept _ => false
  | .refuse => false
  | .take _ => true
  | .starve => true
  | .silent => false

def isRefusal : Event α → Bool
  | .accept _ => false
  | .refuse => true
  | .take _ => false
  | .starve => false
  | .silent => false

end Event

theorem Step.bounded {queue next : List α} {event : Event α}
    (step : Step capacity queue event next) (bounded : queue.length ≤ capacity) :
    next.length ≤ capacity := by
  cases step with
  | accept room =>
      rw [List.length_append]
      exact room
  | refuse full => exact bounded
  | take => exact Nat.le_of_succ_le bounded
  | starve => exact bounded
  | silent => exact bounded

inductive Steps (capacity : Nat) : List α → List (Event α) → List α → Prop
  | nil {queue : List α} : Steps capacity queue [] queue
  | cons {queue next final : List α} {event : Event α} {events : List (Event α)}
      (step : Step capacity queue event next) (rest : Steps capacity next events final) :
      Steps capacity queue (event :: events) final

def taken (events : List (Event α)) : List α := events.flatMap Event.taken

def accepted (events : List (Event α)) : List α := events.flatMap Event.accepted

def polls (events : List (Event α)) : Nat := events.countP Event.isPoll

def refusals (events : List (Event α)) : Nat := events.countP Event.isRefusal

section Steps
variable {queue final : List α} {events : List (Event α)}

theorem Steps.balance (steps : Steps capacity queue events final) :
    taken events ++ final = queue ++ accepted events := by
  induction steps with
  | nil => exact (List.append_nil _).symm
  | cons step rest ih =>
      have first := step.balance (List.nil_append _)
      rw [taken, accepted, List.flatMap_cons, List.flatMap_cons, List.append_assoc, ← taken, ih,
        ← accepted, ← List.append_assoc, ← List.append_assoc]
      rw [List.nil_append] at first
      rw [first]

/-- Every poll finds an entry while there is one. -/
theorem Steps.polled (steps : Steps capacity queue events final) :
    min (polls events) queue.length ≤ (taken events).length := by
  induction steps with
  | nil => exact Nat.min_le_left _ _
  | cons step rest ih =>
      rw [polls, List.countP_cons, ← polls, taken, List.flatMap_cons, ← taken, List.length_append]
      cases step with
      | accept room =>
          rw [List.length_append, List.length_singleton] at ih
          simp only [Event.isPoll, Event.taken, List.length_nil, Bool.false_eq_true, if_false]
          omega
      | refuse full =>
          simp only [Event.isPoll, Event.taken, List.length_nil, Bool.false_eq_true, if_false]
          omega
      | take =>
          simp only [Event.isPoll, Event.taken, List.length_cons, List.length_nil, if_true]
          omega
      | starve =>
          exact Nat.le_trans (Nat.min_le_right _ _) (Nat.zero_le _)
      | silent =>
          simp only [Event.isPoll, Event.taken, List.length_nil, Bool.false_eq_true, if_false]
          omega

/-- The entries of the queue come out in order, one with each poll. -/
theorem Steps.polled_first (steps : Steps capacity queue events final) {count : Nat}
    (polled : count ≤ polls events) : queue.take count <+: taken events := by
  have enough := steps.polled
  have within : (queue.take count).length ≤ (taken events).length := by
    rw [List.length_take]
    omega
  have whole : taken events <+: queue ++ accepted events := ⟨final, steps.balance⟩
  have start : queue.take count <+: queue := List.take_prefix count queue
  have begins := start.trans (List.prefix_append queue (accepted events))
  exact List.prefix_of_prefix_length_le begins whole within

theorem Steps.of_run {σ β : Type} {step : σ → β → Option σ} {contents : σ → List α}
    {view : σ → β → Event α} (Inv : σ → Prop)
    (preserved : ∀ state action next, Inv state → step state action = some next → Inv next)
    (does : ∀ state action next, Inv state → step state action = some next →
      Step capacity (contents state) (view state action) (contents next))
    {actions : List β} : ∀ {state final : σ}, Inv state →
      Runs.run step state actions = some final →
      Steps capacity (contents state) (Runs.observe step view state actions)
        (contents final) := by
  induction actions with
  | nil =>
      intro state final _ ran
      cases ran
      exact .nil
  | cons action rest ih =>
      intro state final inv ran
      obtain ⟨next, stepped, ranRest⟩ := Runs.run_cons_some step ran
      rw [Runs.observe_cons step view rest stepped]
      exact .cons (does state action next inv stepped)
        (ih (preserved state action next inv stepped) ranRest)

end Steps

end BoundedFifo
