import Mathlib.Data.List.Basic

/-! # Bounded first-in first-out queues

The abstract queue as a labelled transition system on its contents.  An event
is what the caller of an operation gets to see; an implementation that takes
several steps for one operation has silent ones. -/
set_option autoImplicit false

namespace BoundedFifo

variable {α : Type}

inductive Event (α : Type) where
  | accept (entry : α)
  | refuse
  | take (entry : α)
  | starve
  | silent

inductive Step (capacity : Nat) : List α → Event α → List α → Prop
  | accept {queue : List α} {entry : α} (room : queue.length < capacity) :
      Step capacity queue (.accept entry) (queue ++ [entry])
  | refuse {queue : List α} (full : queue.length = capacity) : Step capacity queue .refuse queue
  | take {queue : List α} {entry : α} : Step capacity (entry :: queue) (.take entry) queue
  | starve : Step capacity [] .starve []
  | silent {queue : List α} : Step capacity queue .silent queue

namespace Event

def accepted : Event α → List α
  | .accept entry => [entry]
  | .refuse => []
  | .take _ => []
  | .starve => []
  | .silent => []

def taken : Event α → List α
  | .accept _ => []
  | .refuse => []
  | .take entry => [entry]
  | .starve => []
  | .silent => []

end Event

variable {capacity : Nat} {queue next : List α} {event : Event α}

theorem Step.full_of_refuse (step : Step capacity queue .refuse next) :
    queue.length = capacity := by
  cases step with
  | refuse full => exact full

theorem Step.empty_of_starve (step : Step capacity queue .starve next) : queue = [] := by
  cases step
  rfl

/-- Nothing is made up and nothing lost: what was taken and what is queued are
together what was accepted. -/
theorem Step.balance (step : Step capacity queue event next) {taken accepted : List α}
    (balanced : taken ++ queue = accepted) :
    taken ++ event.taken ++ next = accepted ++ event.accepted := by
  subst balanced
  cases step <;> simp [Event.taken, Event.accepted]

end BoundedFifo
