import CryptoTrading.Lib.BoundedFifo
import CryptoTrading.Lib.Runs
import Mathlib.Algebra.GroupWithZero.Nat
import Mathlib.Logic.Function.Basic

/-! # The shared-memory ring, one memory access at a time

`shm_push` and `shm_pop` of `ring_shm.hpp` as their atomic accesses: a call
stands before one of them and keeps what it has loaded so far.  Any number of
producers may be inside `shm_push`; the consumer is one. -/
set_option autoImplicit false

namespace CryptoTrading

/-- Two free-running counters and the slots they index modulo the capacity. -/
structure RingShm (α : Type) (capacity : Nat) where
  head : UInt64
  tail : UInt64
  entries : Fin capacity → α

/-- The access that a call of `shm_push` makes next. -/
inductive PushPoint where
  | loadTail
  | loadHead (tail : UInt64)
  | writeSlot (tail : UInt64)
  | storeTail (tail : UInt64)
  deriving DecidableEq

/-- The slot is written and the tail not stored yet. -/
def PushPoint.stores : PushPoint → Bool
  | .loadTail => false
  | .loadHead _ => false
  | .writeSlot _ => false
  | .storeTail _ => true

def PushPoint.loaded : PushPoint → Option UInt64
  | .loadTail => none
  | .loadHead tail => some tail
  | .writeSlot tail => some tail
  | .storeTail tail => some tail

/-- The access that a call of `shm_pop` makes next. -/
inductive PopPoint (α : Type) where
  | loadHead
  | loadTail (head : UInt64)
  | readSlot (head : UInt64)
  | storeHead (head : UInt64) (entry : α)

inductive CallState (Point Result : Type) where
  | running (point : Point)
  | returned (result : Result)

namespace RingShm

variable {α : Type} {capacity : Nat}

/-- `shm_create` clears the whole region; `zero` is the entry of zero bytes. -/
def create (zero : α) : RingShm α capacity := { head := 0, tail := 0, entries := fun _ => zero }

def setHead (ring : RingShm α capacity) (head : UInt64) : RingShm α capacity :=
  { ring with head := head }

def setTail (ring : RingShm α capacity) (tail : UInt64) : RingShm α capacity :=
  { ring with tail := tail }

variable [NeZero capacity]

/-- `index % Capacity`. -/
def slot (capacity : Nat) [NeZero capacity] (index : Nat) : Fin capacity := Fin.ofNat capacity index

def write (ring : RingShm α capacity) (index : UInt64) (entry : α) : RingShm α capacity :=
  { ring with entries := Function.update ring.entries (slot capacity index.toNat) entry }

def read (ring : RingShm α capacity) (index : UInt64) : α :=
  ring.entries (slot capacity index.toNat)

/-- One access of `shm_push`.  The fill level is a difference of counters, so it
is taken modulo `2 ^ 64`. -/
def pushStep (ring : RingShm α capacity) (entry : α) :
    PushPoint → RingShm α capacity × CallState PushPoint Bool
  | .loadTail => (ring, .running (.loadHead ring.tail))
  | .loadHead tail =>
      if (tail - ring.head).toNat ≥ capacity then (ring, .returned false)
      else (ring, .running (.writeSlot tail))
  | .writeSlot tail => (ring.write tail entry, .running (.storeTail tail))
  | .storeTail tail => (ring.setTail (tail + 1), .returned true)

/-- One access of `shm_pop`. -/
def popStep (ring : RingShm α capacity) :
    PopPoint α → RingShm α capacity × CallState (PopPoint α) (Option α)
  | .loadHead => (ring, .running (.loadTail ring.head))
  | .loadTail head =>
      if head ≥ ring.tail then (ring, .returned none) else (ring, .running (.readSlot head))
  | .readSlot head => (ring, .running (.storeHead head (ring.read head)))
  | .storeHead head entry => (ring.setHead (head + 1), .returned (some entry))

def unpopped (ring : RingShm α capacity) : List α :=
  (List.range' ring.head.toNat (ring.tail.toNat - ring.head.toNat)).map fun index =>
    ring.entries (slot capacity index)

end RingShm

/-! ## Producers and consumer -/

/-- The ring, the calls that have not returned, and the log of those that have:
the entries whose push returned true and the popped entries. -/
structure RingCalls (P α : Type) (capacity : Nat) where
  ring : RingShm α capacity
  pushing : P → Option (α × PushPoint) := fun _ => none
  popping : Option (PopPoint α) := none
  accepted : List α := []
  popped : List α := []

inductive RingAction (P α : Type) where
  | callPush (producer : P) (entry : α)
  | push (producer : P)
  | callPop
  | pop
  deriving DecidableEq

namespace RingCalls

variable {P α : Type} {capacity : Nat} [DecidableEq P]

def start (zero : α) : RingCalls P α capacity := { ring := RingShm.create zero }

def setRing (calls : RingCalls P α capacity) (ring : RingShm α capacity) :
    RingCalls P α capacity :=
  { calls with ring := ring }

def setPush (calls : RingCalls P α capacity) (producer : P) (call : Option (α × PushPoint)) :
    RingCalls P α capacity :=
  { calls with pushing := Function.update calls.pushing producer call }

def setPop (calls : RingCalls P α capacity) (call : Option (PopPoint α)) :
    RingCalls P α capacity :=
  { calls with popping := call }

def accept (calls : RingCalls P α capacity) (entry : α) : RingCalls P α capacity :=
  { calls with accepted := calls.accepted ++ [entry] }

def handOver (calls : RingCalls P α capacity) (entry : α) : RingCalls P α capacity :=
  { calls with popped := calls.popped ++ [entry] }

def afterPush (calls : RingCalls P α capacity) (producer : P) (entry : α)
    (result : RingShm α capacity × CallState PushPoint Bool) : RingCalls P α capacity :=
  match result.2 with
  | .running point => (calls.setRing result.1).setPush producer (some (entry, point))
  | .returned success =>
      let calls := (calls.setRing result.1).setPush producer none
      if success then calls.accept entry else calls

def afterPop (calls : RingCalls P α capacity)
    (result : RingShm α capacity × CallState (PopPoint α) (Option α)) : RingCalls P α capacity :=
  match result.2 with
  | .running point => (calls.setRing result.1).setPop (some point)
  | .returned none => (calls.setRing result.1).setPop none
  | .returned (some entry) => ((calls.setRing result.1).setPop none).handOver entry

variable [NeZero capacity]

/-- A thread starts a call when its last one has returned. -/
def step (calls : RingCalls P α capacity) : RingAction P α → Option (RingCalls P α capacity)
  | .callPush producer entry =>
      if (calls.pushing producer).isNone then
        some (calls.setPush producer (some (entry, .loadTail)))
      else none
  | .push producer =>
      (calls.pushing producer).map fun call =>
        calls.afterPush producer call.1 (calls.ring.pushStep call.1 call.2)
  | .callPop => if calls.popping.isNone then some (calls.setPop (some .loadHead)) else none
  | .pop => calls.popping.map fun point => calls.afterPop (calls.ring.popStep point)

open BoundedFifo (Event)

def pushEvent (entry : α) : CallState PushPoint Bool → Event α
  | .running _ => .silent
  | .returned true => .accept entry
  | .returned false => .refuse

def popEvent : CallState (PopPoint α) (Option α) → Event α
  | .running _ => .silent
  | .returned (some entry) => .take entry
  | .returned none => .starve

def event (calls : RingCalls P α capacity) : RingAction P α → Event α
  | .callPush _ _ => .silent
  | .push producer =>
      match calls.pushing producer with
      | none => .silent
      | some call => pushEvent call.1 (calls.ring.pushStep call.1 call.2).2
  | .callPop => .silent
  | .pop =>
      match calls.popping with
      | none => .silent
      | some point => popEvent (calls.ring.popStep point).2

end RingCalls

end CryptoTrading
