import CryptoTrading.Sdk.RingShm
import CryptoTrading.Sdk.Defs
import Mathlib.Data.Fintype.Basic
import Mathlib.Data.List.Infix

/-! # The ring as a bounded queue

The queue a ring stands for is what lies between head and tail.  The invariant
relates the counters, the copies that the calls in progress hold of them and
the slots; it survives every step except a producer's write behind a tail that
has moved on or is about to. -/
set_option autoImplicit false

namespace CryptoTrading

open BoundedFifo (Event)

namespace RingShm

variable {α : Type} {capacity : Nat} [NeZero capacity]

/-! ## Slots -/

theorem slot_ne_of_lt {first second : Nat} (lt : first < second)
    (within : second < first + capacity) : slot capacity first ≠ slot capacity second := by
  intro same
  have mods : second % capacity = first % capacity := (congrArg Fin.val same).symm
  have zero := Nat.sub_mod_eq_zero_of_mod_eq mods
  rw [Nat.mod_eq_of_lt (by omega)] at zero
  omega

theorem read_write_self (ring : RingShm α capacity) (index : UInt64) (entry : α) :
    (ring.write index entry).read index = entry := Function.update_self _ _ _

theorem length_unpopped (ring : RingShm α capacity) :
    ring.unpopped.length = ring.tail.toNat - ring.head.toNat := by
  simp [unpopped]

/-- With room for one more, the slot at tail is none of the queued ones. -/
theorem unpopped_write (ring : RingShm α capacity) (entry : α)
    (ordered : ring.head.toNat ≤ ring.tail.toNat)
    (room : ring.tail.toNat < ring.head.toNat + capacity) :
    (ring.write ring.tail entry).unpopped = ring.unpopped := by
  apply List.map_congr_left
  intro index member
  obtain ⟨low, high⟩ := List.mem_range'_1.mp member
  apply Function.update_of_ne
  exact slot_ne_of_lt (by simp only [write] at high; omega) (by simp only [write] at low; omega)

theorem read_head_write (ring : RingShm α capacity) (entry : α)
    (nonempty : ring.head.toNat < ring.tail.toNat)
    (room : ring.tail.toNat < ring.head.toNat + capacity) :
    (ring.write ring.tail entry).read ring.head = ring.read ring.head :=
  Function.update_of_ne (slot_ne_of_lt nonempty room) _ _

theorem unpopped_setTail (ring : RingShm α capacity)
    (ordered : ring.head.toNat ≤ ring.tail.toNat)
    (noWrap : (ring.tail + 1).toNat = ring.tail.toNat + 1) :
    (ring.setTail (ring.tail + 1)).unpopped = ring.unpopped ++ [ring.read ring.tail] := by
  have count : ring.tail.toNat + 1 - ring.head.toNat =
      ring.tail.toNat - ring.head.toNat + 1 := by omega
  simp only [unpopped, setTail, read]
  rw [noWrap, count, List.range'_concat, List.map_append]
  have last : ring.head.toNat + 1 * (ring.tail.toNat - ring.head.toNat) = ring.tail.toNat := by
    omega
  rw [last]
  rfl

theorem unpopped_setHead (ring : RingShm α capacity)
    (nonempty : ring.head.toNat < ring.tail.toNat)
    (noWrap : (ring.head + 1).toNat = ring.head.toNat + 1) :
    ring.unpopped = ring.read ring.head :: (ring.setHead (ring.head + 1)).unpopped := by
  have count : ring.tail.toNat - ring.head.toNat =
      ring.tail.toNat - (ring.head.toNat + 1) + 1 := by omega
  simp only [unpopped, setHead, read]
  rw [noWrap, count, List.range'_succ]
  rfl

theorem toNat_add_one {index : UInt64} (bounded : index.toNat + 1 < 2 ^ 64) :
    (index + 1).toNat = index.toNat + 1 := by
  rw [UInt64.toNat_add]
  exact Nat.mod_eq_of_lt bounded

end RingShm

namespace RingCalls

variable {P α : Type} {capacity : Nat} [NeZero capacity]

/-! ## What one step can do -/

section Effects
variable [DecidableEq P]

/-- One constructor an access, with the guard under which it is taken. -/
inductive Effect (calls : RingCalls P α capacity) :
    RingAction P α → Event α → RingCalls P α capacity → Prop
  | callPush {producer : P} {entry : α} (idle : calls.pushing producer = none) :
      Effect calls (.callPush producer entry) .silent
        (calls.setPush producer (some (entry, .loadTail)))
  | loadTail {producer : P} {entry : α} (here : calls.pushing producer = some (entry, .loadTail)) :
      Effect calls (.push producer) .silent
        (calls.setPush producer (some (entry, .loadHead calls.ring.tail)))
  | refused {producer : P} {entry : α} {tail : UInt64}
      (here : calls.pushing producer = some (entry, .loadHead tail))
      (full : capacity ≤ (tail - calls.ring.head).toNat) :
      Effect calls (.push producer) .refuse (calls.setPush producer none)
  | admitted {producer : P} {entry : α} {tail : UInt64}
      (here : calls.pushing producer = some (entry, .loadHead tail))
      (room : (tail - calls.ring.head).toNat < capacity) :
      Effect calls (.push producer) .silent
        (calls.setPush producer (some (entry, .writeSlot tail)))
  | wrote {producer : P} {entry : α} {tail : UInt64}
      (here : calls.pushing producer = some (entry, .writeSlot tail)) :
      Effect calls (.push producer) .silent
        ((calls.setRing (calls.ring.write tail entry)).setPush producer
          (some (entry, .storeTail tail)))
  | stored {producer : P} {entry : α} {tail : UInt64}
      (here : calls.pushing producer = some (entry, .storeTail tail)) :
      Effect calls (.push producer) (.accept entry)
        (((calls.setRing (calls.ring.setTail (tail + 1))).setPush producer none).accept entry)
  | callPop (idle : calls.popping = none) :
      Effect calls .callPop .silent (calls.setPop (some .loadHead))
  | loadHead (here : calls.popping = some .loadHead) :
      Effect calls .pop .silent (calls.setPop (some (.loadTail calls.ring.head)))
  | starved {head : UInt64} (here : calls.popping = some (.loadTail head))
      (empty : calls.ring.tail ≤ head) :
      Effect calls .pop .starve (calls.setPop none)
  | found {head : UInt64} (here : calls.popping = some (.loadTail head))
      (nonempty : ¬ calls.ring.tail ≤ head) :
      Effect calls .pop .silent (calls.setPop (some (.readSlot head)))
  | fetched {head : UInt64} (here : calls.popping = some (.readSlot head)) :
      Effect calls .pop .silent (calls.setPop (some (.storeHead head (calls.ring.read head))))
  | took {head : UInt64} {entry : α} (here : calls.popping = some (.storeHead head entry)) :
      Effect calls .pop (.take entry)
        (((calls.setRing (calls.ring.setHead (head + 1))).setPop none).handOver entry)

theorem effect_push {calls : RingCalls P α capacity} {producer : P} {entry : α}
    {point : PushPoint} (here : calls.pushing producer = some (entry, point)) :
    Effect calls (.push producer) (pushEvent entry (calls.ring.pushStep entry point).2)
      (calls.afterPush producer entry (calls.ring.pushStep entry point)) := by
  cases point with
  | loadTail => exact .loadTail here
  | loadHead tail =>
      rw [RingShm.pushStep]
      by_cases full : (tail - calls.ring.head).toNat ≥ capacity
      · rw [if_pos full]
        exact .refused here full
      · rw [if_neg full]
        exact .admitted here (Nat.lt_of_not_le full)
  | writeSlot tail => exact .wrote here
  | storeTail tail => exact .stored here

theorem effect_pop {calls : RingCalls P α capacity} {point : PopPoint α}
    (here : calls.popping = some point) :
    Effect calls .pop (popEvent (calls.ring.popStep point).2)
      (calls.afterPop (calls.ring.popStep point)) := by
  cases point with
  | loadHead => exact .loadHead here
  | loadTail head =>
      rw [RingShm.popStep]
      by_cases empty : head ≥ calls.ring.tail
      · rw [if_pos empty]
        exact .starved here empty
      · rw [if_neg empty]
        exact .found here empty
  | readSlot head => exact .fetched here
  | storeHead head entry => exact .took here

theorem effect_of_step {calls next : RingCalls P α capacity} {action : RingAction P α}
    (stepped : calls.step action = some next) :
    Effect calls action (calls.event action) next := by
  cases action with
  | callPush producer entry =>
      rw [step] at stepped
      split at stepped
      · rename_i idle
        cases stepped
        exact .callPush (Option.isNone_iff_eq_none.mp idle)
      · cases stepped
  | push producer =>
      rw [step] at stepped
      obtain ⟨call, here, rfl⟩ := Option.map_eq_some_iff.mp stepped
      rw [event, here]
      exact effect_push here
  | callPop =>
      rw [step] at stepped
      split at stepped
      · rename_i idle
        cases stepped
        exact .callPop (Option.isNone_iff_eq_none.mp idle)
      · cases stepped
  | pop =>
      rw [step] at stepped
      obtain ⟨point, here, rfl⟩ := Option.map_eq_some_iff.mp stepped
      rw [event, here]
      exact effect_pop here

theorem Effect.log {calls next : RingCalls P α capacity} {action : RingAction P α}
    {event : Event α} (effect : Effect calls action event next) :
    next.accepted = calls.accepted ++ event.accepted ∧
      next.popped = calls.popped ++ event.taken := by
  cases effect <;> simp [Event.accepted, Event.taken, setPush, setPop, setRing, accept, handOver]

end Effects

/-! ## The invariant -/

def PushOk (ring : RingShm α capacity) (entry : α) : PushPoint → Prop
  | .loadTail => True
  | .loadHead tail => tail.toNat ≤ ring.tail.toNat
  | .writeSlot tail => tail.toNat ≤ ring.tail.toNat ∧
      (tail = ring.tail → ring.tail.toNat < ring.head.toNat + capacity)
  | .storeTail tail => tail = ring.tail ∧ ring.tail.toNat < ring.head.toNat + capacity ∧
      ring.read tail = entry

def PopOk (ring : RingShm α capacity) : PopPoint α → Prop
  | .loadHead => True
  | .loadTail head => head = ring.head
  | .readSlot head => head = ring.head ∧ ring.head.toNat < ring.tail.toNat
  | .storeHead head entry => head = ring.head ∧ ring.head.toNat < ring.tail.toNat ∧
      ring.read head = entry

def Storing (calls : RingCalls P α capacity) (producer : P) : Prop :=
  (calls.pushing producer).any (fun call => call.2.stores) = true

instance (calls : RingCalls P α capacity) (producer : P) : Decidable (calls.Storing producer) :=
  inferInstanceAs (Decidable (_ = true))

structure RingInv (calls : RingCalls P α capacity) : Prop where
  ordered : calls.ring.head.toNat ≤ calls.ring.tail.toNat
  bounded : calls.ring.tail.toNat ≤ calls.ring.head.toNat + capacity
  pushing : ∀ producer entry point, calls.pushing producer = some (entry, point) →
    PushOk calls.ring entry point
  popping : ∀ point, calls.popping = some point → PopOk calls.ring point
  oneStore : ∀ first second, calls.Storing first → calls.Storing second → first = second
  counted : calls.ring.tail.toNat = calls.accepted.length

theorem ringInv_start (zero : α) : RingInv (start zero : RingCalls P α capacity) where
  ordered := Nat.le_refl _
  bounded := Nat.zero_le _
  pushing := by
    intro producer entry point here
    cases here
  popping := by
    intro point here
    cases here
  oneStore := by
    intro first second storing
    cases storing
  counted := rfl

theorem RingInv.setPop {calls : RingCalls P α capacity} (inv : RingInv calls)
    {call : Option (PopPoint α)}
    (here : ∀ point, call = some point → PopOk calls.ring point) :
    RingInv (calls.setPop call) where
  ordered := inv.ordered
  bounded := inv.bounded
  pushing := inv.pushing
  popping := here
  oneStore := inv.oneStore
  counted := inv.counted

theorem pushOk_of_not_stores {ring other : RingShm α capacity} {entry : α} {point : PushPoint}
    (ok : PushOk ring entry point) (notStoring : point.stores = false)
    (heads : ring.head.toNat ≤ other.head.toNat) (tails : ring.tail = other.tail) :
    PushOk other entry point := by
  cases point with
  | loadTail => trivial
  | loadHead tail =>
      rw [PushOk] at ok ⊢
      rwa [← tails]
  | writeSlot tail =>
      rw [PushOk] at ok ⊢
      rw [← tails]
      exact ⟨ok.1, fun same => by have := ok.2 same; omega⟩
  | storeTail tail => cases notStoring

theorem RingInv.write {calls : RingCalls P α capacity} (inv : RingInv calls) (entry : α)
    (room : calls.ring.tail.toNat < calls.ring.head.toNat + capacity)
    (quiet : ∀ producer, ¬ calls.Storing producer) :
    RingInv (calls.setRing (calls.ring.write calls.ring.tail entry)) where
  ordered := inv.ordered
  bounded := inv.bounded
  pushing := by
    intro producer other point here
    have notStoring : point.stores = false := by
      have := quiet producer
      rw [Storing, show calls.pushing producer = some (other, point) from here] at this
      simpa using this
    exact pushOk_of_not_stores (inv.pushing producer other point here) notStoring
      (Nat.le_refl _) rfl
  popping := by
    intro point here
    have ok := inv.popping point here
    cases point with
    | loadHead => trivial
    | loadTail head => exact ok
    | readSlot head => exact ok
    | storeHead head held =>
        obtain ⟨rfl, nonempty, fetched⟩ := ok
        exact ⟨rfl, nonempty,
          (RingShm.read_head_write calls.ring entry nonempty room).trans fetched⟩
  oneStore := inv.oneStore
  counted := inv.counted

theorem RingInv.store {calls : RingCalls P α capacity} (inv : RingInv calls) (entry : α)
    (room : calls.ring.tail.toNat < calls.ring.head.toNat + capacity)
    (quiet : ∀ producer, ¬ calls.Storing producer)
    (noWrap : (calls.ring.tail + 1).toNat = calls.ring.tail.toNat + 1) :
    RingInv ((calls.setRing (calls.ring.setTail (calls.ring.tail + 1))).accept entry) where
  ordered := by
    show calls.ring.head.toNat ≤ (calls.ring.tail + 1).toNat
    have := inv.ordered
    omega
  bounded := by
    show (calls.ring.tail + 1).toNat ≤ calls.ring.head.toNat + capacity
    omega
  pushing := by
    intro producer entry point here
    have ok := inv.pushing producer entry point here
    cases point with
    | loadTail => trivial
    | loadHead tail =>
        show tail.toNat ≤ (calls.ring.tail + 1).toNat
        rw [PushOk] at ok
        omega
    | writeSlot tail =>
        show tail.toNat ≤ (calls.ring.tail + 1).toNat ∧ (tail = calls.ring.tail + 1 → _)
        refine ⟨by have := ok.1; omega, fun same => ?_⟩
        have stale := ok.1
        rw [same] at stale
        omega
    | storeTail tail =>
        have := quiet producer
        rw [Storing, show calls.pushing producer = some (entry, .storeTail tail) from here] at this
        exact absurd rfl this
  popping := by
    intro point here
    have ok := inv.popping point here
    have grown : calls.ring.tail.toNat < (calls.ring.tail + 1).toNat := by omega
    cases point with
    | loadHead => trivial
    | loadTail head => exact ok
    | readSlot head => exact ⟨ok.1, Nat.lt_trans ok.2 grown⟩
    | storeHead head held => exact ⟨ok.1, Nat.lt_trans ok.2.1 grown, ok.2.2⟩
  oneStore := inv.oneStore
  counted := by
    show (calls.ring.tail + 1).toNat = _
    rw [noWrap, inv.counted]
    simp [accept, setRing]

theorem RingInv.take {calls : RingCalls P α capacity} (inv : RingInv calls)
    (nonempty : calls.ring.head.toNat < calls.ring.tail.toNat)
    (idle : calls.popping = none) (entry : α) :
    RingInv ((calls.setRing (calls.ring.setHead (calls.ring.head + 1))).handOver entry) := by
  have noWrap : (calls.ring.head + 1).toNat = calls.ring.head.toNat + 1 :=
    RingShm.toNat_add_one (by have := calls.ring.tail.toNat_lt; omega)
  refine ⟨?_, ?_, ?_, ?_, inv.oneStore, inv.counted⟩
  · show (calls.ring.head + 1).toNat ≤ calls.ring.tail.toNat
    omega
  · show calls.ring.tail.toNat ≤ (calls.ring.head + 1).toNat + capacity
    have := inv.bounded
    omega
  · intro producer entry point here
    have ok := inv.pushing producer entry point here
    cases point with
    | loadTail => trivial
    | loadHead tail => exact ok
    | writeSlot tail =>
        show tail.toNat ≤ calls.ring.tail.toNat ∧
          (tail = calls.ring.tail → calls.ring.tail.toNat < (calls.ring.head + 1).toNat + capacity)
        exact ⟨ok.1, fun same => by have := ok.2 same; omega⟩
    | storeTail tail =>
        obtain ⟨current, room, written⟩ := ok
        refine ⟨current, ?_, written⟩
        show calls.ring.tail.toNat < (calls.ring.head + 1).toNat + capacity
        omega
  · intro point here
    cases (idle : calls.popping = none).symm.trans here
/-! ## Steps that keep it -/

section Steps
variable [DecidableEq P]

omit [NeZero capacity] in
theorem storing_setPush (calls : RingCalls P α capacity) (producer other : P)
    (call : Option (α × PushPoint)) :
    (calls.setPush producer call).Storing other ↔
      if other = producer then call.any (fun call => call.2.stores) = true
      else calls.Storing other := by
  rw [Storing, setPush]
  by_cases same : other = producer
  · subst same
    simp
  · simp [same, Storing]

theorem RingInv.setPush {calls : RingCalls P α capacity} (inv : RingInv calls) {producer : P}
    {call : Option (α × PushPoint)}
    (here : ∀ entry point, call = some (entry, point) → PushOk calls.ring entry point)
    (alone : call.any (fun call => call.2.stores) = true →
      ∀ other, other ≠ producer → ¬ calls.Storing other) :
    RingInv (calls.setPush producer call) where
  ordered := inv.ordered
  bounded := inv.bounded
  pushing := by
    intro other entry point at_
    by_cases same : other = producer
    · subst same
      exact here entry point (by simpa [RingCalls.setPush] using at_)
    · exact inv.pushing other entry point (by simpa [RingCalls.setPush, same] using at_)
  popping := inv.popping
  oneStore := by
    intro first second storingFirst storingSecond
    rw [storing_setPush] at storingFirst storingSecond
    split at storingFirst <;> split at storingSecond
    · rename_i isFirst isSecond
      rw [isFirst, isSecond]
    · rename_i isFirst notSecond
      exact absurd storingSecond (alone storingFirst second notSecond)
    · rename_i notFirst isSecond
      exact absurd storingFirst (alone storingSecond first notFirst)
    · exact inv.oneStore first second storingFirst storingSecond
  counted := inv.counted

/-- A producer writes its slot although the tail has moved on since it loaded
it, or another producer has written the same slot and is about to store. -/
def Races (calls : RingCalls P α capacity) : RingAction P α → Prop
  | .push producer =>
      match calls.pushing producer with
      | some (_, .writeSlot tail) =>
          tail ≠ calls.ring.tail ∨ ∃ other, other ≠ producer ∧ calls.Storing other
      | _ => False
  | .callPush _ _ => False
  | .callPop => False
  | .pop => False

theorem RingInv.clearPush {calls : RingCalls P α capacity} (inv : RingInv calls) (producer : P) :
    RingInv (calls.setPush producer none) := by
  refine inv.setPush ?_ ?_
  · intro entry point here
    cases here
  · intro storing
    cases storing

theorem RingInv.movePush {calls : RingCalls P α capacity} (inv : RingInv calls) {producer : P}
    {entry : α} {point : PushPoint} (ok : PushOk calls.ring entry point)
    (notStoring : point.stores = false) :
    RingInv (calls.setPush producer (some (entry, point))) := by
  refine inv.setPush ?_ ?_
  · intro other otherPoint here
    cases here
    exact ok
  · intro storing
    rw [Option.any_some, notStoring] at storing
    cases storing

omit [DecidableEq P] in
theorem RingInv.movePop {calls : RingCalls P α capacity} (inv : RingInv calls)
    {point : PopPoint α} (ok : PopOk calls.ring point) :
    RingInv (calls.setPop (some point)) := by
  refine inv.setPop ?_
  intro other here
  cases here
  exact ok

omit [DecidableEq P] in
theorem RingInv.clearPop {calls : RingCalls P α capacity} (inv : RingInv calls) :
    RingInv (calls.setPop none) := by
  refine inv.setPop ?_
  intro point here
  cases here

omit [DecidableEq P] in
theorem RingInv.level {calls : RingCalls P α capacity} (inv : RingInv calls) :
    (calls.ring.tail - calls.ring.head).toNat =
      calls.ring.tail.toNat - calls.ring.head.toNat :=
  UInt64.toNat_sub_of_le _ _ (UInt64.le_iff_toNat_le.mpr inv.ordered)

theorem RingInv.writer {calls : RingCalls P α capacity} (inv : RingInv calls) {producer : P}
    {entry : α} {tail : UInt64} (here : calls.pushing producer = some (entry, .writeSlot tail))
    (calm : ¬ calls.Races (.push producer)) :
    tail = calls.ring.tail ∧ calls.ring.tail.toNat < calls.ring.head.toNat + capacity ∧
      ∀ other, ¬ calls.Storing other := by
  simp only [Races, here, not_or, not_not, not_exists, not_and] at calm
  obtain ⟨current, others⟩ := calm
  refine ⟨current, (inv.pushing producer entry _ here).2 current, ?_⟩
  intro other
  by_cases same : other = producer
  · rw [same, Storing, here]
    simp [PushPoint.stores]
  · exact others other same

theorem RingInv.storer {calls : RingCalls P α capacity} (inv : RingInv calls) {producer : P}
    {entry : α} {tail : UInt64} (here : calls.pushing producer = some (entry, .storeTail tail))
    (other : P) : ¬ (calls.setPush producer none).Storing other := by
  rw [storing_setPush]
  split
  · simp
  · rename_i different
    intro storing
    have atStore : calls.Storing producer := by
      rw [Storing, here]
      rfl
    exact different (inv.oneStore other producer storing atStore)

theorem Effect.inv {calls next : RingCalls P α capacity} {action : RingAction P α}
    {event : Event α} (effect : Effect calls action event next) (inv : RingInv calls)
    (calm : ¬ calls.Races action) (bounded : next.accepted.length < 2 ^ 64) :
    RingInv next := by
  cases effect with
  | callPush idle => exact inv.movePush trivial rfl
  | loadTail here => exact inv.movePush (Nat.le_refl _) rfl
  | refused here full => exact inv.clearPush _
  | admitted here room =>
      refine inv.movePush ⟨inv.pushing _ _ _ here, fun current => ?_⟩ rfl
      rw [current, inv.level] at room
      have := inv.ordered
      omega
  | wrote here =>
      obtain ⟨rfl, room, quiet⟩ := inv.writer here calm
      refine (inv.write _ room quiet).setPush ?_ (fun _ other _ => quiet other)
      intro entry point at_
      cases at_
      exact ⟨rfl, room, RingShm.read_write_self _ _ _⟩
  | stored here =>
      obtain ⟨rfl, room, -⟩ := inv.pushing _ _ _ here
      refine (inv.clearPush _).store _ room (inv.storer here) ?_
      apply RingShm.toNat_add_one
      simp only [accept, List.length_append, List.length_singleton] at bounded
      exact (congrArg (· + 1) inv.counted).trans_lt bounded
  | callPop idle => exact inv.movePop trivial
  | loadHead here => exact inv.movePop rfl
  | starved here empty => exact inv.clearPop
  | found here nonempty =>
      have current := inv.popping _ here
      refine inv.movePop ⟨current, ?_⟩
      rw [← show _ = calls.ring.head from current]
      exact UInt64.lt_iff_toNat_lt.mp (UInt64.not_le.mp nonempty)
  | fetched here =>
      have ok := inv.popping _ here
      exact inv.movePop ⟨ok.1, ok.2, rfl⟩
  | took here =>
      obtain ⟨rfl, nonempty, -⟩ := inv.popping _ here
      exact inv.clearPop.take nonempty rfl _

/-! ## The queue -/

/-- What was popped and what the ring holds are together what was accepted. -/
def Delivered (calls : RingCalls P α capacity) : Prop :=
  calls.popped ++ calls.ring.unpopped = calls.accepted

theorem Effect.queue {calls next : RingCalls P α capacity} {action : RingAction P α}
    {event : Event α} (effect : Effect calls action event next) (inv : RingInv calls)
    (calm : ¬ calls.Races action) (bounded : next.accepted.length < 2 ^ 64)
    (notRefused : event ≠ .refuse) :
    BoundedFifo.Step capacity calls.ring.unpopped event next.ring.unpopped := by
  cases effect with
  | callPush idle => exact .silent
  | loadTail here => exact .silent
  | refused here full => exact absurd rfl notRefused
  | admitted here room => exact .silent
  | @wrote producer entry tail here =>
      obtain ⟨rfl, room, -⟩ := inv.writer here calm
      have unchanged := RingShm.unpopped_write calls.ring entry inv.ordered room
      exact unchanged ▸ .silent
  | stored here =>
      obtain ⟨rfl, room, rfl⟩ := inv.pushing _ _ _ here
      simp only [accept, List.length_append, List.length_singleton] at bounded
      have noWrap := RingShm.toNat_add_one ((congrArg (· + 1) inv.counted).trans_lt bounded)
      have grown := RingShm.unpopped_setTail calls.ring inv.ordered noWrap
      have short : calls.ring.unpopped.length < capacity := by
        have := inv.ordered
        rw [RingShm.length_unpopped]
        omega
      exact grown ▸ .accept short
  | callPop idle => exact .silent
  | loadHead here => exact .silent
  | starved here empty =>
      have current := inv.popping _ here
      have below := UInt64.le_iff_toNat_le.mp empty
      rw [show _ = calls.ring.head from current] at below
      have nothing : calls.ring.unpopped = [] := by
        apply List.eq_nil_of_length_eq_zero
        rw [RingShm.length_unpopped]
        omega
      exact nothing ▸ .starve
  | found here nonempty => exact .silent
  | fetched here => exact .silent
  | took here =>
      obtain ⟨rfl, nonempty, rfl⟩ := inv.popping _ here
      have noWrap : (calls.ring.head + 1).toNat = calls.ring.head.toNat + 1 :=
        RingShm.toNat_add_one (by have := calls.ring.tail.toNat_lt; omega)
      have shrunk := RingShm.unpopped_setHead calls.ring nonempty noWrap
      exact shrunk ▸ .take

theorem Effect.ring_of_refused {calls next : RingCalls P α capacity} {action : RingAction P α}
    (effect : Effect calls action .refuse next) : next.ring = calls.ring := by
  cases effect
  rfl

theorem Effect.delivered {calls next : RingCalls P α capacity} {action : RingAction P α}
    {event : Event α} (effect : Effect calls action event next) (inv : RingInv calls)
    (calm : ¬ calls.Races action) (bounded : next.accepted.length < 2 ^ 64)
    (delivered : calls.Delivered) : next.Delivered := by
  obtain ⟨accepted, popped⟩ := effect.log
  by_cases refused : event = .refuse
  · subst refused
    rw [Delivered, effect.ring_of_refused, accepted, popped]
    rw [Delivered] at delivered
    simpa [Event.accepted, Event.taken] using delivered
  · rw [Delivered, accepted, popped]
    exact (effect.queue inv calm bounded refused).balance delivered

/-! ## Several producers -/

def Wraps (calls : RingCalls P α capacity) : RingAction P α → Prop
  | .push producer =>
      match calls.pushing producer with
      | some (_, .storeTail tail) => tail + 1 = 0
      | _ => False
  | .callPush _ _ => False
  | .callPop => False
  | .pop => False

/-- The log of accepted entries stays below `2 ^ 64` as long as the tail does. -/
theorem Effect.bounded {calls next : RingCalls P α capacity} {action : RingAction P α}
    {event : Event α} (effect : Effect calls action event next) (inv : RingInv calls)
    (noWrap : ¬ calls.Wraps action) : next.accepted.length < 2 ^ 64 := by
  have before : calls.accepted.length < 2 ^ 64 := inv.counted ▸ calls.ring.tail.toNat_lt
  cases effect with
  | stored here =>
      obtain ⟨rfl, -, -⟩ := inv.pushing _ _ _ here
      simp only [Wraps, here] at noWrap
      have notLast : calls.ring.tail.toNat + 1 ≠ 2 ^ 64 := by
        intro last
        apply noWrap
        apply UInt64.toNat_inj.mp
        rw [UInt64.toNat_add]
        show (calls.ring.tail.toNat + 1) % 2 ^ 64 = 0
        rw [last, Nat.mod_self]
      rw [inv.counted] at notLast
      simp only [accept, setPush, setRing, List.length_append, List.length_singleton]
      omega
  | callPush idle => exact before
  | loadTail here => exact before
  | refused here full => exact before
  | admitted here room => exact before
  | wrote here => exact before
  | callPop idle => exact before
  | loadHead here => exact before
  | starved here empty => exact before
  | found here nonempty => exact before
  | fetched here => exact before
  | took here => exact before

/-- The steps with which entries can get lost. -/
def Clobbers (calls : RingCalls P α capacity) (action : RingAction P α) : Prop :=
  calls.Races action ∨ calls.Wraps action

instance [Fintype P] (calls : RingCalls P α capacity) (action : RingAction P α) :
    Decidable (calls.Clobbers action) := by
  unfold Clobbers Races Wraps
  cases action with
  | push producer =>
      dsimp only
      split <;> split <;> infer_instance
  | callPush producer entry => exact inferInstanceAs (Decidable (False ∨ False))
  | callPop => exact inferInstanceAs (Decidable (False ∨ False))
  | pop => exact inferInstanceAs (Decidable (False ∨ False))

/-- No entry is lost while no producer writes over another one's slot and the
tail counter stays in its range. -/
theorem delivered_of_run [Fintype P] {zero : α} {actions : List (RingAction P α)}
    {calls : RingCalls P α capacity} (ran : Runs.run step (start zero) actions = some calls)
    (calm : Runs.count step Clobbers (start zero : RingCalls P α capacity) actions = 0) :
    RingInv calls ∧ calls.Delivered := by
  refine Runs.run_induction_avoiding step _
    (fun calls : RingCalls P α capacity => RingInv calls ∧ calls.Delivered)
    ?_ ⟨ringInv_start zero, rfl⟩ calm ran
  intro calls action next avoided inv stepped
  obtain ⟨noRace, noWrap⟩ := not_or.mp avoided
  have effect := effect_of_step stepped
  have bounded := effect.bounded inv.1 noWrap
  exact ⟨effect.inv inv.1 noRace bounded, effect.delivered inv.1 noRace bounded inv.2⟩

/-! ## One producer -/

def Current (calls : RingCalls P α capacity) : Prop :=
  ∀ producer entry point, calls.pushing producer = some (entry, point) →
    ∀ tail ∈ point.loaded, tail = calls.ring.tail

omit [NeZero capacity] in
theorem Current.setPush [Subsingleton P] {calls : RingCalls P α capacity} {producer : P}
    {call : Option (α × PushPoint)}
    (here : ∀ entry point, call = some (entry, point) →
      ∀ tail ∈ point.loaded, tail = calls.ring.tail) :
    Current (calls.setPush producer call) := by
  intro other entry point at_
  rw [Subsingleton.elim other producer] at at_
  exact here entry point (by simpa [RingCalls.setPush] using at_)

theorem Effect.current [Subsingleton P] {calls next : RingCalls P α capacity}
    {action : RingAction P α} {event : Event α} (effect : Effect calls action event next)
    (current : Current calls) : Current next := by
  cases effect with
  | callPush idle => exact .setPush (by simp [PushPoint.loaded])
  | loadTail here => exact .setPush (by simp [PushPoint.loaded])
  | refused here full => exact .setPush (by simp)
  | admitted here room =>
      have same := current _ _ _ here
      exact .setPush (by simpa [PushPoint.loaded] using same)
  | wrote here =>
      have same := current _ _ _ here
      exact .setPush (by simpa [PushPoint.loaded, setRing, RingShm.write] using same)
  | stored here => exact .setPush (by simp)
  | callPop idle => exact current
  | loadHead here => exact current
  | starved here empty => exact current
  | found here nonempty => exact current
  | fetched here => exact current
  | took here => exact current

omit [NeZero capacity] [DecidableEq P] in
theorem Current.not_races [Subsingleton P] {calls : RingCalls P α capacity}
    (current : Current calls) (action : RingAction P α) : ¬ calls.Races action := by
  cases action with
  | callPush producer entry => exact id
  | push producer =>
      rw [Races]
      split
      · rename_i entry tail here
        rintro (stale | ⟨other, different, _⟩)
        · exact stale (current producer entry _ here tail rfl)
        · exact different (Subsingleton.elim other producer)
      · exact id
  | callPop => exact id
  | pop => exact id

theorem Effect.full_of_refused {calls next : RingCalls P α capacity} {action : RingAction P α}
    (effect : Effect calls action .refuse next) (inv : RingInv calls) (current : Current calls) :
    BoundedFifo.Step capacity calls.ring.unpopped .refuse next.ring.unpopped := by
  cases effect with
  | refused here full =>
      have same := current _ _ _ here _ rfl
      rw [same, inv.level] at full
      refine .refuse ?_
      have := inv.bounded
      rw [RingShm.length_unpopped]
      omega

/-- What holds of a ring with one producer as long as its counters do not wrap. -/
structure SoleInv (calls : RingCalls P α capacity) : Prop where
  ring : RingInv calls
  current : Current calls
  delivered : calls.Delivered

omit [DecidableEq P] in
theorem soleInv_start (zero : α) : SoleInv (start zero : RingCalls P α capacity) where
  ring := ringInv_start zero
  current := by
    intro producer entry point here
    cases here
  delivered := rfl

theorem SoleInv.step [Subsingleton P] {calls next : RingCalls P α capacity}
    {action : RingAction P α} (inv : SoleInv calls) (stepped : calls.step action = some next)
    (bounded : next.accepted.length < 2 ^ 64) : SoleInv next := by
  have effect := effect_of_step stepped
  have calm := inv.current.not_races action
  exact ⟨effect.inv inv.ring calm bounded, effect.current inv.current,
    effect.delivered inv.ring calm bounded inv.delivered⟩

theorem soleInv_of_run [Subsingleton P] {zero : α} {actions : List (RingAction P α)}
    {calls : RingCalls P α capacity} (ran : Runs.run step (start zero) actions = some calls)
    (bounded : calls.accepted.length < 2 ^ 64) : SoleInv calls := by
  refine Runs.run_induction step
    (fun calls : RingCalls P α capacity => calls.accepted.length < 2 ^ 64 → SoleInv calls)
    ?_ (fun _ => soleInv_start zero) ran bounded
  intro calls action next inv stepped nextBounded
  have grown := (effect_of_step stepped).log.1
  refine (inv ?_).step stepped nextBounded
  rw [grown, List.length_append] at nextBounded
  omega

theorem SoleInv.queue [Subsingleton P] {calls next : RingCalls P α capacity}
    {action : RingAction P α} (inv : SoleInv calls) (stepped : calls.step action = some next)
    (bounded : next.accepted.length < 2 ^ 64) :
    BoundedFifo.Step capacity calls.ring.unpopped (calls.event action) next.ring.unpopped := by
  have effect := effect_of_step stepped
  by_cases refused : calls.event action = .refuse
  · rw [refused] at effect ⊢
    exact effect.full_of_refused inv.ring inv.current
  · exact effect.queue inv.ring (inv.current.not_races action) bounded refused

end Steps

/-- The slot at `tail` holds no entry between head and tail, and none that the
consumer is reading. -/
def SlotFree (calls : RingCalls P α capacity) (tail : UInt64) : Prop :=
  (∀ index, calls.ring.head.toNat ≤ index → index < calls.ring.tail.toNat →
    RingShm.slot capacity index ≠ RingShm.slot capacity tail.toNat) ∧
  ∀ head, calls.popping = some (.readSlot head) →
    RingShm.slot capacity head.toNat ≠ RingShm.slot capacity tail.toNat

theorem SoleInv.slotFree {calls : RingCalls P α capacity} (inv : SoleInv calls) {producer : P}
    {entry : α} {tail : UInt64} (here : calls.pushing producer = some (entry, .writeSlot tail)) :
    calls.SlotFree tail := by
  have same : tail = calls.ring.tail := inv.current producer entry _ here tail rfl
  have room := (inv.ring.pushing producer entry _ here).2 same
  have distinct : ∀ index, calls.ring.head.toNat ≤ index → index < calls.ring.tail.toNat →
      RingShm.slot capacity index ≠ RingShm.slot capacity tail.toNat := by
    intro index low high
    rw [same]
    exact RingShm.slot_ne_of_lt high (by omega)
  refine ⟨distinct, ?_⟩
  intro head reading
  obtain ⟨rfl, nonempty⟩ := inv.ring.popping _ reading
  exact distinct _ (Nat.le_refl _) nonempty

theorem SoleInv.counts {calls : RingCalls P α capacity} (inv : SoleInv calls) :
    calls.accepted.length = calls.popped.length + calls.ring.unpopped.length := by
  rw [← List.length_append, inv.delivered]

theorem SoleInv.bounded {calls : RingCalls P α capacity} (inv : SoleInv calls) :
    calls.accepted.length ≤ calls.popped.length + capacity := by
  have := inv.ring.bounded
  rw [inv.counts, RingShm.length_unpopped]
  omega

end RingCalls

/-! ## The ring refines a bounded queue -/

/-- With one producer and one consumer, interleaved access by access. -/
theorem ring_refines_boundedFifo {α : Type} {capacity : Nat} [NeZero capacity] (zero : α)
    (actions : List (RingAction Unit α)) (calls : RingCalls Unit α capacity)
    (ran : Runs.run RingCalls.step (RingCalls.start zero) actions = some calls)
    (fewer : calls.accepted.length < 2 ^ 64) :
    calls.popped <+: calls.accepted ∧
      calls.popped ++ calls.ring.unpopped = calls.accepted ∧
      calls.accepted.length ≤ calls.popped.length + capacity ∧
      (∀ entry tail, calls.pushing () = some (entry, .writeSlot tail) → calls.SlotFree tail) ∧
      ∀ action next, calls.step action = some next → next.accepted.length < 2 ^ 64 →
        BoundedFifo.Step capacity calls.ring.unpopped (calls.event action) next.ring.unpopped ∧
          (calls.event action = .refuse →
            calls.accepted.length = calls.popped.length + capacity) ∧
          (calls.event action = .starve → calls.popped = calls.accepted) := by
  have inv := RingCalls.soleInv_of_run ran fewer
  refine ⟨⟨_, inv.delivered⟩, inv.delivered, inv.bounded, ?_, ?_⟩
  · intro entry tail here
    exact inv.slotFree here
  · intro action next stepped nextFewer
    have queue := inv.queue stepped nextFewer
    refine ⟨queue, ?_, ?_⟩
    · intro refused
      rw [refused] at queue
      rw [inv.counts, queue.full_of_refuse]
    · intro starved
      rw [starved] at queue
      rw [← inv.delivered, queue.empty_of_starve, List.append_nil]

/-- One slot: a second push is refused, and after the pop the slot is used again. -/
def slotReused : List (RingAction Unit Nat) :=
  [.callPush () 7, .push (), .push (), .push (), .push (), .callPush () 8, .push (), .push (),
    .callPop, .pop, .pop, .pop, .pop, .callPush () 9, .push (), .push ()]

theorem ring_refines_boundedFifo_slotReused :
    ∃ calls : RingCalls Unit Nat 1,
      Runs.run RingCalls.step (RingCalls.start 0) slotReused = some calls ∧
        calls.popped <+: calls.accepted ∧ calls.popped ++ calls.ring.unpopped = calls.accepted := by
  refine ⟨_, rfl, ?_, ?_⟩
  · exact (ring_refines_boundedFifo 0 slotReused _ rfl (by decide)).1
  · exact (ring_refines_boundedFifo 0 slotReused _ rfl (by decide)).2.1

/-- The lists that stand for the rings elsewhere are this queue: a completed
access is a call on the list. -/
theorem boundedFifo_step_eq_call {α : Type} {capacity : Nat} {queue next : List α}
    {event : Event α} (step : BoundedFifo.Step capacity queue event next) :
    match event with
    | .accept entry => shmPush capacity queue entry = some next
    | .refuse => ∀ entry, shmPush capacity queue entry = none
    | .take entry => shmPop queue = some (entry, next)
    | .starve => shmPop queue = none
    | .silent => next = queue := by
  cases step with
  | accept room => exact if_pos room
  | refuse full => exact fun entry => if_neg (by omega)
  | take => rfl
  | starve => rfl
  | silent => rfl

end CryptoTrading
