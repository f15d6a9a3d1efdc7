import Mathlib.Data.List.Basic

/-! # Snapshot and stream

A reader joins a store that keeps changing.  It asks for the changes first and
looks at the values later; what it has found is entered into its table at the end,
while the changes come in all the time.  `Watch` is this for one key: its value,
the changes on their way, and what the reader has made of it.  Two questions are
answered: when the last thing the reader knows is the value, and when the key
stands in the table exactly as long as it is open. -/
set_option autoImplicit false

namespace SnapshotStream

@[ext] structure Watch (ν : Type) where
  value : Option ν := none
  /-- Changes are put on their way. -/
  channel : Bool := false
  /-- The reader is still going to look. -/
  toRead : Bool := true
  /-- What the looks have shown. -/
  found : List ν := []
  /-- The changes that have come through. -/
  told : List ν := []
  coming : List ν := []
  /-- The key stands in the reader's table. -/
  member : Bool := false
  /-- What was found has been entered. -/
  entered : Bool := false

variable {ν : Type} (starts opens : ν → Bool) (same : ν → ν → Prop)

/-- The changes of a value: it starts open, and changes as long as it is. -/
def Legal (value : Option ν) (next : ν) : Prop :=
  match value with
  | none => starts next = true
  | some current => opens current = true

def Closed (value : Option ν) : Prop := ∀ stored, value = some stored → opens stored = false

/-- The moves in which no change is handled. -/
inductive Step : Watch ν → Watch ν → Prop
  | idle (watch : Watch ν) : Step watch watch
  | publish {watch : Watch ν} {next : ν} (legal : Legal starts opens watch.value next)
      (channel : watch.channel = true) :
      Step watch { watch with value := some next, coming := watch.coming ++ [next] }
  | publishUnseen {watch : Watch ν} {next : ν} (legal : Legal starts opens watch.value next)
      (channel : watch.channel = false) (toRead : watch.toRead = true) :
      Step watch { watch with value := some next }
  | openChannel (watch : Watch ν) : Step watch { watch with channel := true }
  | look {watch : Watch ν} {stored : ν} {shown : List ν} (value : watch.value = some stored)
      (isOpen : opens stored = true) (nonempty : shown ≠ [])
      (faithful : ∀ item ∈ shown, same item stored) :
      Step watch { watch with toRead := false, found := watch.found ++ shown }
  | pass {watch : Watch ν} (closed : Closed opens watch.value) :
      Step watch { watch with toRead := false }
  | join {watch : Watch ν} (coming : watch.coming ≠ []) : Step watch { watch with member := true }
  | enter {watch : Watch ν} (read : watch.toRead = false) (early : watch.entered = false) :
      Step watch { watch with member := watch.member || !watch.found.isEmpty, entered := true }

/-- The reader has handled the first of the changes; `kept` says that it was told. -/
structure Handles (kept : Bool) (watch : Watch ν) (change : ν) (after : Watch ν) : Prop where
  coming : watch.coming = change :: after.coming
  told : after.told = if kept then watch.told ++ [change] else watch.told
  joins : starts change = true → after.member = true
  leaves : opens change = false → after.member = false
  stays : opens change = true → watch.member = true → after.member = true
  frame : after = { watch with
    coming := after.coming, told := after.told, member := after.member }

/-- An end is handled between the look and the entry. -/
def Crosses (watch : Watch ν) (change : ν) : Prop :=
  watch.entered = false ∧ watch.found ≠ [] ∧ opens change = false

structure Begins (watch : Watch ν) : Prop where
  channel : watch.channel = false
  toRead : watch.toRead = true
  found : watch.found = []
  told : watch.told = []
  coming : watch.coming = []
  member : watch.member = false
  entered : watch.entered = false

/-! ## The changes on their way -/

/-- The changes are in order, and the last one is the value. -/
structure Sound (watch : Watch ν) : Prop where
  silent : watch.channel = false → watch.coming = [] ∧ watch.told = []
  last : ∀ change ∈ watch.coming.getLast?, watch.value = some change
  ended : ∀ front change rest, watch.coming = front ++ change :: rest →
    opens change = false → rest = []
  unread : watch.toRead = true → watch.found = []
  entered : watch.entered = true → watch.toRead = false

section Sound
variable {starts opens same} {watch after : Watch ν} {change : ν} {kept : Bool}

theorem Begins.sound (begins : Begins watch) : Sound opens watch where
  silent _ := ⟨begins.coming, begins.told⟩
  last := by simp [begins.coming]
  ended := by simp [begins.coming]
  unread _ := begins.found
  entered isEntered := by simp [begins.entered] at isEntered

theorem Sound.value_of_ended (sound : Sound opens watch) {rest : List ν}
    (coming : watch.coming = change :: rest) (ends : opens change = false) :
    rest = [] ∧ watch.value = some change := by
  have alone := sound.ended [] change rest coming ends
  subst alone
  exact ⟨rfl, sound.last change (by rw [coming]; rfl)⟩

theorem Sound.coming_open (sound : Sound opens watch) {stored : ν}
    (value : watch.value = some stored) (isOpen : opens stored = true) :
    ∀ change ∈ watch.coming, opens change = true := by
  intro change member
  by_contra closed
  rw [Bool.not_eq_true] at closed
  obtain ⟨front, rest, split⟩ := List.append_of_mem member
  have alone := sound.ended front change rest split closed
  subst alone
  have current := sound.last change (by rw [split]; simp)
  rw [value, Option.some.injEq] at current
  rw [current, closed] at isOpen
  cases isOpen

theorem Sound.step (sound : Sound opens watch) (step : Step starts opens same watch after) :
    Sound opens after := by
  cases step with
  | idle => exact sound
  | @publish next legal channel =>
      refine ⟨fun closed => ?_, ?_, ?_, sound.unread, sound.entered⟩
      · rw [channel] at closed
        cases closed
      · intro change isLast
        rw [List.getLast?_concat, Option.mem_some_iff] at isLast
        rw [isLast]
      · intro front change rest split ends
        by_contra more
        obtain ⟨inner, final, rfl⟩ := (List.eq_nil_or_concat rest).resolve_left more
        -- the end would stand in front of the new change
        have parts : watch.coming ++ [next] = (front ++ change :: inner) ++ [final] := by
          simpa using split
        obtain ⟨before, -⟩ := List.append_inj' parts rfl
        have nothing := sound.ended front change inner before ends
        subst nothing
        have current := sound.last change (by rw [before]; simp)
        rw [current] at legal
        have isOpen : opens change = true := legal
        rw [ends] at isOpen
        cases isOpen
  | publishUnseen legal channel toRead =>
      refine ⟨sound.silent, ?_, sound.ended, sound.unread, sound.entered⟩
      simp [(sound.silent channel).1]
  | openChannel => exact ⟨nofun, sound.last, sound.ended, sound.unread, sound.entered⟩
  | look => exact ⟨sound.silent, sound.last, sound.ended, nofun, fun _ => rfl⟩
  | pass => exact ⟨sound.silent, sound.last, sound.ended, nofun, fun _ => rfl⟩
  | join => exact ⟨sound.silent, sound.last, sound.ended, sound.unread, sound.entered⟩
  | enter read early => exact ⟨sound.silent, sound.last, sound.ended, sound.unread, fun _ => read⟩

theorem Sound.handle (sound : Sound opens watch)
    (handles : Handles starts opens kept watch change after) : Sound opens after := by
  have coming := handles.coming
  have nonempty : watch.coming ≠ [] := by
    rw [coming]
    exact List.cons_ne_nil _ _
  rw [handles.frame]
  refine ⟨fun closed => absurd (sound.silent closed).1 nonempty, ?_, ?_, sound.unread,
    sound.entered⟩
  · intro final isLast
    apply sound.last final
    rw [coming, List.getLast?_cons]
    simp only [Option.mem_def] at isLast ⊢
    rw [isLast]
    rfl
  · intro front ending rest split ends
    exact sound.ended (change :: front) ending rest (by rw [coming, split]; rfl) ends

end Sound

/-! ## The table -/

/-- No end was handled between the look and the entry. -/
structure Calm (watch : Watch ν) : Prop where
  heard : watch.member = true → watch.channel = true ∨ watch.entered = true
  isOpen : ∀ stored, watch.value = some stored → opens stored = true → watch.toRead = false →
    (watch.entered = false ∧ watch.found ≠ []) ∨ watch.member = true ∨
      ∃ change ∈ watch.coming, starts change = true
  member : watch.member = true → (∃ stored, watch.value = some stored ∧ opens stored = true) ∨
    ∃ change ∈ watch.coming, opens change = false
  listed : watch.found ≠ [] → watch.entered = false →
    (∃ stored, watch.value = some stored ∧ opens stored = true) ∨
      ∃ change ∈ watch.coming, opens change = false

/-- The end was overlooked: the key is entered, or will be, for good. -/
structure Stale (watch : Watch ν) : Prop where
  closed : ∃ stored, watch.value = some stored ∧ opens stored = false
  coming : watch.coming = []
  read : watch.toRead = false
  found : watch.entered = false → watch.found ≠ []
  member : watch.entered = true → watch.member = true

section Table
variable {starts opens same} {watch after : Watch ν} {change : ν} {kept : Bool}

theorem Begins.calm (begins : Begins watch) : Calm starts opens watch where
  heard isMember := by simp [begins.member] at isMember
  isOpen _ _ _ read := by simp [begins.toRead] at read
  member isMember := by simp [begins.member] at isMember
  listed nonempty := absurd begins.found nonempty

theorem Calm.step (calm : Calm starts opens watch) (sound : Sound opens watch)
    (step : Step starts opens same watch after) : Calm starts opens after := by
  cases step with
  | idle => exact calm
  | @publish next legal channel =>
      have later : (∃ stored, watch.value = some stored ∧ opens stored = true) ∨
          (∃ change ∈ watch.coming, opens change = false) →
          (∃ stored, some next = some stored ∧ opens stored = true) ∨
            ∃ change ∈ watch.coming ++ [next], opens change = false := by
        intro _
        cases isOpen : opens next with
        | true => exact .inl ⟨next, rfl, isOpen⟩
        | false => exact .inr ⟨next, by simp, isOpen⟩
      refine ⟨fun _ => .inl channel, ?_, fun isMember => later (calm.member isMember),
        fun nonempty early => later (calm.listed nonempty early)⟩
      rintro stored - - read
      cases before : watch.value with
      | none =>
          rw [before] at legal
          exact .inr (.inr ⟨next, by simp, legal⟩)
      | some current =>
          rw [before] at legal
          rcases calm.isOpen current before legal read with
            early | isMember | ⟨first, inside, isFirst⟩
          · exact .inl early
          · exact .inr (.inl isMember)
          · exact .inr (.inr ⟨first, List.mem_append_left _ inside, isFirst⟩)
  | publishUnseen legal channel toRead =>
      have notEntered : watch.entered ≠ true := by
        intro isEntered
        rw [sound.entered isEntered] at toRead
        cases toRead
      refine ⟨calm.heard, fun _ _ _ read => ?_, fun isMember => ?_, fun nonempty _ => ?_⟩
      · rw [toRead] at read
        cases read
      · rcases calm.heard isMember with heard | isEntered
        · rw [channel] at heard
          cases heard
        · exact absurd isEntered notEntered
      · exact absurd (sound.unread toRead) nonempty
  | openChannel => exact ⟨fun _ => .inl rfl, calm.isOpen, calm.member, calm.listed⟩
  | @look stored shown value isOpen nonempty =>
      refine ⟨calm.heard, fun _ _ _ _ => ?_, calm.member, fun _ _ => .inl ⟨stored, value, isOpen⟩⟩
      cases isEntered : watch.entered with
      | false => exact .inl ⟨rfl, by simp [nonempty]⟩
      | true =>
          rcases calm.isOpen stored value isOpen (sound.entered isEntered) with
            ⟨early, -⟩ | rest
          · rw [isEntered] at early
            cases early
          · exact .inr rest
  | pass closed =>
      refine ⟨calm.heard, fun stored value isOpen _ => ?_, calm.member, calm.listed⟩
      rw [closed stored value] at isOpen
      cases isOpen
  | join coming =>
      have heard : watch.channel = true := by
        by_contra silent
        exact coming (sound.silent (Bool.eq_false_iff.mpr silent)).1
      refine ⟨fun _ => .inl heard, fun _ _ _ _ => .inr (.inl rfl), fun _ => ?_, calm.listed⟩
      obtain ⟨front, final, split⟩ := (List.eq_nil_or_concat watch.coming).resolve_left coming
      have value := sound.last final (by rw [split]; simp)
      cases isOpen : opens final with
      | true => exact .inl ⟨final, value, isOpen⟩
      | false => exact .inr ⟨final, by simp [split], isOpen⟩
  | enter read early =>
      refine ⟨fun _ => .inr rfl, fun stored value isOpen _ => ?_, fun isMember => ?_, nofun⟩
      · rcases calm.isOpen stored value isOpen read with ⟨-, nonempty⟩ | isMember | coming
        · exact .inr (.inl (by simp [nonempty]))
        · exact .inr (.inl (by simp [isMember]))
        · exact .inr (.inr coming)
      · cases before : watch.member with
        | true => exact calm.member before
        | false =>
            refine calm.listed ?_ early
            rintro empty
            simp [before, empty] at isMember

theorem Calm.handle (calm : Calm starts opens watch) (sound : Sound opens watch)
    (handles : Handles starts opens kept watch change after)
    (inTime : ¬ Crosses opens watch change) : Calm starts opens after := by
  have coming := handles.coming
  have heard : watch.channel = true := by
    by_contra silent
    rw [(sound.silent (Bool.eq_false_iff.mpr silent)).1] at coming
    cases coming
  have ends := sound.value_of_ended coming
  -- an end that is still to come stays on its way
  have later : opens change = true →
      ((∃ stored, watch.value = some stored ∧ opens stored = true) ∨
        ∃ other ∈ watch.coming, opens other = false) →
      (∃ stored, watch.value = some stored ∧ opens stored = true) ∨
        ∃ other ∈ after.coming, opens other = false := by
    rintro isOpen (open' | ⟨other, member, closed⟩)
    · exact .inl open'
    · rw [coming] at member
      rcases List.mem_cons.mp member with rfl | inside
      · rw [isOpen] at closed
        cases closed
      · exact .inr ⟨other, inside, closed⟩
  rw [handles.frame]
  refine ⟨fun _ => .inl heard, fun stored value isOpen read => ?_, fun isMember => ?_,
    fun nonempty early => ?_⟩
  · have changeOpen := sound.coming_open value isOpen change (by rw [coming]; simp)
    rcases calm.isOpen stored value isOpen read with listed | isMember | ⟨first, inside, isFirst⟩
    · exact .inl listed
    · exact .inr (.inl (handles.stays changeOpen isMember))
    · rw [coming] at inside
      rcases List.mem_cons.mp inside with rfl | inside
      · exact .inr (.inl (handles.joins isFirst))
      · exact .inr (.inr ⟨first, inside, isFirst⟩)
  · cases changeOpen : opens change with
    | false =>
        have left := handles.leaves changeOpen
        rw [left] at isMember
        cases isMember
    | true =>
        refine later changeOpen ?_
        obtain ⟨front, final, split⟩ := (List.eq_nil_or_concat watch.coming).resolve_left
          (by rw [coming]; exact List.cons_ne_nil _ _)
        have value := sound.last final (by rw [split]; simp)
        cases finalOpen : opens final with
        | true => exact .inl ⟨final, value, finalOpen⟩
        | false => exact .inr ⟨final, by simp [split], finalOpen⟩
  · cases changeOpen : opens change with
    | false => exact absurd ⟨early, nonempty, changeOpen⟩ inTime
    | true => exact later changeOpen (calm.listed nonempty early)

/-- Once everything has been handled, the key stands in the table exactly as long
as it is open. -/
theorem Calm.member_iff (calm : Calm starts opens watch) (read : watch.toRead = false)
    (entered : watch.entered = true) (settled : watch.coming = []) :
    watch.member = true ↔ ∃ stored, watch.value = some stored ∧ opens stored = true := by
  constructor
  · intro isMember
    rcases calm.member isMember with isOpen | ⟨change, inside, -⟩
    · exact isOpen
    · rw [settled] at inside
      cases inside
  · rintro ⟨stored, value, isOpen⟩
    rcases calm.isOpen stored value isOpen read with ⟨early, -⟩ | isMember | ⟨change, inside, -⟩
    · rw [entered] at early
      cases early
    · exact isMember
    · rw [settled] at inside
      cases inside

theorem Stale.of_crosses (sound : Sound opens watch)
    (handles : Handles starts opens kept watch change after)
    (crosses : Crosses opens watch change) : Stale opens after := by
  obtain ⟨early, nonempty, ends⟩ := crosses
  obtain ⟨nothing, value⟩ := sound.value_of_ended handles.coming ends
  have read : watch.toRead = false := by
    by_contra unread
    exact nonempty (sound.unread (Bool.not_eq_false _ ▸ unread))
  rw [handles.frame, nothing]
  refine ⟨⟨change, value, ends⟩, rfl, read, fun _ => nonempty, fun entered => ?_⟩
  rw [show watch.entered = false from early] at entered
  cases entered

theorem Stale.step (stale : Stale opens watch) (step : Step starts opens same watch after) :
    Stale opens after := by
  obtain ⟨stored, value, closed⟩ := stale.closed
  have still : ∀ {next}, ¬ Legal starts opens watch.value next := by
    intro next legal
    rw [value] at legal
    have isOpen : opens stored = true := legal
    rw [closed] at isOpen
    cases isOpen
  cases step with
  | idle => exact stale
  | publish legal => exact absurd legal still
  | publishUnseen legal => exact absurd legal still
  | openChannel => exact ⟨stale.closed, stale.coming, stale.read, stale.found, stale.member⟩
  | look found isOpen =>
      rw [value, Option.some.injEq] at found
      rw [← found, closed] at isOpen
      cases isOpen
  | pass => exact ⟨stale.closed, stale.coming, rfl, stale.found, stale.member⟩
  | join coming => exact absurd stale.coming coming
  | enter read early =>
      refine ⟨stale.closed, stale.coming, stale.read, nofun, fun _ => ?_⟩
      simp [stale.found early]

/-- An overlooked end leaves the key in the table though it is not open. -/
theorem Stale.not_iff (stale : Stale opens watch) (entered : watch.entered = true) :
    ¬ (watch.member = true ↔ ∃ stored, watch.value = some stored ∧ opens stored = true) := by
  intro claim
  obtain ⟨stored, value, isOpen⟩ := claim.mp (stale.member entered)
  obtain ⟨other, sameValue, closed⟩ := stale.closed
  rw [value, Option.some.injEq] at sameValue
  rw [sameValue, closed] at isOpen
  cases isOpen

end Table

/-! ## What the reader knows -/

def Knows (known value : Option ν) : Prop :=
  match known with
  | some shown => ∃ stored, value = some stored ∧ same shown stored
  | none => Closed opens value

/-- Every change has come through or is on its way. -/
structure Current (watch : Watch ν) : Prop where
  last : ∀ change ∈ (watch.told ++ watch.coming).getLast?, watch.value = some change
  snapshot : watch.told ++ watch.coming = [] → watch.toRead = false →
    Knows opens same watch.found.getLast? watch.value

section Knowledge
variable {starts opens same} {watch after : Watch ν} {change : ν}

theorem Begins.current (begins : Begins watch) : Current opens same watch where
  last := by simp [begins.told, begins.coming]
  snapshot _ read := by simp [begins.toRead] at read

theorem Current.step (current : Current opens same watch) (sound : Sound opens watch)
    (step : Step starts opens same watch after) : Current opens same after := by
  cases step with
  | idle => exact current
  | @publish next legal channel =>
      refine ⟨fun final isLast => ?_, fun nothing => ?_⟩
      · rw [← List.append_assoc, List.getLast?_concat, Option.mem_some_iff] at isLast
        rw [isLast]
      · simp at nothing
  | publishUnseen legal channel toRead =>
      obtain ⟨noneComing, noneTold⟩ := sound.silent channel
      refine ⟨by simp [noneComing, noneTold], fun _ read => ?_⟩
      rw [toRead] at read
      cases read
  | openChannel => exact ⟨current.last, current.snapshot⟩
  | @look stored shown value isOpen nonempty faithful =>
      refine ⟨current.last, fun _ _ => ?_⟩
      obtain ⟨front, final, split⟩ := (List.eq_nil_or_concat shown).resolve_left nonempty
      have isLast : (watch.found ++ shown).getLast? = some final := by simp [split]
      have faithful' := faithful final (by simp [split])
      rw [isLast]
      exact ⟨stored, value, faithful'⟩
  | pass closed =>
      refine ⟨current.last, fun nothing _ => ?_⟩
      cases unread : watch.toRead with
      | false => exact current.snapshot nothing unread
      | true =>
          rw [sound.unread unread]
          exact closed
  | join => exact ⟨current.last, current.snapshot⟩
  | enter => exact ⟨current.last, current.snapshot⟩

theorem Current.handle (current : Current opens same watch)
    (handles : Handles starts opens true watch change after) : Current opens same after := by
  have stream : after.told ++ after.coming = watch.told ++ watch.coming := by
    rw [handles.told, handles.coming]
    simp
  rw [handles.frame]
  refine ⟨fun final isLast => current.last final ?_, fun nothing => ?_⟩
  · rwa [← stream]
  · exact current.snapshot (stream.symm.trans nothing)

/-- Once everything has come through, the last thing that the reader was told, or
has found if it was told nothing, is the value. -/
theorem Current.knows (current : Current opens same watch)
    (reflexive : ∀ stored, same stored stored) (read : watch.toRead = false)
    (settled : watch.coming = []) :
    Knows opens same (watch.found ++ watch.told).getLast? watch.value := by
  rcases List.eq_nil_or_concat watch.told with nothing | ⟨front, final, split⟩
  · rw [nothing, List.append_nil]
    exact current.snapshot (by rw [nothing, settled]; rfl) read
  · have isLast : (watch.found ++ watch.told).getLast? = some final := by simp [split]
    rw [isLast]
    exact ⟨final, current.last final (by simp [split, settled]), reflexive final⟩

end Knowledge

end SnapshotStream
