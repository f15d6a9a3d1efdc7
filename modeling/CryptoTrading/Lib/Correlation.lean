import CryptoTrading.Lib.UnorderedMap

/-! # Requests and their answers

A table of the requests that are out, kept by key.  The first answer to a
request takes it off the table and may emit something; later answers, and
answers to keys that were never sent, find nothing.  What a key sees of an
interleaving is worked out from its own events alone. -/
set_option autoImplicit false

namespace Correlation

inductive Event (κ ρ ω : Type) where
  | send (key : κ) (request : ρ)
  | answer (key : κ) (outcome : ω)
  | other

structure Table (κ ρ γ : Type) where
  pending : UnorderedMap κ ρ
  emitted : List (κ × γ)

variable {κ ρ ω γ : Type} [DecidableEq κ] (emit : ρ → ω → Option γ)

def step (table : Table κ ρ γ) : Event κ ρ ω → Table κ ρ γ
  | .send key request => { table with pending := table.pending.insert key request }
  | .answer key outcome =>
      match table.pending.lookup key with
      | none => table
      | some request =>
          { pending := table.pending.erase key
            emitted := table.emitted ++ ((emit request outcome).map fun out => (key, out)).toList }
  | .other => table

def run (table : Table κ ρ γ) (events : List (Event κ ρ ω)) : Table κ ρ γ :=
  events.foldl (step emit) table

def sentKeys (events : List (Event κ ρ ω)) : List κ :=
  events.filterMap fun
    | .send key _ => some key
    | .answer _ _ => none
    | .other => none

def answerTo (key : κ) : Event κ ρ ω → Option ω
  | .answer other outcome => if other = key then some outcome else none
  | .send _ _ => none
  | .other => none

def firstAnswer (key : κ) (events : List (Event κ ρ ω)) : Option ω :=
  events.findSome? (answerTo key)

/-- What is on the table and what has been emitted under one key. -/
def view (key : κ) (table : Table κ ρ γ) : Option ρ × List γ :=
  (table.pending.lookup key,
    (table.emitted.filter fun entry => entry.1 = key).map Prod.snd)

section View
variable {emit} {key : κ} {table : Table κ ρ γ}

theorem view_send_other {other : κ} (different : other ≠ key) (request : ρ) :
    view key (step emit table (.send other request : Event κ ρ ω)) = view key table := by
  rw [view, view, step, UnorderedMap.lookup_insert_ite, if_neg (Ne.symm different)]

theorem view_send (request : ρ) :
    view key (step emit table (.send key request : Event κ ρ ω)) =
      (some request, (view key table).2) := by
  rw [view, step, UnorderedMap.lookup_insert_ite, if_pos rfl]
  rfl

theorem view_answer_other {other : κ} (different : other ≠ key) (outcome : ω) :
    view key (step emit table (.answer other outcome)) = view key table := by
  rw [step]
  cases table.pending.lookup other with
  | none => rfl
  | some request =>
      rw [view, view, UnorderedMap.lookup_erase_ite, if_neg (Ne.symm different)]
      cases emit request outcome <;> simp [different]

theorem view_answer (outcome : ω) :
    view key (step emit table (.answer key outcome)) =
      (none, (view key table).2 ++
        ((view key table).1.bind fun request => emit request outcome).toList) := by
  rw [step]
  cases found : table.pending.lookup key with
  | none => simp [view, found]
  | some request =>
      rw [view, view, UnorderedMap.lookup_erase_ite, if_pos rfl, found, Option.bind_some]
      cases emitted : emit request outcome <;> simp [emitted]

/-- While its key is not sent again, a request is answered at most once. -/
theorem view_run (events : List (Event κ ρ ω)) : ∀ table : Table κ ρ γ, key ∉ sentKeys events →
    view key (run emit table events) =
      match firstAnswer key events with
      | none => view key table
      | some outcome => (none, (view key table).2 ++
          ((view key table).1.bind fun request => emit request outcome).toList) := by
  induction events with
  | nil =>
      intro table _
      rfl
  | cons event rest ih =>
      intro table unsent
      have ran : run emit table (event :: rest) = run emit (step emit table event) rest := rfl
      cases event with
      | send other request =>
          have apart : other ≠ key ∧ key ∉ sentKeys rest := by
            simpa [sentKeys, eq_comm] using unsent
          have later : firstAnswer key (Event.send other request :: rest) =
              firstAnswer key rest := rfl
          rw [ran, ih _ apart.2, later, view_send_other apart.1]
      | other =>
          have later : firstAnswer key (Event.other :: rest) = firstAnswer key rest := rfl
          rw [ran, ih _ unsent, later]
          rfl
      | answer other outcome =>
          have unsentRest : key ∉ sentKeys rest := unsent
          by_cases own : other = key
          · subst own
            have first : firstAnswer other (Event.answer other outcome :: rest) = some outcome := by
              simp [firstAnswer, answerTo]
            rw [ran, ih _ unsentRest, first, view_answer]
            cases firstAnswer other rest <;> simp
          · have later : firstAnswer key (Event.answer other outcome :: rest) =
                firstAnswer key rest := by
              simp [firstAnswer, answerTo, own]
            rw [ran, ih _ unsentRest, later, view_answer_other own]

end View

/-! ## From the empty table -/

section Run
variable {emit} {key : κ}

omit [DecidableEq κ] in
theorem sentKeys_split {events before after : List (Event κ ρ ω)} {request : ρ}
    (distinct : (sentKeys events).Nodup) (split : events = before ++ .send key request :: after) :
    key ∉ sentKeys before ∧ key ∉ sentKeys after := by
  have keys : sentKeys events = sentKeys before ++ key :: sentKeys after := by
    rw [split, sentKeys, List.filterMap_append]
    rfl
  rw [keys, List.nodup_append, List.nodup_cons] at distinct
  exact ⟨fun member => distinct.2.2 key member key List.mem_cons_self rfl, distinct.2.1.1⟩

variable (emit) in
/-- A request that was sent once: its fate is the first answer after it. -/
theorem view_of_sent {events before after : List (Event κ ρ ω)} {request : ρ}
    (distinct : (sentKeys events).Nodup) (split : events = before ++ .send key request :: after) :
    view key (run emit ⟨∅, []⟩ events) =
      match firstAnswer key after with
      | none => (some request, [])
      | some outcome => (none, (emit request outcome).toList) := by
  obtain ⟨unsentBefore, unsentAfter⟩ := sentKeys_split distinct split
  have ran : run emit ⟨∅, []⟩ events =
      run emit (step emit (run emit ⟨∅, []⟩ before) (.send key request)) after := by
    rw [split, run, List.foldl_append]
    rfl
  have unseen : (view key (run emit ⟨∅, []⟩ before)).2 = [] := by
    rw [view_run before _ unsentBefore]
    cases firstAnswer key before <;> rfl
  rw [ran, view_run after _ unsentAfter, view_send, unseen]
  cases firstAnswer key after <;> rfl

theorem view_of_unsent {events : List (Event κ ρ ω)} (unsent : key ∉ sentKeys events) :
    view key (run emit ⟨∅, []⟩ events) = (none, []) := by
  rw [view_run events _ unsent]
  cases firstAnswer key events <;> rfl

/-- A request is out: it was sent, and no answer to it came since. -/
def Outstanding (events : List (Event κ ρ ω)) (key : κ) (request : ρ) : Prop :=
  ∃ before after, events = before ++ .send key request :: after ∧ firstAnswer key after = none

/-- The table holds exactly the requests that are out. -/
theorem pending_iff_outstanding {events : List (Event κ ρ ω)} (distinct : (sentKeys events).Nodup)
    (request : ρ) : (run emit ⟨∅, []⟩ events).pending.lookup key = some request ↔
      Outstanding events key request := by
  have first : (run emit ⟨∅, []⟩ events).pending.lookup key =
      (view key (run emit ⟨∅, []⟩ events)).1 := rfl
  rw [first]
  constructor
  · intro found
    by_cases sent : key ∈ sentKeys events
    · obtain ⟨event, member, isSend⟩ := List.mem_filterMap.mp sent
      cases event with
      | send other sentRequest =>
          cases Option.some.inj isSend
          obtain ⟨before, after, split⟩ := List.append_of_mem member
          rw [view_of_sent emit distinct split] at found
          cases answered : firstAnswer key after with
          | none =>
              rw [answered] at found
              cases Option.some.inj found
              exact ⟨before, after, split, answered⟩
          | some outcome =>
              rw [answered] at found
              cases found
      | answer other outcome => cases isSend
      | other => cases isSend
    · rw [view_of_unsent sent] at found
      cases found
  · rintro ⟨before, after, split, unanswered⟩
    rw [view_of_sent emit distinct split, unanswered]

end Run

end Correlation
