import CryptoTrading.Lib.Polling
import CryptoTrading.StrategyEngine.StrategyLoop

/-! # What the strategy is told

Each ring on its own is a polled queue, whatever else the loop and the other
engines do in between.  The turns of the loop poll them equally often, so no
ring has to wait for another one to be empty. -/
set_option autoImplicit false

namespace CryptoTrading

namespace StrategyLoop

open BoundedFifo

/-! ## One ring -/

inductive Moves (loop : StrategyLoop) (due : Bool) : StrategyLoop → Prop
  | condition (point : loop.point = .condition) : Moves loop due
      (loop.setPoint (if loop.running ∧ loop.isRunning then .pop .ticker else .stopped))
  | starve {kind : FeedKind} (point : loop.point = .pop kind) (empty : loop.rings kind = []) :
      Moves loop due (loop.setPoint (.afterPop kind))
  | take {kind : FeedKind} {entry : FeedEntry} {rest : List FeedEntry}
      (point : loop.point = .pop kind) (ring : loop.rings kind = entry :: rest) : Moves loop due
      (((loop.setRing kind rest).call (.feed entry)).setPoint (.afterPop kind))
  | timer (point : loop.point = .timer) :
      Moves loop due ((if due then loop.call .timer else loop).setPoint .condition)

/-- Every ring holds entries of its own kind, and no more than fit. -/
structure RingsFit (loop : StrategyLoop) : Prop where
  bounded : ∀ kind, (loop.rings kind).length ≤ kind.capacity
  kinds : ∀ kind, ∀ entry ∈ loop.rings kind, entry.kind = kind

section Ring
variable {loop next : StrategyLoop} {kind : FeedKind} {action : LoopAction} {due : Bool}

theorem moves_of_proceed (stepped : loop.proceed due = some next) : Moves loop due next := by
  unfold proceed at stepped
  split at stepped
  · next point =>
      cases stepped
      exact .condition point
  · next popped point =>
      cases ring : loop.rings popped with
      | nil =>
          rw [ring] at stepped
          cases stepped
          exact .starve point ring
      | cons entry rest =>
          rw [ring] at stepped
          cases stepped
          exact .take point ring
  · next point =>
      cases stepped
      exact .timer point
  · cases stepped

theorem rings_setRing (other : FeedKind) (ring : List FeedEntry) :
    (loop.setRing other ring).rings kind = if kind = other then ring else loop.rings kind :=
  Function.update_apply ..

theorem event_proceed (point : loop.point ≠ .pop kind) :
    event kind loop (.proceed due) = .silent := if_neg point

theorem event_pop (point : loop.point = .pop kind) : event kind loop (.proceed due) =
    match loop.rings kind with
    | [] => .starve
    | entry :: _ => .take entry := if_pos point

theorem ring_push (entry : FeedEntry) (fit : loop.RingsFit) :
    BoundedFifo.Step kind.capacity (loop.rings kind) (event kind loop (.push entry))
      ((loop.push entry).rings kind) := by
  rw [event, push, rings_setRing]
  by_cases own : entry.kind = kind
  · subst own
    rw [if_pos rfl, if_pos rfl, shmPush]
    split
    · next room => exact .accept room
    · next full => exact .refuse (Nat.le_antisymm (fit.bounded _) (not_lt.mp full))
  · rw [if_neg own, if_neg (Ne.symm own)]
    exact .silent

theorem ring_moves (moves : Moves loop due next) :
    BoundedFifo.Step kind.capacity (loop.rings kind) (event kind loop (.proceed due))
      (next.rings kind) := by
  cases moves with
  | condition point =>
      rw [event_proceed (by rw [point]; exact fun same => nomatch same)]
      exact .silent
  | @starve popped point empty =>
      by_cases own : popped = kind
      · subst own
        rw [event_pop point, setPoint, empty]
        exact .starve
      · rw [event_proceed (by rw [point]; exact fun same => own (LoopPoint.pop.inj same))]
        exact .silent
  | @take popped entry rest point ring =>
      rw [setPoint, call, rings_setRing]
      by_cases own : popped = kind
      · subst own
        rw [event_pop point, if_pos rfl, ring]
        exact .take
      · rw [event_proceed (by rw [point]; exact fun same => own (LoopPoint.pop.inj same)),
          if_neg (Ne.symm own)]
        exact .silent
  | timer point =>
      rw [event_proceed (by rw [point]; exact fun same => nomatch same), setPoint]
      split <;> exact .silent

theorem ring_step (kind : FeedKind) (fit : loop.RingsFit)
    (stepped : loop.step action = some next) :
    BoundedFifo.Step kind.capacity (loop.rings kind) (event kind loop action)
      (next.rings kind) := by
  cases action with
  | push entry =>
      cases stepped
      exact ring_push entry fit
  | proceed due => exact ring_moves (moves_of_proceed stepped)
  | stop =>
      cases stepped
      exact .silent
  | stopStrategy =>
      cases stepped
      exact .silent

theorem kind_of_accepted {entry : FeedEntry}
    (member : entry ∈ (event kind loop action).accepted) : entry.kind = kind := by
  cases action with
  | push pushed =>
      rw [event] at member
      split at member
      · next own =>
          split at member
          · cases List.mem_singleton.mp member
            exact own
          · cases member
      · cases member
  | proceed due =>
      rw [event] at member
      split at member
      · split at member <;> cases member
      · cases member
  | stop => cases member
  | stopStrategy => cases member

theorem RingsFit.step (fit : loop.RingsFit) (stepped : loop.step action = some next) :
    next.RingsFit where
  bounded := fun kind => (ring_step kind fit stepped).bounded (fit.bounded kind)
  kinds := fun kind entry member => by
    have balance := (ring_step kind fit stepped).balance (List.nil_append _)
    rw [List.nil_append] at balance
    have listed : entry ∈ loop.rings kind ++ (event kind loop action).accepted := by
      rw [← balance]
      exact List.mem_append_right _ member
    rcases List.mem_append.mp listed with before | new
    · exact fit.kinds kind entry before
    · exact kind_of_accepted new

/-- The strategy is called with an entry when it is taken, and only then. -/
theorem delivered_step (fit : loop.RingsFit) (stepped : loop.step action = some next) :
    next.delivered kind = loop.delivered kind ++ (event kind loop action).taken := by
  have unchanged : ∀ {event : Event FeedEntry}, event.taken = [] →
      loop.delivered kind = loop.delivered kind ++ event.taken := by
    intro event nothing
    rw [nothing, List.append_nil]
  have added : ∀ call : StrategyCall, (loop.call call).delivered kind =
      loop.delivered kind ++ ({ calls := [call] } : StrategyLoop).delivered kind := by
    intro call
    exact List.filterMap_append
  cases action with
  | push entry =>
      cases stepped
      refine unchanged ?_
      rw [event]
      split_ifs <;> rfl
  | stop =>
      cases stepped
      exact unchanged rfl
  | stopStrategy =>
      cases stepped
      exact unchanged rfl
  | proceed due =>
      cases moves_of_proceed stepped with
      | condition point =>
          rw [event_proceed (by rw [point]; rintro ⟨⟩)]
          exact unchanged rfl
      | @starve popped point empty =>
          refine unchanged ?_
          by_cases own : popped = kind
          · subst own
            rw [event_pop point, empty]
            rfl
          · rw [event_proceed (by rw [point]; exact fun same => own (LoopPoint.pop.inj same))]
            rfl
      | @take popped entry rest point ring =>
          have isPopped : entry.kind = popped :=
            fit.kinds popped entry (by rw [ring]; exact List.mem_cons_self)
          refine (added (.feed entry)).trans (congrArg _ ?_)
          by_cases own : popped = kind
          · subst own
            rw [event_pop point, ring]
            simp [delivered, isPopped, Event.taken]
          · rw [event_proceed (by rw [point]; exact fun same => own (LoopPoint.pop.inj same))]
            simp [delivered, isPopped, own, Event.taken]
      | timer point =>
          rw [event_proceed (by rw [point]; rintro ⟨⟩)]
          split
          · exact added .timer
          · exact unchanged rfl

end Ring

/-! ## One ring over a run -/

def pushed (kind : FeedKind) (actions : List LoopAction) : List FeedEntry :=
  actions.filterMap fun
    | .push entry => if entry.kind = kind then some entry else none
    | _ => none

def events (kind : FeedKind) (loop : StrategyLoop) (actions : List LoopAction) :
    List (Event FeedEntry) :=
  Runs.observe step (event kind) loop actions

section Run
variable {first loop final : StrategyLoop} {kind : FeedKind} {actions : List LoopAction}
  {created : Bool} {paramsJson : String} {pendingOrders : List ExecutionReport}

theorem ringsFit_start (started : start created paramsJson pendingOrders = some first) :
    first.RingsFit ∧ (∀ kind, first.rings kind = []) ∧ ∀ kind, first.delivered kind = [] := by
  rw [start] at started
  split at started
  · cases started
    refine ⟨⟨fun _ => Nat.zero_le _, fun _ _ member => nomatch member⟩, fun _ => rfl,
      fun kind => ?_⟩
    rw [delivered]
    split <;> rfl
  · cases started

theorem RingsFit.run (fit : loop.RingsFit)
    (ran : Runs.run StrategyLoop.step loop actions = some final) :
    final.RingsFit :=
  Runs.run_induction _ RingsFit (fun _ _ _ fit stepped => fit.step stepped) fit ran

theorem ring_run (kind : FeedKind) (fit : loop.RingsFit)
    (ran : Runs.run step loop actions = some final) :
    Steps kind.capacity (loop.rings kind) (events kind loop actions) (final.rings kind) :=
  Steps.of_run RingsFit (fun _ _ _ fit stepped => fit.step stepped)
    (fun _ _ _ fit stepped => ring_step kind fit stepped) fit ran

theorem delivered_run (kind : FeedKind) (fit : loop.RingsFit)
    (ran : Runs.run step loop actions = some final) :
    final.delivered kind = loop.delivered kind ++ taken (events kind loop actions) := by
  induction actions generalizing loop with
  | nil =>
      cases ran
      exact (List.append_nil _).symm
  | cons action rest ih =>
      obtain ⟨next, stepped, ranRest⟩ := Runs.run_cons_some step ran
      rw [ih (fit.step stepped) ranRest, delivered_step fit stepped, events, events,
        Runs.observe_cons _ _ _ stepped, taken, taken, List.flatMap_cons, List.append_assoc]

theorem pushed_cons (action : LoopAction) :
    pushed kind (action :: actions) = pushed kind [action] ++ pushed kind actions := by
  rw [pushed, pushed, pushed, ← List.filterMap_append]
  rfl

theorem accepted_step (kind : FeedKind) (loop : StrategyLoop) (action : LoopAction) :
    (event kind loop action).accepted.Sublist (pushed kind [action]) ∧
      (event kind loop action).accepted.length +
        (if (event kind loop action).isRefusal = true then 1 else 0) =
          (pushed kind [action]).length := by
  cases action with
  | push entry =>
      rw [event]
      by_cases own : entry.kind = kind
      · have offered : pushed kind [.push entry] = [entry] := by simp [pushed, own]
        rw [if_pos own, offered]
        split
        · exact ⟨List.Sublist.refl _, rfl⟩
        · exact ⟨List.nil_sublist _, rfl⟩
      · have offered : pushed kind [.push entry] = [] := by simp [pushed, own]
        rw [if_neg own, offered]
        exact ⟨List.Sublist.refl _, rfl⟩
  | proceed due =>
      rw [event]
      split
      · split <;> exact ⟨List.Sublist.refl _, rfl⟩
      · exact ⟨List.Sublist.refl _, rfl⟩
  | stop => exact ⟨List.Sublist.refl _, rfl⟩
  | stopStrategy => exact ⟨List.Sublist.refl _, rfl⟩

/-- What a ring accepts was pushed into it, in this order, and what is missing
was refused. -/
theorem accepted_run (kind : FeedKind) (ran : Runs.run step loop actions = some final) :
    (accepted (events kind loop actions)).Sublist (pushed kind actions) ∧
      (accepted (events kind loop actions)).length + refusals (events kind loop actions) =
        (pushed kind actions).length := by
  induction actions generalizing loop with
  | nil => exact ⟨List.Sublist.refl _, rfl⟩
  | cons action rest ih =>
      obtain ⟨next, stepped, ranRest⟩ := Runs.run_cons_some step ran
      obtain ⟨order, count⟩ := ih ranRest
      have one := accepted_step kind loop action
      rw [events, Runs.observe_cons _ _ _ stepped, ← events, accepted, refusals, List.flatMap_cons,
        List.countP_cons, ← accepted, ← refusals, List.length_append, pushed_cons,
        List.length_append]
      exact ⟨one.1.append order, by omega⟩

theorem told_eq_accepted (started : start created paramsJson pendingOrders = some first)
    (ran : Runs.run step first actions = some final) (kind : FeedKind) :
    final.delivered kind ++ final.rings kind = accepted (events kind first actions) := by
  obtain ⟨fit, empty, untold⟩ := ringsFit_start started
  have balance := (ring_run kind fit ran).balance
  have told := delivered_run kind fit ran
  rw [empty, List.nil_append] at balance
  rw [untold, List.nil_append] at told
  rw [told, balance]

/-- Of every ring the strategy is told the entries that were pushed, one push after
another, in this order and each once, but for those that found the ring full and
those that are still in it. -/
theorem strategy_told_what_was_pushed
    (started : start created paramsJson pendingOrders = some first)
    (ran : Runs.run step first actions = some final) (kind : FeedKind) :
    (final.delivered kind ++ final.rings kind).Sublist (pushed kind actions) ∧
      (final.delivered kind).length + (final.rings kind).length +
        refusals (events kind first actions) = (pushed kind actions).length := by
  obtain ⟨order, count⟩ := accepted_run kind ran
  rw [← List.length_append, told_eq_accepted started ran kind]
  exact ⟨order, count⟩

/-- Two trades, and the turn of the loop that takes the first. -/
def twoTrades : List LoopAction :=
  [.push (.data (.trade { tradeId := "1" })), .push (.data (.trade { tradeId := "2" })),
    .proceed false, .proceed false, .proceed false, .proceed false, .proceed false]

theorem strategy_told_what_was_pushed_twoTrades : ∃ final,
    Runs.run step { calls := [.init ""] } twoTrades = some final ∧
      final.delivered .trade = [.data (.trade { tradeId := "1" })] ∧
      (final.delivered .trade ++ final.rings .trade).Sublist (pushed .trade twoTrades) := by
  have started : start true "" [] = some { calls := [.init ""] } := rfl
  exact ⟨_, rfl, rfl, (strategy_told_what_was_pushed started rfl .trade).1⟩

end Run

/-! ## Turns -/

def Begins (loop : StrategyLoop) : LoopAction → Prop
  | .proceed _ => loop.point = .condition ∧ loop.running ∧ loop.isRunning
  | _ => False

instance (loop : StrategyLoop) (action : LoopAction) : Decidable (loop.Begins action) :=
  match action with
  | .proceed _ => inferInstanceAs (Decidable (_ ∧ _))
  | .push _ => inferInstanceAs (Decidable False)
  | .stop => inferInstanceAs (Decidable False)
  | .stopStrategy => inferInstanceAs (Decidable False)

def place : FeedKind → ℕ
  | .ticker => 0
  | .bbo => 1
  | .depth => 2
  | .trade => 3
  | .report => 4

/-- Whether the turn at this point is still to pop the ring, as a number. -/
def toCome (kind : FeedKind) : LoopPoint → ℕ
  | .pop next => if place next ≤ place kind then 1 else 0
  | _ => 0

theorem toCome_le_one (kind : FeedKind) (point : LoopPoint) : toCome kind point ≤ 1 := by
  cases point with
  | pop next =>
      rw [toCome]
      split <;> omega
  | _ => exact Nat.zero_le _

theorem toCome_afterPop (kind popped : FeedKind) :
    toCome kind (.afterPop popped) + (if popped = kind then 1 else 0) =
      toCome kind (.pop popped) := by
  cases kind <;> cases popped <;> rfl

section Turns
variable {loop next final : StrategyLoop} {kind : FeedKind} {action : LoopAction}
  {actions : List LoopAction}

theorem toCome_begin : toCome kind (.pop .ticker) = 1 := by
  cases kind <;> rfl

theorem isPoll_proceed (due : Bool) : (event kind loop (.proceed due)).isPoll = true ↔
    loop.point = .pop kind := by
  rw [event]
  split
  · next here =>
      refine ⟨fun _ => here, fun _ => ?_⟩
      split <;> rfl
  · next elsewhere => exact ⟨fun polled => (nomatch polled), fun here => absurd here elsewhere⟩

/-- A step polls the ring when it was to come, and a new turn polls every ring. -/
theorem turn_step (kind : FeedKind) (stepped : loop.step action = some next) :
    (if (event kind loop action).isPoll = true then 1 else 0) + toCome kind next.point =
      (if loop.Begins action then 1 else 0) + toCome kind loop.point := by
  have quiet : ∀ {event : Event FeedEntry}, event.isPoll = false → next.point = loop.point →
      ¬ loop.Begins action → (if event.isPoll = true then 1 else 0) + toCome kind next.point =
        (if loop.Begins action then 1 else 0) + toCome kind loop.point := by
    intro event unpolled same continues
    rw [unpolled, same, if_neg continues, if_neg Bool.false_ne_true]
  cases action with
  | push entry =>
      cases stepped
      refine quiet ?_ rfl id
      rw [event]
      split_ifs <;> rfl
  | stop =>
      cases stepped
      exact quiet rfl rfl id
  | stopStrategy =>
      cases stepped
      exact quiet rfl rfl id
  | proceed due =>
      simp only [isPoll_proceed]
      cases moves_of_proceed stepped with
      | condition point =>
          have begun : loop.Begins (.proceed due) ↔ loop.running ∧ loop.isRunning := by
            rw [Begins, point]
            exact and_iff_right rfl
          rw [point, if_neg (fun same => nomatch same), setPoint]
          by_cases goesOn : loop.running ∧ loop.isRunning
          · rw [if_pos goesOn, if_pos (begun.mpr goesOn)]
            exact (Nat.zero_add _).trans toCome_begin
          · rw [if_neg goesOn, if_neg fun begins => goesOn (begun.mp begins)]
            rfl
      | @starve popped point empty =>
          have continues : ¬ loop.Begins (.proceed due) := by
            rw [Begins, point]
            exact fun both => nomatch both.1
          rw [if_neg continues, point, setPoint, Nat.zero_add, ← toCome_afterPop, Nat.add_comm]
          simp only [LoopPoint.pop.injEq]
      | @take popped entry rest point ring =>
          have continues : ¬ loop.Begins (.proceed due) := by
            rw [Begins, point]
            exact fun both => nomatch both.1
          rw [if_neg continues, point, setPoint, Nat.zero_add, ← toCome_afterPop, Nat.add_comm]
          simp only [LoopPoint.pop.injEq]
      | timer point =>
          have continues : ¬ loop.Begins (.proceed due) := by
            rw [Begins, point]
            exact fun both => nomatch both.1
          rw [if_neg continues, point, if_neg (fun same => nomatch same)]
          rfl

theorem turn_run (kind : FeedKind) (ran : Runs.run step loop actions = some final) :
    polls (events kind loop actions) + toCome kind final.point =
      Runs.count step Begins loop actions + toCome kind loop.point := by
  induction actions generalizing loop with
  | nil =>
      cases ran
      rfl
  | cons action rest ih =>
      obtain ⟨next, stepped, ranRest⟩ := Runs.run_cons_some step ran
      have turn := turn_step kind stepped
      have later := ih ranRest
      rw [events, Runs.observe_cons _ _ _ stepped, ← events, polls, List.countP_cons, ← polls,
        Runs.count, Runs.total_cons _ _ _ stepped, ← Runs.count]
      omega

/-- An entry that waits behind `n` others in its ring is handed to the strategy
before `n + 2` turns have begun, however full the other rings are. -/
theorem told_within_turns {first : StrategyLoop} {created : Bool} {paramsJson : String}
    {pendingOrders : List ExecutionReport} {earlier : List LoopAction}
    (started : start created paramsJson pendingOrders = some first)
    (reached : Runs.run step first earlier = some loop)
    (ran : Runs.run step loop actions = some final) {ahead behind : List FeedEntry}
    {entry : FeedEntry} (waiting : loop.rings kind = ahead ++ entry :: behind)
    (turns : ahead.length + 2 ≤ Runs.count step Begins loop actions) :
    loop.delivered kind ++ ahead ++ [entry] <+: final.delivered kind := by
  have fit := (ringsFit_start started).1.run reached
  have polled : ahead.length + 1 ≤ polls (events kind loop actions) := by
    have turn := turn_run kind ran
    have last := toCome_le_one kind final.point
    omega
  have out := (ring_run kind fit ran).polled_first polled
  have front : (ahead ++ entry :: behind).take (ahead.length + 1) = ahead ++ [entry] := by
    rw [List.take_length_add_append]
    rfl
  rw [waiting, front] at out
  rw [delivered_run kind fit ran, List.append_assoc]
  exact (List.prefix_append_right_inj _).mpr out

theorem told_within_turns_twoTrades : ∃ loop final,
    Runs.run step { calls := [.init ""] } twoTrades = some loop ∧
      Runs.run step loop (List.replicate 11 (.proceed false)) = some final ∧
      [.data (.trade { tradeId := "1" }), .data (.trade { tradeId := "2" })] <+:
        final.delivered .trade := by
  have started : start true "" [] = some { calls := [.init ""] } := rfl
  refine ⟨_, _, rfl, rfl, ?_⟩
  exact @told_within_turns _ _ .trade (List.replicate 11 (.proceed false)) _ true "" [] twoTrades
    started rfl rfl [] [] (.data (.trade { tradeId := "2" })) rfl (by decide)

end Turns

end StrategyLoop

end CryptoTrading
