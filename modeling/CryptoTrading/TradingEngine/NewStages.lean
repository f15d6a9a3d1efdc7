import CryptoTrading.TradingEngine.Heard

/-! # The stages of an order

From the NEW on its way to the order heard of: what the threads and the tables
hold about one order in a run in which no pass makes a NEW for it. -/
set_option autoImplicit false

namespace CryptoTrading

open TradingEngine

namespace Threads

/-! ## The stages of an order -/

/-- The step calls `UpdateSpotOnNew` for the order. -/
def AppliesSpotNew (orderId : String) (state : Threads) (action : ThreadAction) : Prop :=
  match turning state action with
  | none => False
  | some call => call.report.orderId = orderId ∧ call.report.marketType = .spot ∧
      (call.point = .recoverPositions ∨ call.point = .applyReport ∧ call.report.status = .new)

instance (orderId : String) (state : Threads) (action : ThreadAction) :
    Decidable (AppliesSpotNew orderId state action) := by
  unfold AppliesSpotNew
  cases turning state action <;> infer_instance

/-- With the step a terminal report of the order has been handled. -/
def HandlesTerminal (orderId : String) (state : Threads) (action : ThreadAction) : Prop :=
  match turning state action with
  | none => False
  | some call => call.report.orderId = orderId ∧ isTerminal call.report.status = true ∧
      (call.point = .pushReport ∨
        call.point = .updateLive ∧ state.engine.isDuplicateCancel call.report = true)

instance (orderId : String) (state : Threads) (action : ThreadAction) :
    Decidable (HandlesTerminal orderId state action) := by
  unfold HandlesTerminal
  cases turning state action <;> infer_instance

/-- How far the listener has come with the NEW of an order; `sum` are the NEWs
applied and the terminal reports handled. -/
inductive Stage (orderId clientOrderId : String) (sum : ℕ × ℕ) (state : Threads) : Prop where
  | unseen (none : sum = 0) (notLive : orderId ∉ state.engine.liveOrderInstruments)
      (noOrphan : orderId ∉ state.pass.orphanIds)
      (noReplay : ∀ call ∈ state.reconciler, call.report.orderId ≠ orderId)
      (arriving : ∀ call ∈ state.listener, call.report.orderId = orderId →
        call.report.status = .new ∧ (call.point = .checkLive ∨ call.point = .updateLive))
      (waits : orderId ∈ state.exchange → ∃ report rest,
        awaited orderId state = report :: rest ∧ report.status = .new)
  | entering (call : OrderUpdate) (none : sum.1 = 0) (listening : state.listener = some call)
      (own : call.report.orderId = orderId) (isNew : call.report.status = .new)
      (point : call.point = .eraseReservation ∨
        call.point = .applyReport ∧ Unrecorded state.engine clientOrderId)
      (heard : Heard orderId clientOrderId sum.2 state.engine state.listener state.reconciler)
  | entered (once : sum.1 ≤ 1) (placed : orderId ∈ state.exchange)
      (unrecorded : Unrecorded state.engine clientOrderId)
      (old : ∀ report ∈ awaited orderId state, report.status ≠ .new)
      (heard : Heard orderId clientOrderId sum.2 state.engine state.listener state.reconciler)

structure NewInv (orderId : String) (sum : ℕ × ℕ) (state : Threads) : Prop where
  agrees : Agrees orderId state
  status : ∀ {entry : PendingOrderInfo}, state.exchange.lookup orderId = some entry →
    isPending entry.report.status = true ∨ isTerminal entry.report.status = true
  tail : ∀ report ∈ (awaited orderId state).tail, report.status ≠ .new
  stage : ∀ clientOrderId, (∀ entry, state.exchange.lookup orderId = some entry →
    entry.clientOrderId = clientOrderId) → Stage orderId clientOrderId sum state

section Stages
variable {registry : InstrumentRegistry} {orderId clientOrderId : String} {sum : ℕ × ℕ}
  {state : Threads}

/-- Only the first report of an order is a NEW, and all carry one client order id. -/
theorem follows_placed {entry before : PendingOrderInfo}
    (legal : Publishable state.exchange entry)
    (found : state.exchange.lookup entry.report.orderId = some before) :
    entry.report.status ≠ .new ∧ entry.clientOrderId = before.clientOrderId ∧
      (isPending entry.report.status = true ∨ isTerminal entry.report.status = true) := by
  unfold Publishable at legal
  rw [found] at legal
  obtain ⟨_, named, _, follows⟩ := legal
  cases statusCase : entry.report.status <;> rw [statusCase] at follows <;>
    simp_all [isPending, isTerminal]

theorem tail_append_singleton {α : Type} {entries : List α} {entry other : α}
    (member : other ∈ (entries ++ [entry]).tail) :
    other ∈ entries.tail ∨ entries ≠ [] ∧ other = entry := by
  cases entries with
  | nil => cases member
  | cons first rest =>
      rcases List.mem_append.mp member with before | isLast
      · exact Or.inl before
      · exact Or.inr ⟨List.cons_ne_nil _ _, List.mem_singleton.mp isLast⟩

theorem Stage.publish (stage : Stage orderId clientOrderId sum state)
    (agrees : Agrees orderId state) (entry : PendingOrderInfo)
    (legal : Publishable state.exchange entry) :
    Stage orderId clientOrderId sum { state with
      exchange := state.exchange.insert entry.report.orderId entry
      wire := state.wire ++ [entry] } := by
  cases stage with
  | unseen none notLive noOrphan noReplay arriving waits =>
      refine Stage.unseen none notLive noOrphan noReplay arriving fun placed => ?_
      rw [awaited_publish]
      by_cases before : orderId ∈ state.exchange
      · obtain ⟨report, rest, shape, isNew⟩ := waits before
        exact ⟨report, _, by rw [shape, List.cons_append], isNew⟩
      · have own : entry.report.orderId = orderId :=
          ((Finmap.mem_insert.mp placed).resolve_right before).symm
        rw [(agrees.settled before).idle.1, if_pos own]
        unfold Publishable at legal
        rw [own, Finmap.lookup_eq_none.mpr before] at legal
        exact ⟨entry.report, [], rfl, legal.1⟩
  | entering call none listening own isNew point heard =>
      exact Stage.entering call none listening own isNew point heard
  | entered once placed unrecorded old heard =>
      refine Stage.entered once (Finmap.mem_insert.mpr (Or.inr placed)) unrecorded ?_ heard
      intro report member
      rw [awaited_publish] at member
      rcases List.mem_append.mp member with before | published
      · exact old report before
      · by_cases own : entry.report.orderId = orderId
        · rw [if_pos own] at published
          rw [List.mem_singleton.mp published]
          obtain ⟨before, found⟩ := Finmap.mem_iff.mp placed
          rw [← own] at found
          exact (follows_placed legal found).1
        · rw [if_neg own] at published
          cases published

theorem NewInv.publish (inv : NewInv orderId sum state) (entry : PendingOrderInfo)
    (legal : Publishable state.exchange entry)
    (agrees : Agrees orderId { state with
      exchange := state.exchange.insert entry.report.orderId entry
      wire := state.wire ++ [entry] }) :
    NewInv orderId sum { state with
      exchange := state.exchange.insert entry.report.orderId entry
      wire := state.wire ++ [entry] } := by
  refine ⟨agrees, fun {now} found => ?_, fun report member => ?_, fun clientOrderId named => ?_⟩
  · rw [UnorderedMap.lookup_insert_ite] at found
    split at found
    · cases found
      cases before : state.exchange.lookup entry.report.orderId with
      | none =>
          unfold Publishable at legal
          rw [before] at legal
          rw [legal.1]
          exact Or.inl rfl
      | some earlier => exact (follows_placed legal before).2.2
    · exact inv.status found
  · rw [awaited_publish] at member
    by_cases own : entry.report.orderId = orderId
    · rw [if_pos own] at member
      rcases tail_append_singleton member with before | ⟨busy, same⟩
      · exact inv.tail report before
      · rw [same]
        by_cases placed : orderId ∈ state.exchange
        · obtain ⟨before, found⟩ := Finmap.mem_iff.mp placed
          rw [← own] at found
          exact (follows_placed legal found).1
        · exact absurd (inv.agrees.settled placed).idle.1 busy
    · rw [if_neg own, List.append_nil] at member
      exact inv.tail report member
  · refine (inv.stage clientOrderId fun before found => ?_).publish inv.agrees entry legal
    have now := named
    simp only [UnorderedMap.lookup_insert_ite] at now
    by_cases own : orderId = entry.report.orderId
    · have sameName := now entry (if_pos own)
      rw [own] at found
      rw [← (follows_placed legal found).2.1]
      exact sameName
    · exact now before (by rw [if_neg own, found])

theorem Agrees.named (agrees : Agrees orderId state)
    (named : ∀ entry, state.exchange.lookup orderId = some entry →
      entry.clientOrderId = clientOrderId) :
    ∀ thread, ∀ call ∈ state.current thread, call.report.orderId = orderId →
      call.clientOrderId = clientOrderId := by
  intro thread call current own
  obtain ⟨entry, found, _, sameName⟩ := agrees.calls thread call current
  rw [own] at found
  rw [← sameName]
  exact named entry found

theorem callOk_begin (engine : TradingEngine) (report : ExecutionReport) (clientOrderId : String) :
    CallOk engine { report := report, clientOrderId := clientOrderId } :=
  ⟨by simp, by simp, by simp⟩

theorem Stage.record (stage : Stage orderId clientOrderId sum state) (agrees : Agrees orderId state)
    (named : ∀ entry, state.exchange.lookup orderId = some entry →
      entry.clientOrderId = clientOrderId)
    {other : String} (reservation : ReservationInfo) (unsent : Unsent state.exchange other) :
    Stage orderId clientOrderId sum { state with
      engine := { state.engine with
        clientOrderIdToReservation :=
          state.engine.clientOrderIdToReservation.insert other reservation } } := by
  have kept : orderId ∈ state.exchange → clientOrderId ∈
      state.engine.clientOrderIdToReservation.insert other reservation →
      clientOrderId ∈ state.engine.clientOrderIdToReservation := by
    intro placed present
    obtain ⟨entry, found⟩ := Finmap.mem_iff.mp placed
    have different := unsent orderId (Finmap.mem_keys.mpr placed)
    rw [found, Option.map_some, named entry found] at different
    exact (Finmap.mem_insert.mp present).resolve_left fun same => different (congrArg some same)
  have calls := agrees.named named
  have names : ∀ call, call ∈ state.listener ∨ call ∈ state.reconciler →
      call.report.orderId = orderId → call.clientOrderId = clientOrderId := by
    rintro call (listens | replays) own
    · exact calls .listener call listens own
    · exact calls .reconciler call replays own
  cases stage with
  | unseen none notLive noOrphan noReplay arriving waits =>
      exact Stage.unseen none notLive noOrphan noReplay arriving waits
  | entering call none listening own isNew point heard =>
      have placed : orderId ∈ state.exchange := by
        rw [← own]
        exact (agrees.calls .listener call listening).placed
      refine Stage.entering call none listening own isNew ?_
        (heard.tables Iff.rfl (kept placed) names)
      exact point.imp id fun ⟨here, absent⟩ => ⟨here, absent.mono (kept placed)⟩
  | entered once placed unrecorded old heard =>
      exact Stage.entered once placed (unrecorded.mono (kept placed)) old
        (heard.tables Iff.rfl (kept placed) names)

theorem Stage.receive (stage : Stage orderId clientOrderId sum state)
    {entry : PendingOrderInfo} {rest : List PendingOrderInfo} (free : state.listener = none)
    (head : state.wire = entry :: rest) (agrees : Agrees orderId state) :
    Stage orderId clientOrderId sum { state with
      wire := rest
      listener := some { report := entry.report, clientOrderId := entry.clientOrderId } } := by
  have same := awaited_receive orderId free head
  cases stage with
  | unseen none notLive noOrphan noReplay arriving waits =>
      refine Stage.unseen none notLive noOrphan noReplay (fun call isCall own => ?_)
        fun placed => ?_
      · cases isCall
        refine ⟨?_, Or.inl rfl⟩
        have own' : entry.report.orderId = orderId := own
        have placed : orderId ∈ state.exchange := by
          rw [← own']
          exact (agrees.wire entry (by rw [head]; exact List.mem_cons_self)).placed
        obtain ⟨report, others, shape, isNew⟩ := waits placed
        rw [awaited, free, unapplied_none, head, List.nil_append, List.map_cons,
          List.filter_cons_of_pos (by simp [own']), List.cons.injEq] at shape
        rw [shape.1]
        exact isNew
      · rw [same]
        exact waits placed
  | entering call none listening own isNew point heard =>
      rw [free] at listening
      cases listening
  | entered once placed unrecorded old heard =>
      refine Stage.entered once placed unrecorded ?_ (heard.setListener fun call isCall _ => ?_)
      · rw [same]
        exact old
      · cases isCall
        exact callOk_begin ..

theorem Stage.reconcile (stage : Stage orderId clientOrderId sum state)
    {action : PassAction} {pass : Pass} {call : Option OrderUpdate}
    (status : ∀ {entry : PendingOrderInfo}, state.exchange.lookup orderId = some entry →
      isPending entry.report.status = true ∨ isTerminal entry.report.status = true)
    (free : state.reconciler = none)
    (ran : passStep state.engine state.exchange state.pass action = some (pass, call))
    (quiet : ¬ StartsMissedNew orderId state (.reconcile action)) :
    Stage orderId clientOrderId sum { state with pass := pass, reconciler := call } := by
  have effect := passStep_effect ran
  have starts : started state (.reconcile action) = call := by
    rw [started, ran, Option.bind_some]
  have replays : ∀ made ∈ call, made.report.orderId = orderId →
      orderId ∈ state.pass.orphanIds ∧ isTerminal made.report.status = true ∧
        CallOk state.engine made := by
    intro made isMade own
    cases effect.call made isMade with
    | replay info orphan truth ended =>
        have own' : info.report.orderId = orderId := own
        rw [own'] at orphan
        refine ⟨orphan, ?_, callOk_begin ..⟩
        unfold TrueAnswer at truth
        rw [own'] at truth
        split at truth
        · exact truth.elim
        · next entry found =>
            have sameStatus : info.report.status = entry.report.status := by
              rw [← truth.1]
            rw [sameStatus] at ended ⊢
            exact (status found).resolve_left (by rw [ended]; exact Bool.false_ne_true)
    | missedNew info member unseen =>
        rw [StartsMissedNew, starts, isMade] at quiet
        exact absurd ⟨own, rfl⟩ quiet
  cases stage with
  | unseen none notLive noOrphan noReplay arriving waits =>
      refine Stage.unseen none notLive (fun orphan => ?_) (fun made isMade own => ?_) arriving waits
      · rcases effect.orphanIds orderId orphan with before | live
        · exact noOrphan before
        · exact notLive live
      · exact noOrphan (replays made isMade own).1
  | entering listens none listening own isNew point heard =>
      refine Stage.entering listens none listening own isNew point (heard.setReconciler ?_ ?_)
      · simp [free]
      · exact fun made isMade own => (replays made isMade own).2
  | entered once placed unrecorded old heard =>
      refine Stage.entered once placed unrecorded old (heard.setReconciler ?_ ?_)
      · simp [free]
      · exact fun made isMade own => (replays made isMade own).2

/-! ### Turns of calls -/

def Named (orderId clientOrderId : String) (state : Threads) : Prop :=
  ∀ call, call ∈ state.listener ∨ call ∈ state.reconciler → call.report.orderId = orderId →
    call.clientOrderId = clientOrderId

section Turns
variable {call : OrderUpdate} {after : TradingEngine} {later : Option OrderUpdate}

theorem other_of_later (ran : call.step registry state.engine = some (after, later))
    (other : call.report.orderId ≠ orderId) : ∀ made ∈ later, made.report.orderId ≠ orderId := by
  intro made isMade
  cases isMade
  rw [(same_call ran).1]
  exact other

theorem Stage.listenerOther (stage : Stage orderId clientOrderId sum state)
    (named : Named orderId clientOrderId state) (listening : state.listener = some call)
    (ran : call.step registry state.engine = some (after, later))
    (other : call.report.orderId ≠ orderId) :
    Stage orderId clientOrderId sum { state with engine := after, listener := later } := by
  have live := live_of_other ran other
  have kept := step_reservations ran clientOrderId
  have same : awaited orderId { state with engine := after, listener := later } =
      awaited orderId state :=
    (awaited_listenerTurn (turn_of_step ran) listening).resolve_right fun own => other own.1
  cases stage with
  | unseen none notLive noOrphan noReplay arriving waits =>
      refine Stage.unseen none (fun present => notLive (live.mp present)) noOrphan noReplay
        (fun made isMade own => absurd own (other_of_later ran other made isMade)) ?_
      rw [same]
      exact waits
  | entering listens none isListening own isNew point heard =>
      rw [listening] at isListening
      cases isListening
      exact absurd own other
  | entered once placed unrecorded old heard =>
      refine Stage.entered once placed (unrecorded.mono kept) ?_
        ((heard.tables live kept named).setListener
          fun made isMade own => absurd own (other_of_later ran other made isMade))
      rw [same]
      exact old

theorem Stage.reconcilerOther (stage : Stage orderId clientOrderId sum state)
    (named : Named orderId clientOrderId state) (replaying : state.reconciler = some call)
    (ran : call.step registry state.engine = some (after, later))
    (other : call.report.orderId ≠ orderId) :
    Stage orderId clientOrderId sum { state with engine := after, reconciler := later } := by
  have live := live_of_other ran other
  have kept := step_reservations ran clientOrderId
  have before : ∀ made ∈ state.reconciler, made.report.orderId ≠ orderId := by
    intro made isMade
    rw [replaying] at isMade
    cases isMade
    exact other
  have still : ∀ heard : Heard orderId clientOrderId sum.2 state.engine state.listener
      state.reconciler, Heard orderId clientOrderId sum.2 after state.listener later :=
    fun heard => (heard.tables live kept named).setReconciler before
      fun made isMade own => absurd own (other_of_later ran other made isMade)
  cases stage with
  | unseen none notLive noOrphan noReplay arriving waits =>
      exact Stage.unseen none (fun present => notLive (live.mp present)) noOrphan
        (other_of_later ran other) arriving waits
  | entering listens none isListening own isNew point heard =>
      exact Stage.entering listens none isListening own isNew
        (point.imp id fun ⟨here, absent⟩ => ⟨here, absent.mono kept⟩) (still heard)
  | entered once placed unrecorded old heard =>
      exact Stage.entered once placed (unrecorded.mono kept) old (still heard)

theorem appliesSpotNew_turn (orderId : String) {thread : Thread}
    (current : state.current thread = some call) :
    AppliesSpotNew orderId state (.update thread) ↔ call.report.orderId = orderId ∧
      call.report.marketType = .spot ∧ (call.point = .recoverPositions ∨
        call.point = .applyReport ∧ call.report.status = .new) := by
  rw [AppliesSpotNew, turning, current]

theorem handlesTerminal_turn (orderId : String) {thread : Thread}
    (current : state.current thread = some call) :
    HandlesTerminal orderId state (.update thread) ↔ call.report.orderId = orderId ∧
      isTerminal call.report.status = true ∧ (call.point = .pushReport ∨
        call.point = .updateLive ∧ state.engine.isDuplicateCancel call.report = true) := by
  rw [HandlesTerminal, turning, current]

/-- The count of handled terminal reports moves only when the call returns. -/
theorem counts_turn (orderId : String) {thread : Thread}
    (current : state.current thread = some call)
    (ran : call.step registry state.engine = some (after, later)) (handled : ℕ) :
    handled + (if HandlesTerminal orderId state (.update thread) then 1 else 0) = handled ∨
      later = none ∧ isTerminal call.report.status = true := by
  by_cases handles : HandlesTerminal orderId state (.update thread)
  · right
    obtain ⟨_, terminal, here | ⟨here, duplicate⟩⟩ :=
      (handlesTerminal_turn orderId current).mp handles
    · simp only [OrderUpdate.step, here] at ran
      cases ran
      exact ⟨rfl, terminal⟩
    · simp only [OrderUpdate.step, here, duplicate, if_true] at ran
      cases ran
      exact ⟨rfl, terminal⟩
  · left
    rw [if_neg handles, add_zero]

theorem updateLive_new (here : call.point = .updateLive) (isNew : call.report.status = .new)
    (ran : call.step registry state.engine = some (after, later)) :
    call.report.orderId ∈ after.liveOrderInstruments ∧
      later = some (call.goto .eraseReservation) := by
  have fresh : state.engine.isDuplicateCancel call.report = false := by
    simp [isDuplicateCancel, isNew]
  simp only [OrderUpdate.step, here, fresh, Bool.false_eq_true, if_false] at ran
  cases ran
  refine ⟨?_, rfl⟩
  rw [mem_updateLiveOrders]
  exact Or.inr ⟨rfl, Or.inl isNew⟩

theorem Stage.listenerFirst (none : sum = 0) (notLive : orderId ∉ state.engine.liveOrderInstruments)
    (noOrphan : orderId ∉ state.pass.orphanIds)
    (noReplay : ∀ call ∈ state.reconciler, call.report.orderId ≠ orderId)
    (waits : orderId ∈ state.exchange → ∃ report rest,
      awaited orderId state = report :: rest ∧ report.status = .new)
    (listening : state.listener = some call) (own : call.report.orderId = orderId)
    (isNew : call.report.status = .new)
    (point : call.point = .checkLive ∨ call.point = .updateLive)
    (ran : call.step registry state.engine = some (after, later)) :
    Stage orderId clientOrderId sum { state with engine := after, listener := later } := by
  rcases point with here | here
  · simp only [OrderUpdate.step, here, isNew, ne_eq, not_true_eq_false, false_and, if_false] at ran
    cases ran
    refine Stage.unseen none notLive noOrphan noReplay (fun made isMade _ => ?_) ?_
    · cases isMade
      exact ⟨isNew, Or.inr rfl⟩
    · have same : awaited orderId { state with listener := some (call.goto .updateLive) } =
          awaited orderId state := by
        rw [awaited, awaited, listening, unapplied_of_own own (by rw [here]; decide)]
        exact congrArg (· ++ _) (unapplied_of_own own (by simp [OrderUpdate.goto]))
      intro placed
      obtain ⟨report, rest, shape, first⟩ := waits placed
      exact ⟨report, rest, same.trans shape, first⟩
  · obtain ⟨live, next⟩ := updateLive_new here isNew ran
    rw [own] at live
    subst next
    refine Stage.entering (call.goto .eraseReservation) (by rw [none]; rfl) rfl own isNew
      (Or.inl rfl) ⟨fun gone => absurd live gone, fun made isMade own => ?_,
        fun made isMade _ => ?_, fun made isMade own => ?_, fun once => ?_⟩
    · exact absurd own (noReplay made isMade)
    · cases isMade
      refine ⟨by simp [OrderUpdate.goto], by simp [OrderUpdate.goto], fun terminal => ?_⟩
      have status : isTerminal call.report.status = true := terminal
      rw [isNew] at status
      cases status
    · exact absurd own (noReplay made isMade)
    · rw [none] at once
      exact absurd once (lt_irrefl 0)

theorem Heard.listenerStep
    (heard : Heard orderId clientOrderId sum.2 state.engine state.listener state.reconciler)
    (named : Named orderId clientOrderId state) (listening : state.listener = some call)
    (ran : call.step registry state.engine = some (after, later))
    (own : call.report.orderId = orderId)
    (old : call.report.status = .new → call.point ≠ .checkLive ∧ call.point ≠ .updateLive)
    (checked : call.point = .checkLive ∨ call.point = .updateLive →
      Unrecorded state.engine clientOrderId) :
    Heard orderId clientOrderId
      (sum.2 + if HandlesTerminal orderId state (.update .listener) then 1 else 0) after later
        state.reconciler := by
  have current : state.current .listener = some call := listening
  have turn := ownTurn (heard.listens call listening own) old (fun here _ => by
    rw [named call (Or.inl listening) own]
    exact checked (Or.inl here)) ran
  rw [listening] at heard
  exact heard.listenerTurn own (fun made isMade => named made (Or.inr isMade)) turn
    (step_reservations ran clientOrderId) (fun here => checked (Or.inr here))
    (counts_turn orderId current ran sum.2)

theorem Stage.listenerOwn (stage : Stage orderId clientOrderId sum state)
    (named : Named orderId clientOrderId state) (placed : orderId ∈ state.exchange)
    (onceNew : ∀ report ∈ (awaited orderId state).tail, report.status ≠ .new)
    (listening : state.listener = some call)
    (ran : call.step registry state.engine = some (after, later))
    (own : call.report.orderId = orderId) :
    Stage orderId clientOrderId
      (sum.1 + (if AppliesSpotNew orderId state (.update .listener) then 1 else 0),
        sum.2 + if HandlesTerminal orderId state (.update .listener) then 1 else 0)
      { state with engine := after, listener := later } := by
  have current : state.current .listener = some call := listening
  have applies := appliesSpotNew_turn orderId current
  have handles := handlesTerminal_turn orderId current
  have kept := step_reservations ran clientOrderId
  have ownName := named call (Or.inl listening) own
  cases stage with
  | unseen none notLive noOrphan noReplay arriving waits =>
      obtain ⟨isNew, point⟩ := arriving call listening own
      have first : Stage orderId clientOrderId sum
          { state with engine := after, listener := later } :=
        Stage.listenerFirst none notLive noOrphan noReplay waits listening own isNew point ran
      rw [if_neg (fun done => ?_), if_neg (fun done => ?_)]
      · exact first
      · obtain ⟨_, terminal, _⟩ := handles.mp done
        rw [isNew] at terminal
        cases terminal
      · obtain ⟨_, _, here⟩ := applies.mp done
        rcases point with point | point <;> simp [point] at here
  | entering listens none isListening own' isNew point heard =>
      rw [listening] at isListening
      cases isListening
      have notHandled : ¬ HandlesTerminal orderId state (.update .listener) := by
        intro done
        obtain ⟨_, terminal, _⟩ := handles.mp done
        rw [isNew] at terminal
        cases terminal
      rcases point with here | ⟨here, absent⟩
      · have still := heard.listenerStep named listening ran own (by simp [here]) (by simp [here])
        have notApplied : ¬ AppliesSpotNew orderId state (.update .listener) := by
          intro done
          obtain ⟨_, _, applying⟩ := applies.mp done
          simp [here] at applying
        simp only [OrderUpdate.step, here] at ran
        cases ran
        rw [if_neg notApplied, none]
        refine Stage.entering (call.goto .applyReport) rfl rfl own isNew (Or.inr ⟨rfl, ?_⟩) still
        rw [← ownName]
        exact unrecorded_erase call.clientOrderId (by rw [isNew]; rfl)
      · have still := heard.listenerStep named listening ran own (by simp [here]) (by simp [here])
        have shape : awaited orderId state = call.report ::
            awaited orderId { state with engine := after, listener := later } := by
          rcases (turn_of_step ran).unapplied orderId with ⟨_, notApplying, _⟩ | ⟨gone, pushed, _⟩
          · exact absurd here notApplying
          · rw [awaited, listening, unapplied_of_own own pushed, awaited, gone]
            rfl
        rw [shape] at onceNew
        refine Stage.entered ?_ placed (absent.mono kept) onceNew still
        rw [none]
        split <;> simp
  | entered once placed unrecorded old heard =>
      have notNew : call.report.status = .new → call.point = .pushReport := by
        intro isNew
        by_contra notPushed
        refine old call.report ?_ isNew
        rw [awaited, listening, unapplied_of_own own notPushed]
        exact List.mem_append_left _ List.mem_cons_self
      have still := heard.listenerStep named listening ran own
        (fun isNew => by rw [notNew isNew]; exact ⟨by decide, by decide⟩) fun _ => unrecorded
      have notApplied : ¬ AppliesSpotNew orderId state (.update .listener) := by
        intro done
        obtain ⟨_, _, recovers | ⟨here, isNew⟩⟩ := applies.mp done
        · exact (heard.listens call listening own).noRecovery.1 recovers
        · rw [notNew isNew] at here
          cases here
      rw [if_neg notApplied, add_zero]
      refine Stage.entered once placed (unrecorded.mono kept) ?_ still
      rcases awaited_listenerTurn (turn_of_step ran) listening with
        same | ⟨_, shape⟩
      · rw [same]
        exact old
      · rw [shape] at old
        exact fun report member => old report (List.mem_cons_of_mem _ member)

/-- The reconciler's turn for the order itself: it replays a terminal report. -/
theorem Stage.reconcilerOwn (stage : Stage orderId clientOrderId sum state)
    (named : Named orderId clientOrderId state) (replaying : state.reconciler = some call)
    (ran : call.step registry state.engine = some (after, later))
    (own : call.report.orderId = orderId) :
    Stage orderId clientOrderId
      (sum.1 + (if AppliesSpotNew orderId state (.update .reconciler) then 1 else 0),
        sum.2 + if HandlesTerminal orderId state (.update .reconciler) then 1 else 0)
      { state with engine := after, reconciler := later } := by
  have current : state.current .reconciler = some call := replaying
  have kept := step_reservations ran clientOrderId
  have counts := counts_turn orderId current ran sum.2
  have ownName := named call (Or.inr replaying) own
  have turns : ∀ heard : Heard orderId clientOrderId sum.2 state.engine state.listener
        state.reconciler, ¬ AppliesSpotNew orderId state (.update .reconciler) ∧
      Heard orderId clientOrderId (sum.2 +
        if HandlesTerminal orderId state (.update .reconciler) then 1 else 0) after state.listener
          later := by
    intro heard
    have terminal := heard.replays call replaying own
    have notNew : call.report.status ≠ .new := by
      intro isNew
      rw [isNew] at terminal
      cases terminal
    have ok := heard.relistens call replaying own
    have turn := ownTurn ok (fun isNew => absurd isNew notNew) (fun here gone => by
      rw [own] at gone
      rw [ownName]
      refine (heard.gone gone).resolve_right fun ⟨made, isMade, _, erasing⟩ => ?_
      rw [replaying] at isMade
      cases isMade
      rw [here] at erasing
      cases erasing) ran
    refine ⟨fun done => ?_, ?_⟩
    · obtain ⟨_, _, recovers | ⟨_, isNew⟩⟩ := (appliesSpotNew_turn orderId current).mp done
      · exact ok.noRecovery.1 recovers
      · exact notNew isNew
    · rw [replaying] at heard
      refine heard.reconcilerTurn own ownName (fun made isMade => named made (Or.inl isMade)) turn
        kept (fun made isMade => ?_) counts
      cases isMade
      exact (same_call ran).1
  cases stage with
  | unseen none notLive noOrphan noReplay arriving waits =>
      exact absurd own (noReplay call replaying)
  | entering listens none listening ownListens isNew point heard =>
      obtain ⟨notApplied, still⟩ := turns heard
      rw [if_neg notApplied, add_zero]
      exact Stage.entering listens none listening ownListens isNew
        (point.imp id fun ⟨here, absent⟩ => ⟨here, absent.mono kept⟩) still
  | entered once placed unrecorded old heard =>
      obtain ⟨notApplied, still⟩ := turns heard
      rw [if_neg notApplied, add_zero]
      exact Stage.entered once placed (unrecorded.mono kept) old still

end Turns

theorem NewInv.step {next : Threads} {action : ThreadAction} (inv : NewInv orderId sum state)
    (ran : Threads.step registry state action = some next)
    (quiet : ¬ StartsMissedNew orderId state action) :
    NewInv orderId (sum + (if AppliesSpotNew orderId state action then 1 else 0,
      if HandlesTerminal orderId state action then 1 else 0)) next := by
  have agrees := inv.agrees.step ran
  have idle : turning state action = none →
      sum + (if AppliesSpotNew orderId state action then 1 else 0,
        if HandlesTerminal orderId state action then 1 else 0) = sum := by
    intro none
    rw [if_neg (by rw [AppliesSpotNew, none]; exact id),
      if_neg (by rw [HandlesTerminal, none]; exact id)]
    exact add_zero sum
  cases moves_of_step ran with
  | publish entry legal =>
      rw [idle rfl]
      exact inv.publish entry legal agrees
  | record clientOrderId reservation unsent =>
      rw [idle rfl]
      exact ⟨agrees, inv.status, inv.tail, fun other named =>
        (inv.stage other named).record inv.agrees named reservation unsent⟩
  | receive entry rest free head =>
      rw [idle rfl]
      refine ⟨agrees, inv.status, ?_, fun other named =>
        (inv.stage other named).receive free head inv.agrees⟩
      rw [awaited_receive orderId free head]
      exact inv.tail
  | reconcile action pass call free moved =>
      rw [idle rfl]
      exact ⟨agrees, inv.status, inv.tail, fun other named =>
        (inv.stage other named).reconcile inv.status free moved quiet⟩
  | update thread call engine later current moved =>
      have names : ∀ clientOrderId, (∀ entry, state.exchange.lookup orderId = some entry →
          entry.clientOrderId = clientOrderId) → Named orderId clientOrderId state := by
        rintro clientOrderId named made (listens | replays) own
        · exact inv.agrees.named named .listener made listens own
        · exact inv.agrees.named named .reconciler made replays own
      have unmoved : call.report.orderId ≠ orderId →
          sum + (if AppliesSpotNew orderId state (.update thread) then 1 else 0,
            if HandlesTerminal orderId state (.update thread) then 1 else 0) = sum := by
        intro other
        rw [if_neg fun done => other ((appliesSpotNew_turn orderId current).mp done).1,
          if_neg fun done => other ((handlesTerminal_turn orderId current).mp done).1]
        exact add_zero sum
      have placed : call.report.orderId = orderId → orderId ∈ state.exchange := by
        intro own
        rw [← own]
        exact (inv.agrees.calls thread call current).placed
      cases thread with
      | listener =>
          have listening : state.listener = some call := current
          refine ⟨agrees, inv.status, ?_, fun other named => ?_⟩
          · rcases awaited_listenerTurn (turn_of_step moved) listening with same | ⟨_, shape⟩
            · exact fun report member => inv.tail report (by rw [← same]; exact member)
            · have onceNew := inv.tail
              rw [shape] at onceNew
              exact fun report member => onceNew report (List.mem_of_mem_tail member)
          · by_cases own : call.report.orderId = orderId
            · exact (inv.stage other named).listenerOwn (names other named) (placed own) inv.tail
                listening moved own
            · rw [unmoved own]
              exact (inv.stage other named).listenerOther (names other named) listening moved own
      | reconciler =>
          have replaying : state.reconciler = some call := current
          refine ⟨agrees, inv.status, inv.tail, fun other named => ?_⟩
          by_cases own : call.report.orderId = orderId
          · exact (inv.stage other named).reconcilerOwn (names other named) replaying moved own
          · rw [unmoved own]
            exact (inv.stage other named).reconcilerOther (names other named) replaying moved own

theorem Begun.newInv (begun : Begun orderId state) : NewInv orderId 0 state := by
  have unplaced := Finmap.lookup_eq_none.mpr begun.unplaced
  refine ⟨begun.agrees, fun found => ?_, ?_, fun clientOrderId _ => Stage.unseen rfl begun.notLive
    ?_ ?_ ?_ fun placed => absurd placed begun.unplaced⟩
  · rw [unplaced] at found
    cases found
  · rw [(begun.agrees.settled begun.unplaced).idle.1]
    simp
  · simp [begun.pass, Pass.orphanIds]
  · simp [begun.reconciler]
  · simp [begun.listener]

theorem NewInv.run {final : Threads} {actions : List ThreadAction} (begun : Begun orderId state)
    (ran : Runs.run (Threads.step registry) state actions = some final)
    (quiet : Runs.count (Threads.step registry) (StartsMissedNew orderId) state actions = 0) :
    NewInv orderId
      (Runs.count (Threads.step registry) (AppliesSpotNew orderId) state actions,
        Runs.count (Threads.step registry) (HandlesTerminal orderId) state actions) final := by
  have staged := Runs.total_induction (Threads.step registry)
    (fun state action => (if AppliesSpotNew orderId state action then 1 else 0,
      if HandlesTerminal orderId state action then 1 else 0))
    (fun sum state rest => NewInv orderId sum state ∧
      Runs.count (Threads.step registry) (StartsMissedNew orderId) state rest = 0)
    (fun sum state next action rest held stepped => by
      obtain ⟨here, later⟩ := Runs.count_cons_eq_zero _ _ stepped held.2
      exact ⟨held.1.step stepped here, later⟩)
    ⟨begun.newInv, quiet⟩ ran
  rw [Runs.total_prod] at staged
  exact staged.1

end Stages

end Threads

end CryptoTrading
