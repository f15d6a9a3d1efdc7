import CryptoTrading.Lib.SnapshotStream
import CryptoTrading.TradingEngine.StartUp
import CryptoTrading.TradingEngine.ThreadsSpec

/-! # What the start-up does to one order

Seen from one order, `Init` looks once and enters what it found at the end, and the
updates are a stream that was asked for before the look: each step is a step of the
snapshot and stream of that order, or the handling of its next update. -/
set_option autoImplicit false

namespace CryptoTrading

open TradingEngine SnapshotStream

def UpdatePoint.pastLive : UpdatePoint → Bool
  | .checkLive => false
  | .checkReservation => false
  | .recoverPositions => false
  | .recoverLive => false
  | .updateLive => false
  | .eraseReservation => true
  | .applyReport => true
  | .pushReport => true

namespace StartUp

def starts (report : ExecutionReport) : Bool := report.status = .new

def opens (report : ExecutionReport) : Bool := isPending report.status

/-- The same state, but for the fee. -/
def SameButFee (shown report : ExecutionReport) : Prop :=
  { shown with fee := report.fee, feeCurrency := report.feeCurrency } = report

def about (orderId : String) (reports : List ExecutionReport) : List ExecutionReport :=
  reports.filter fun report => report.orderId = orderId

def ofCall (pastLive : Bool) (call : Option OrderUpdate) : List ExecutionReport :=
  (call.filter fun call => call.point.pastLive = pastLive).toList.map OrderUpdate.report

def told (state : StartUp) : List ExecutionReport :=
  state.reports ++ state.engine.reportRing ++ ofCall true state.listener

def coming (state : StartUp) : List ExecutionReport :=
  ofCall false state.listener ++ state.wire.map PendingOrderInfo.report

/-- One order of the market as the reader of a snapshot and a stream sees it; of what
the strategy is told only if `listens`. -/
def watch (listens : Bool) (market : MarketType) (orderId : String) (state : StartUp) :
    Watch ExecutionReport where
  value := (state.exchange.lookup orderId).map PendingOrderInfo.report
  channel := market ∈ state.effective
  toRead := WillRead market orderId state
  found := about orderId (state.allPendingOrders.map PendingOrderInfo.report)
  told := if listens then about orderId state.told else []
  coming := about orderId state.coming
  member := orderId ∈ state.engine.liveOrderInstruments
  entered := state.point = .finished

structure Trades (registry : InstrumentRegistry) (market : MarketType) (orderId : String)
    (state : StartUp) : Prop where
  market : ∀ {entry}, state.exchange.lookup orderId = some entry →
    entry.report.marketType = market
  registered : ∀ {entry}, state.exchange.lookup orderId = some entry →
    registry.find entry.report.instrument ≠ none

def Followed (orderId : String) (state : StartUp) : Prop :=
  ∀ entry, state.exchange.lookup orderId = some entry →
    entry.report.instrument ∈ state.engine.strategyInstruments

/-- What is on its way about an order is a report of it. -/
structure Genuine (state : StartUp) : Prop where
  keyed : ∀ {id entry}, state.exchange.lookup id = some entry → entry.report.orderId = id
  wire : ∀ info ∈ state.wire, Known state.exchange info.report info.clientOrderId ∧
    info.report.status ≠ .cancelFailed
  listener : ∀ call ∈ state.listener, Known state.exchange call.report call.clientOrderId ∧
    call.report.status ≠ .cancelFailed
  pending : ∀ info ∈ state.allPendingOrders, Known state.exchange info.report info.clientOrderId

/-! ## The kinds of step -/

inductive Moves (registry : InstrumentRegistry) (state : StartUp) :
    StartAction → StartUp → Prop where
  | publish (entry : PendingOrderInfo) (legal : Threads.Publishable state.exchange entry) :
      Moves registry state (.publish entry)
        { state with
          exchange := state.exchange.insert entry.report.orderId entry
          wire := if entry.report.marketType ∈ state.effective then state.wire ++ [entry]
            else state.wire }
  | takeUp (market : MarketType) :
      Moves registry state (.takeUp market) { state with effective := market :: state.effective }
  | receive (entry : PendingOrderInfo) (rest : List PendingOrderInfo)
      (free : state.listener = none) (head : state.wire = entry :: rest) :
      Moves registry state .receive
        { state with
          wire := rest
          listener := if registry.find entry.report.instrument = none then none
            else some { report := entry.report, clientOrderId := entry.clientOrderId } }
  | update (call : OrderUpdate) (engine : TradingEngine) (later : Option OrderUpdate)
      (current : state.listener = some call)
      (scope : Threads.Scope registry state.engine call engine later) :
      Moves registry state .update { state with engine := engine, listener := later }
  | subscribe (market : MarketType) (here : state.point = .subscribe market) :
      Moves registry state .subscribe
        { state with subscribed := market :: state.subscribed, point := .ask market }
  | ask (market : MarketType) (here : state.point = .ask market) :
      Moves registry state .ask
        { state with point := .read market (state.exchange.pendingIds market) }
  | page (ids : List String) (market : MarketType) (owed : Finset String)
      (here : state.point = .read market owed) :
      Moves registry state (.page ids)
        { state with
          point := .read market (owed \ ids.toFinset)
          allPendingOrders := state.allPendingOrders ++
            ids.filterMap (shownOrder registry state.exchange market) }
  | endQuery (market : MarketType) (owed : Finset String)
      (here : state.point = .read market owed) :
      Moves registry state .endQuery { state with point := InitPoint.afterQuery market }
  | insert (here : state.point = .insert) :
      Moves registry state .insert
        { state with
          engine := insertPending state.engine state.allPendingOrders
          point := .finished }
  | record (clientOrderId : String) (reservation : ReservationInfo) :
      Moves registry state (.record clientOrderId reservation)
        { state with
          engine := { state.engine with
            clientOrderIdToReservation :=
              state.engine.clientOrderIdToReservation.insert clientOrderId reservation } }
  | writePositions (positions : PositionManager) :
      Moves registry state (.writePositions positions)
        { state with engine := state.engine.setPositions positions }
  | startStrategy : Moves registry state .startStrategy { state with strategyStarted := true }
  | pop (report : ExecutionReport) (rest : List ExecutionReport)
      (ring : state.engine.reportRing = report :: rest) :
      Moves registry state .pop
        { state with
          engine := { state.engine with reportRing := rest }
          reports := state.reports ++ [report] }

section Moves
variable {registry : InstrumentRegistry} {market : MarketType} {orderId : String}
  {state next : StartUp} {action : StartAction}

theorem moves_of_step (ran : step registry state action = some next) :
    Moves registry state action next := by
  cases action with
  | publish entry =>
      obtain ⟨legal, result⟩ := Option.ite_none_right_eq_some.mp ran
      cases result
      exact .publish entry legal
  | takeUp market =>
      obtain ⟨-, result⟩ := Option.ite_none_right_eq_some.mp ran
      cases result
      exact .takeUp market
  | receive =>
      simp only [step] at ran
      split at ran
      · next entry rest free head =>
          cases ran
          exact .receive entry rest free head
      · cases ran
  | update =>
      simp only [step] at ran
      split at ran
      · cases ran
      · next call current =>
          obtain ⟨⟨engine, later⟩, moved, rfl⟩ := Option.map_eq_some_iff.mp ran
          exact .update call engine later current (Threads.scope_of_step moved)
  | subscribe =>
      simp only [step] at ran
      split at ran
      · next market here =>
          cases ran
          exact .subscribe market here
      · cases ran
  | ask =>
      simp only [step] at ran
      split at ran
      · next market here =>
          cases ran
          exact .ask market here
      · cases ran
  | page ids =>
      simp only [step] at ran
      split at ran
      · next market owed here =>
          cases ran
          exact .page ids market owed here
      · cases ran
  | endQuery =>
      simp only [step] at ran
      split at ran
      · next market owed here =>
          cases ran
          exact .endQuery market owed here
      · cases ran
  | insert =>
      obtain ⟨here, result⟩ := Option.ite_none_right_eq_some.mp ran
      cases result
      exact .insert here
  | record clientOrderId reservation =>
      obtain ⟨-, result⟩ := Option.ite_none_right_eq_some.mp ran
      cases result
      exact .record clientOrderId reservation
  | writePositions positions =>
      cases ran
      exact .writePositions positions
  | startStrategy =>
      obtain ⟨-, result⟩ := Option.ite_none_right_eq_some.mp ran
      cases result
      exact .startStrategy
  | pop =>
      obtain ⟨-, result⟩ := Option.ite_none_right_eq_some.mp ran
      obtain ⟨⟨report, rest⟩, popped, rfl⟩ := Option.map_eq_some_iff.mp result
      cases ring : state.engine.reportRing with
      | nil =>
          rw [ring] at popped
          cases popped
      | cons first others =>
          rw [ring] at popped
          cases popped
          exact .pop _ _ ring

theorem lookup_step {before : PendingOrderInfo} (moves : Moves registry state action next)
    (found : state.exchange.lookup orderId = some before) :
    ∃ after, next.exchange.lookup orderId = some after ∧
      Threads.identity after.report = Threads.identity before.report := by
  cases moves with
  | publish entry legal =>
      dsimp only
      rw [UnorderedMap.lookup_insert_ite]
      split
      · next own =>
          unfold Threads.Publishable at legal
          rw [← own, found] at legal
          exact ⟨entry, rfl, legal.2.2.1⟩
      · exact ⟨before, found, rfl⟩
  | _ => exact ⟨before, found, rfl⟩

theorem insertPending_frame (engine : TradingEngine) (pending : List PendingOrderInfo) :
    insertPending engine pending = { engine with
      liveOrderInstruments := (insertPending engine pending).liveOrderInstruments } := by
  rw [insertPending]
  induction pending generalizing engine with
  | nil => rfl
  | cons info rest ih => exact ih (engine.insertLive info.report.orderId info.report.instrument)

theorem strategyInstruments_step (moves : Moves registry state action next) :
    next.engine.strategyInstruments = state.engine.strategyInstruments := by
  cases moves with
  | update call engine later current scope =>
      cases scope with
      | updateLive =>
          dsimp only
          rw [updateLiveOrders]
          split <;> rfl
      | eraseReservation =>
          dsimp only
          rw [eraseReservation]
          split <;> rfl
      | pushReport =>
          dsimp only
          rw [pushReport]
          split <;> rfl
      | _ => rfl
  | insert =>
      dsimp only
      rw [insertPending_frame]
  | _ => rfl

theorem Trades.before (trades : Trades registry market orderId next)
    (moves : Moves registry state action next) : Trades registry market orderId state := by
  constructor
  · intro entry found
    obtain ⟨after, foundAfter, same⟩ := lookup_step moves found
    have sameMarket := (ExecutionReport.mk.inj same).2.2.2.2.1
    exact sameMarket.symm.trans (trades.market foundAfter)
  · intro entry found
    obtain ⟨after, foundAfter, same⟩ := lookup_step moves found
    have sameInstrument := (ExecutionReport.mk.inj same).1
    have registered := trades.registered foundAfter
    rwa [show after.report.instrument = entry.report.instrument from sameInstrument] at registered

theorem Followed.before (followed : Followed orderId next)
    (moves : Moves registry state action next) : Followed orderId state := by
  intro entry found
  obtain ⟨after, foundAfter, same⟩ := lookup_step moves found
  have sameInstrument := (ExecutionReport.mk.inj same).1
  have inside := followed after foundAfter
  rwa [show after.report.instrument = entry.report.instrument from sameInstrument,
    strategyInstruments_step moves] at inside

end Moves

section Genuine
variable {registry : InstrumentRegistry} {market : MarketType} {orderId : String}
  {state next : StartUp} {action : StartAction}

theorem Begins.genuine (begins : Begins orderId state) : Genuine state where
  keyed := begins.keyed
  wire := by simp [begins.wire]
  listener := by simp [begins.listener]
  pending := by simp [begins.allPendingOrders]

theorem shownOrder_some {asked : MarketType} {id : String} {info : PendingOrderInfo}
    (shown : shownOrder registry state.exchange asked id = some info) : ∃ entry,
      state.exchange.lookup id = some entry ∧ info = queried entry ∧
        isPending entry.report.status = true ∧ entry.report.marketType = asked := by
  unfold shownOrder at shown
  split at shown
  · cases shown
  · next entry found =>
      obtain ⟨⟨isOpen, sameMarket, -⟩, result⟩ := Option.ite_none_right_eq_some.mp shown
      cases result
      exact ⟨entry, found, rfl, isOpen, sameMarket⟩

theorem notCancelFailed_of_publishable {exchange : Exchange} {entry : PendingOrderInfo}
    (legal : Threads.Publishable exchange entry) : entry.report.status ≠ .cancelFailed := by
  intro failed
  unfold Threads.Publishable at legal
  split at legal
  · rw [failed] at legal
    cases legal.1
  · obtain ⟨-, -, -, follows⟩ := legal
    rw [failed] at follows
    exact follows

theorem Genuine.step (genuine : Genuine state) (moves : Moves registry state action next) :
    Genuine next := by
  cases moves with
  | publish entry legal =>
      have kept : ∀ {report clientOrderId}, Known state.exchange report clientOrderId →
          Known (state.exchange.insert entry.report.orderId entry) report clientOrderId :=
        Threads.known_publish legal
      have wire : ∀ info ∈ state.wire ++ [entry],
          Known (state.exchange.insert entry.report.orderId entry) info.report info.clientOrderId ∧
            info.report.status ≠ .cancelFailed := by
        intro info member
        rcases List.mem_append.mp member with before | published
        · obtain ⟨known, status⟩ := genuine.wire info before
          exact ⟨kept known, status⟩
        · rw [List.mem_singleton.mp published]
          exact ⟨⟨entry, by rw [UnorderedMap.lookup_insert_ite, if_pos rfl], rfl, rfl⟩,
            notCancelFailed_of_publishable legal⟩
      refine ⟨fun {id other} found => ?_, fun info member => ?_, fun call current => ?_,
        fun info member => kept (genuine.pending info member)⟩
      · rw [UnorderedMap.lookup_insert_ite] at found
        split at found
        · next own =>
            cases found
            exact own.symm
        · exact genuine.keyed found
      · dsimp only at member
        split at member
        · exact wire info member
        · exact wire info (List.mem_append_left _ member)
      · obtain ⟨known, status⟩ := genuine.listener call current
        exact ⟨kept known, status⟩
  | receive entry rest free head =>
      obtain ⟨known, status⟩ := genuine.wire entry (by rw [head]; exact List.mem_cons_self)
      refine ⟨genuine.keyed, fun info member => ?_, fun call current => ?_, genuine.pending⟩
      · exact genuine.wire info (by rw [head]; exact List.mem_cons_of_mem _ member)
      · dsimp only at current
        split at current
        · cases current
        · cases current
          exact ⟨known, status⟩
  | update call engine later current scope =>
      refine ⟨genuine.keyed, genuine.wire, fun other now => ?_, genuine.pending⟩
      have before := genuine.listener call current
      cases scope <;> first | (cases now; done) | (cases now; exact before)
  | page ids asked owed here =>
      refine ⟨genuine.keyed, genuine.wire, genuine.listener, fun info member => ?_⟩
      rcases List.mem_append.mp member with before | shown
      · exact genuine.pending info before
      · obtain ⟨id, -, isInfo⟩ := List.mem_filterMap.mp shown
        obtain ⟨entry, placed, rfl, -⟩ := shownOrder_some isInfo
        refine ⟨entry, ?_, rfl, rfl⟩
        have keyed : entry.report.orderId = id := genuine.keyed placed
        exact keyed.symm ▸ placed
  | _ => exact ⟨genuine.keyed, genuine.wire, genuine.listener, genuine.pending⟩

end Genuine

/-! ## The parts of the view -/

section Parts
variable {orderId : String}

theorem about_append (first second : List ExecutionReport) :
    about orderId (first ++ second) = about orderId first ++ about orderId second :=
  List.filter_append ..

theorem about_own {report : ExecutionReport} (own : report.orderId = orderId) :
    about orderId [report] = [report] := by
  simp [about, own]

theorem about_other {report : ExecutionReport} (other : report.orderId ≠ orderId) :
    about orderId [report] = [] := by
  simp [about, other]

theorem about_cons (report : ExecutionReport) (rest : List ExecutionReport) :
    about orderId (report :: rest) = about orderId [report] ++ about orderId rest :=
  about_append [report] rest

theorem about_eq_nil_iff {reports : List ExecutionReport} :
    about orderId reports = [] ↔ ∀ report ∈ reports, report.orderId ≠ orderId := by
  simp [about, List.filter_eq_nil_iff]

@[simp] theorem ofCall_none (pastLive : Bool) : ofCall pastLive none = [] := rfl

theorem ofCall_some (pastLive : Bool) (call : OrderUpdate) :
    ofCall pastLive (some call) =
      if call.point.pastLive = pastLive then [call.report] else [] := by
  by_cases here : call.point.pastLive = pastLive <;> simp [ofCall, here]

end Parts

/-! ## One step, seen from the order -/

section View
variable {registry : InstrumentRegistry} {market : MarketType} {orderId : String}
  {state next : StartUp} {listens : Bool}

/-- The moves of the order's snapshot and stream in which nothing is handled. -/
abbrev OrderStep : Watch ExecutionReport → Watch ExecutionReport → Prop :=
  SnapshotStream.Step starts opens SameButFee

theorem sameButFee_refl (report : ExecutionReport) : SameButFee report report := rfl

theorem Genuine.placed (genuine : Genuine state) {info : PendingOrderInfo}
    (onWire : info ∈ state.wire) : ∃ entry,
      state.exchange.lookup info.report.orderId = some entry ∧
        entry.report.instrument = info.report.instrument := by
  obtain ⟨⟨entry, found, same, -⟩, -⟩ := genuine.wire info onWire
  exact ⟨entry, found, (ExecutionReport.mk.inj same).1⟩

theorem closed_of_notPending (trades : Trades registry market orderId state)
    (notPending : orderId ∉ state.exchange.pendingIds market) :
    Closed opens (watch listens market orderId state).value := by
  intro stored value
  obtain ⟨entry, found, rfl⟩ := Option.map_eq_some_iff.mp value
  by_contra isOpen
  apply notPending
  rw [Exchange.pendingIds, Finset.mem_filter]
  exact ⟨Finmap.mem_keys.mpr (Finmap.mem_of_lookup_eq_some found), entry, found,
    Bool.not_eq_false _ ▸ isOpen, trades.market found⟩

theorem watch_publish {entry : PendingOrderInfo} (trades : Trades registry market orderId next)
    (legal : Threads.Publishable state.exchange entry)
    (now : next = { state with
      exchange := state.exchange.insert entry.report.orderId entry
      wire := if entry.report.marketType ∈ state.effective then state.wire ++ [entry]
        else state.wire })
    (inTime : ¬ PassedOver orderId state (.publish entry)) :
    OrderStep (watch listens market orderId state) (watch listens market orderId next) := by
  by_cases own : entry.report.orderId = orderId
  · have placed : next.exchange.lookup orderId = some entry := by
      rw [now]
      dsimp only
      rw [UnorderedMap.lookup_insert_ite, if_pos own.symm]
    have sameMarket := trades.market placed
    have legal' : Legal starts opens (watch listens market orderId state).value entry.report := by
      unfold Threads.Publishable at legal
      rw [own] at legal
      unfold SnapshotStream.Legal watch
      cases before : state.exchange.lookup orderId with
      | none =>
          rw [before] at legal
          exact decide_eq_true legal.1
      | some earlier =>
          rw [before] at legal
          exact legal.1
    by_cases heard : entry.report.marketType ∈ state.effective
    · have channel : (watch listens market orderId state).channel = true := by
        rw [← sameMarket]
        exact decide_eq_true heard
      have shape : watch listens market orderId next = { watch listens market orderId state with
          value := some entry.report
          coming := (watch listens market orderId state).coming ++ [entry.report] } := by
        rw [if_pos heard] at now
        subst now
        ext1 <;> try rfl
        · exact congrArg (Option.map PendingOrderInfo.report) placed
        · simp [watch, coming, about_append, about_own own]
      rw [shape]
      exact .publish legal' channel
    · have unread : WillRead market orderId state := by
        by_contra read
        exact inTime ⟨own, heard, by rwa [sameMarket]⟩
      have shape : watch listens market orderId next = { watch listens market orderId state with
          value := some entry.report } := by
        rw [if_neg heard] at now
        subst now
        ext1 <;> try rfl
        exact congrArg (Option.map PendingOrderInfo.report) placed
      rw [shape]
      refine .publishUnseen legal' ?_ (decide_eq_true unread)
      rw [← sameMarket]
      exact decide_eq_false heard
  · have shape : watch listens market orderId next = watch listens market orderId state := by
      subst now
      ext1 <;> try rfl
      · simp only [watch, UnorderedMap.lookup_insert_ite, if_neg (Ne.symm own)]
      · simp only [watch, coming]
        split
        · simp [about_append, about_other own]
        · rfl
    rw [shape]
    exact .idle _

theorem watch_takeUp (taken : MarketType)
    (now : next = { state with effective := taken :: state.effective }) :
    OrderStep (watch listens market orderId state) (watch listens market orderId next) := by
  by_cases here : market ∈ taken :: state.effective
  · have shape : watch listens market orderId next =
        { watch listens market orderId state with channel := true } := by
      subst now
      ext1 <;> try rfl
      exact decide_eq_true here
    rw [shape]
    exact .openChannel _
  · have shape : watch listens market orderId next = watch listens market orderId state := by
      subst now
      ext1 <;> try rfl
      have before : market ∉ state.effective := fun inside => here (List.mem_cons_of_mem _ inside)
      simp only [watch, decide_eq_false here, decide_eq_false before]
    rw [shape]
    exact .idle _

theorem watch_receive {entry : PendingOrderInfo} {rest : List PendingOrderInfo}
    (genuine : Genuine state) (trades : Trades registry market orderId state)
    (free : state.listener = none) (head : state.wire = entry :: rest)
    (now : next = { state with
      wire := rest
      listener := if registry.find entry.report.instrument = none then none
        else some { report := entry.report, clientOrderId := entry.clientOrderId } }) :
    watch listens market orderId next = watch listens market orderId state := by
  by_cases unregistered : registry.find entry.report.instrument = none
  · have other : entry.report.orderId ≠ orderId := by
      intro own
      have onWire : entry ∈ state.wire := by
        rw [head]
        exact List.mem_cons_self
      obtain ⟨placed, found, same⟩ := genuine.placed onWire
      rw [own] at found
      exact trades.registered found (by rw [same]; exact unregistered)
    rw [if_pos unregistered] at now
    subst now
    ext1 <;> try rfl
    · simp only [watch, told, free]
    · simp only [watch, coming, free, head, List.map_cons, ofCall_none, List.nil_append]
      rw [about_cons, about_other other, List.nil_append]
  · rw [if_neg unregistered] at now
    subst now
    ext1 <;> try rfl
    · simp [watch, told, free, ofCall_some, UpdatePoint.pastLive]
    · simp [watch, coming, free, head, ofCall_some, UpdatePoint.pastLive]

/-- `Init` goes on; what it will not read any more is closed. -/
theorem watch_goOn (frame : watch listens market orderId next =
      { watch listens market orderId state with toRead := WillRead market orderId next })
    (fewer : WillRead market orderId next → WillRead market orderId state)
    (closed : WillRead market orderId state → ¬ WillRead market orderId next →
      Closed opens (watch listens market orderId state).value) :
    OrderStep (watch listens market orderId state) (watch listens market orderId next) := by
  rw [frame]
  by_cases same : WillRead market orderId state ↔ WillRead market orderId next
  · rw [← decide_eq_decide.mpr same]
    exact .idle _
  · have read : ¬ WillRead market orderId next := fun after => same ⟨fun _ => after, fewer⟩
    have unread : WillRead market orderId state := by
      by_contra before
      exact same ⟨fun unread => absurd unread before, fun unread => absurd unread read⟩
    rw [decide_eq_false read]
    exact .pass (closed unread read)

/-- Only the place in `Init` has changed, and not to or from its end. -/
theorem watch_frame {point : InitPoint} {subscribed : List MarketType}
    (now : next = { state with subscribed := subscribed, point := point })
    (early : state.point ≠ .finished) (stillEarly : point ≠ .finished) :
    watch listens market orderId next =
      { watch listens market orderId state with toRead := WillRead market orderId next } := by
  subst now
  ext1 <;> try rfl
  simp [watch, early, stillEarly]

theorem watch_subscribe {toAsk : MarketType} {subscribed : List MarketType}
    (here : state.point = .subscribe toAsk)
    (now : next = { state with subscribed := subscribed, point := .ask toAsk }) :
    OrderStep (watch listens market orderId state) (watch listens market orderId next) := by
  have same : WillRead market orderId next ↔ WillRead market orderId state := by
    subst now
    simp only [WillRead, here]
  exact watch_goOn (watch_frame now (by simp [here]) (by simp)) same.mp
    fun before after => absurd (same.mpr before) after

theorem watch_ask {asked : MarketType} (trades : Trades registry market orderId state)
    (here : state.point = .ask asked)
    (now : next = { state with point := .read asked (state.exchange.pendingIds asked) }) :
    OrderStep (watch listens market orderId state) (watch listens market orderId next) := by
  refine watch_goOn (watch_frame now (by simp [here]) (by simp)) (fun after => ?_)
    fun before after => ?_
  · subst now
    simp only [WillRead, here] at after ⊢
    cases asked <;> simp_all
  · refine closed_of_notPending trades fun pending => after ?_
    subst now
    simp only [WillRead, here] at before ⊢
    cases asked <;> cases market <;> simp_all

theorem watch_endQuery {asked : MarketType} {owed : Finset String}
    (trades : Trades registry market orderId state) (here : state.point = .read asked owed)
    (now : next = { state with point := InitPoint.afterQuery asked })
    (whole : ¬ PassedOver orderId state .endQuery) :
    OrderStep (watch listens market orderId state) (watch listens market orderId next) := by
  have early : InitPoint.afterQuery asked ≠ .finished := by cases asked <;> nofun
  refine watch_goOn (watch_frame now (by simp [here]) early) (fun after => ?_)
    fun before after => ?_
  · subst now
    simp only [WillRead, here] at after ⊢
    cases asked <;> simp_all [InitPoint.afterQuery]
  · refine closed_of_notPending trades fun pending => ?_
    subst now
    simp only [PassedOver, WillRead, here] at before after whole
    cases asked <;> cases market <;> simp_all [InitPoint.afterQuery]

theorem watch_page {ids : List String} {asked : MarketType} {owed : Finset String}
    (genuine : Genuine state) (trades : Trades registry market orderId state)
    (here : state.point = .read asked owed)
    (now : next = { state with
      point := .read asked (owed \ ids.toFinset)
      allPendingOrders := state.allPendingOrders ++
        ids.filterMap (shownOrder registry state.exchange asked) }) :
    OrderStep (watch listens market orderId state) (watch listens market orderId next) := by
  -- what the page shows of the order
  obtain ⟨shown, isShown⟩ : ∃ shown, about orderId
      ((ids.filterMap (shownOrder registry state.exchange asked)).map PendingOrderInfo.report) =
        shown := ⟨_, rfl⟩
  have found : (watch listens market orderId next).found =
      (watch listens market orderId state).found ++ shown := by
    rw [← isShown, now, watch, watch]
    dsimp only
    rw [List.map_append, about_append]
  have ofShown : ∀ item ∈ shown, ∃ entry, orderId ∈ ids ∧ asked = market ∧
      state.exchange.lookup orderId = some entry ∧ item = (queried entry).report ∧
        isPending entry.report.status = true := by
    intro item member
    rw [← isShown, about, List.mem_filter, decide_eq_true_eq] at member
    obtain ⟨inside, own⟩ := member
    obtain ⟨info, inPage, rfl⟩ := List.mem_map.mp inside
    obtain ⟨id, inIds, isInfo⟩ := List.mem_filterMap.mp inPage
    obtain ⟨entry, placed, rfl, isOpen, sameMarket⟩ := shownOrder_some isInfo
    have keyed : entry.report.orderId = id := genuine.keyed placed
    have sameId : id = orderId := keyed.symm.trans own
    subst sameId
    exact ⟨entry, inIds, sameMarket.symm.trans (trades.market placed), placed, rfl, isOpen⟩
  have frame : watch listens market orderId next = { watch listens market orderId state with
      toRead := WillRead market orderId next
      found := (watch listens market orderId state).found ++ shown } := by
    rw [← found, now]
    ext1 <;> try rfl
    simp [watch, here]
  cases shown with
  | nil =>
      rw [List.append_nil] at frame
      refine watch_goOn frame (fun after => ?_) fun before after => ?_
      · subst now
        simp only [WillRead, here, Finset.mem_sdiff] at after ⊢
        exact after.imp_left fun owing => ⟨owing.1, owing.2.1⟩
      · -- the page has come to the order and does not show it
        intro stored value
        by_contra isOpen
        obtain ⟨entry, placed, rfl⟩ := Option.map_eq_some_iff.mp value
        have onPage : asked = market ∧ orderId ∈ ids := by
          subst now
          simp only [WillRead, here, Finset.mem_sdiff, List.mem_toFinset] at before after
          tauto
        have isInfo : shownOrder registry state.exchange asked orderId = some (queried entry) := by
          unfold shownOrder
          rw [placed]
          exact if_pos ⟨Bool.not_eq_false _ ▸ isOpen,
            (trades.market placed).trans onPage.1.symm, trades.registered placed⟩
        have member : (queried entry).report ∈ about orderId
            ((ids.filterMap (shownOrder registry state.exchange asked)).map
              PendingOrderInfo.report) := by
          rw [about, List.mem_filter, decide_eq_true_eq]
          exact ⟨List.mem_map_of_mem (List.mem_filterMap.mpr ⟨orderId, onPage.2, isInfo⟩),
            show entry.report.orderId = orderId from genuine.keyed placed⟩
        rw [isShown] at member
        cases member
  | cons first rest =>
      obtain ⟨entry, inIds, sameMarket, placed, -, isOpen⟩ := ofShown first List.mem_cons_self
      have read : ¬ WillRead market orderId next := by
        subst now
        subst sameMarket
        simp only [WillRead, Finset.mem_sdiff, List.mem_toFinset, inIds]
        cases asked <;> simp
      rw [frame, decide_eq_false read]
      refine .look (congrArg (Option.map PendingOrderInfo.report) placed) isOpen
        (List.cons_ne_nil _ _) fun item member => ?_
      obtain ⟨other, -, -, found, rfl, -⟩ := ofShown item member
      rw [placed, Option.some.injEq] at found
      rw [found]
      rfl

theorem mem_insertPending (engine : TradingEngine) (pending : List PendingOrderInfo) :
    orderId ∈ (insertPending engine pending).liveOrderInstruments ↔
      orderId ∈ engine.liveOrderInstruments ∨
        about orderId (pending.map PendingOrderInfo.report) ≠ [] := by
  rw [insertPending]
  induction pending generalizing engine with
  | nil => simp [about]
  | cons info rest ih =>
      rw [List.map_cons, List.foldl_cons, ih, about_cons]
      by_cases own : info.report.orderId = orderId
      · simp [insertLive, about_own own, Finmap.mem_insert, own]
      · simp [insertLive, about_other own, Finmap.mem_insert, Ne.symm own]

theorem watch_insert (here : state.point = .insert) (now : next = { state with
      engine := insertPending state.engine state.allPendingOrders
      point := .finished }) :
    OrderStep (watch listens market orderId state) (watch listens market orderId next) := by
  have read : (watch listens market orderId state).toRead = false := by
    simp [watch, WillRead, here]
  have early : (watch listens market orderId state).entered = false := by
    simp [watch, here]
  have ring : (insertPending state.engine state.allPendingOrders).reportRing =
      state.engine.reportRing := by
    rw [insertPending_frame]
  have shape : watch listens market orderId next = { watch listens market orderId state with
      member := (watch listens market orderId state).member ||
        !(watch listens market orderId state).found.isEmpty
      entered := true } := by
    subst now
    ext1 <;> try rfl
    · rw [read]
      exact decide_eq_false id
    · simp only [watch, told, ring]
    · simp only [watch, mem_insertPending]
      rw [Bool.eq_iff_iff]
      simp
  rw [shape]
  exact .enter read early

theorem watch_pop {report : ExecutionReport} {rest : List ExecutionReport}
    (ring : state.engine.reportRing = report :: rest) (now : next = { state with
      engine := { state.engine with reportRing := rest }
      reports := state.reports ++ [report] }) :
    watch listens market orderId next = watch listens market orderId state := by
  subst now
  ext1 <;> try rfl
  simp [watch, told, ring]

/-! ## The listener -/

/-- The update that the listener is at work on, before the live table and behind it. -/
theorem watch_call {call : OrderUpdate} {engine : TradingEngine} {later : Option OrderUpdate}
    (current : state.listener = some call)
    (now : next = { state with engine := engine, listener := later })
    (sameTold : about orderId (engine.reportRing ++ ofCall true later) =
      about orderId (state.engine.reportRing ++ ofCall true (some call)))
    (sameComing : about orderId (ofCall false later) = about orderId (ofCall false (some call)))
    (sameLive : orderId ∈ engine.liveOrderInstruments ↔
      orderId ∈ state.engine.liveOrderInstruments) :
    watch listens market orderId next = watch listens market orderId state := by
  subst now
  ext1 <;> try rfl
  · simp only [watch, told, current, List.append_assoc]
    rw [about_append, sameTold, ← about_append]
  · simp only [watch, coming, current]
    rw [about_append, sameComing, ← about_append]
  · exact decide_eq_decide.mpr sameLive

theorem reportRing_updateLiveOrders (engine : TradingEngine) (report : ExecutionReport) :
    (engine.updateLiveOrders report).reportRing = engine.reportRing := by
  rw [updateLiveOrders]
  split <;> rfl

theorem reportRing_eraseReservation (engine : TradingEngine) (report : ExecutionReport)
    (clientOrderId : String) :
    (engine.eraseReservation report clientOrderId).reportRing = engine.reportRing := by
  rw [eraseReservation]
  split <;> rfl

inductive OrderView (listens : Bool) (market : MarketType) (orderId : String) (state : StartUp)
    (action : StartAction) (next : StartUp) : Prop where
  | step (step : OrderStep (watch listens market orderId state) (watch listens market orderId next))
      (calm : ¬ Crosses orderId state action)
  | handles (kept : Bool) (change : ExecutionReport)
      (handles : Handles starts opens kept (watch listens market orderId state) change
        (watch listens market orderId next))
      (keeps : listens = true → kept = true)
      (crosses : Crosses orderId state action ↔
        SnapshotStream.Crosses opens (watch listens market orderId state) change)

variable {call : OrderUpdate} {engine : TradingEngine} {later : Option OrderUpdate}

theorem not_crosses (current : state.listener = some call)
    (elsewhere : call.report.orderId = orderId → call.point ≠ .updateLive) :
    ¬ Crosses orderId state .update := by
  simp only [Crosses, current]
  rintro ⟨here, own, -⟩
  exact elsewhere own here

theorem crosses_iff (current : state.listener = some call) (here : call.point = .updateLive)
    (own : call.report.orderId = orderId) : Crosses orderId state .update ↔
      SnapshotStream.Crosses opens (watch listens market orderId state) call.report := by
  have found : (watch listens market orderId state).found ≠ [] ↔
      orderId ∈ state.allPendingOrders.map fun info => info.report.orderId := by
    simp only [watch, ne_eq, about_eq_nil_iff, List.mem_map]
    constructor
    · intro some
      by_contra none
      exact some fun report member same => by
        obtain ⟨info, inside, rfl⟩ := member
        exact none ⟨info, inside, same⟩
    · rintro ⟨info, inside, same⟩ none
      exact none info.report ⟨info, inside, rfl⟩ same
  simp only [Crosses, current, here, own, SnapshotStream.Crosses, found, true_and, opens]
  simp only [watch, decide_eq_false_iff_not]
  tauto

theorem view_goto {point : UpdatePoint} (current : state.listener = some call)
    (now : next = { state with engine := engine, listener := some (call.goto point) })
    (side : point.pastLive = call.point.pastLive)
    (ring : engine.reportRing = state.engine.reportRing)
    (live : orderId ∈ engine.liveOrderInstruments ↔ orderId ∈ state.engine.liveOrderInstruments)
    (elsewhere : call.report.orderId = orderId → call.point ≠ .updateLive) :
    OrderView listens market orderId state .update next := by
  have goes : ∀ pastLive,
      ofCall pastLive (some (call.goto point)) = ofCall pastLive (some call) := by
    intro pastLive
    rw [ofCall_some, ofCall_some, show (call.goto point).point = point from rfl, side]
    rfl
  refine .step ?_ (not_crosses current elsewhere)
  rw [watch_call current now (by rw [ring, goes]) (by rw [goes]) live]
  exact .idle _

theorem coming_handling (current : state.listener = some call)
    (before : call.point.pastLive = false) (own : call.report.orderId = orderId) :
    (watch listens market orderId state).coming =
      call.report :: about orderId (state.wire.map PendingOrderInfo.report) := by
  simp only [watch, coming, current, ofCall_some, before, if_true]
  rw [about_append, about_own own, List.singleton_append]

theorem view_recoverLive (current : state.listener = some call) (point : call.point = .recoverLive)
    (own : call.report.orderId = orderId)
    (now : next = { state with
      engine := state.engine.insertLive call.report.orderId call.report.instrument
      listener := some (call.goto .updateLive) }) :
    OrderView listens market orderId state .update next := by
  refine .step ?_ (not_crosses current (by simp [point]))
  have shape : watch listens market orderId next =
      { watch listens market orderId state with member := true } := by
    subst now
    ext1 <;> try rfl
    · simp [watch, StartUp.told, current, ofCall_some, point, OrderUpdate.goto,
        UpdatePoint.pastLive, insertLive]
    · simp [watch, coming, current, ofCall_some, point, OrderUpdate.goto, UpdatePoint.pastLive]
    · simp [watch, insertLive, Finmap.mem_insert, own]
  rw [shape]
  refine .join ?_
  rw [coming_handling current (by rw [point]; rfl) own]
  exact List.cons_ne_nil _ _

/-- A cancel that is taken for a repeated one: the order is not live. -/
theorem view_duplicate (current : state.listener = some call) (point : call.point = .updateLive)
    (own : call.report.orderId = orderId) (cancelled : call.report.status = .cancelled)
    (absent : call.report.orderId ∉ state.engine.liveOrderInstruments)
    (now : next = { state with listener := none })
    (told : listens = true → ¬ Untold orderId state .update) :
    OrderView listens market orderId state .update next := by
  have before : call.point.pastLive = false := by rw [point]; rfl
  have notMember : (watch listens market orderId next).member = false := by
    rw [now]
    exact decide_eq_false (own ▸ absent)
  have sameTold : (watch listens market orderId next).told =
      (watch listens market orderId state).told := by
    rw [now]
    simp [watch, StartUp.told, current, ofCall_some, before]
  refine .handles false call.report ⟨?_, sameTold, fun starts => ?_, fun _ => notMember,
    fun isOpen => ?_, ?_⟩ (fun listening => ?_) (crosses_iff current point own)
  · rw [coming_handling current before own, now]
    simp [watch, coming]
  · simp [StartUp.starts, cancelled] at starts
  · simp [opens, cancelled, isPending] at isOpen
  · rw [now]
    ext1 <;> rfl
  · refine absurd ?_ (told listening)
    simp [Untold, current, own, point, isDuplicateCancel, cancelled, own ▸ absent]

theorem view_updateLive (genuine : Genuine state) (current : state.listener = some call)
    (point : call.point = .updateLive) (own : call.report.orderId = orderId)
    (now : next = { state with
      engine := state.engine.updateLiveOrders call.report
      listener := some (call.goto .eraseReservation) }) :
    OrderView listens market orderId state .update next := by
  have before : call.point.pastLive = false := by rw [point]; rfl
  have member : (watch listens market orderId next).member = true ↔
      call.report.status = .new ∨ isTerminal call.report.status = false ∧
        (watch listens market orderId state).member = true := by
    rw [now]
    simp only [watch, decide_eq_true_eq, mem_updateLiveOrders]
    simp [own]
  have parsed := (genuine.listener call current).2
  refine .handles listens call.report ⟨?_, ?_, fun starts => ?_, fun closed => ?_,
    fun isOpen isMember => ?_, ?_⟩ id (crosses_iff current point own)
  · rw [coming_handling current before own, now]
    simp [watch, coming, ofCall_some, OrderUpdate.goto, UpdatePoint.pastLive]
  · cases listens with
    | false => rfl
    | true =>
        rw [now]
        simp [watch, StartUp.told, current, ofCall_some, OrderUpdate.goto, point,
          UpdatePoint.pastLive, reportRing_updateLiveOrders, about_append, about_own own]
  · exact member.mpr (.inl (of_decide_eq_true starts))
  · by_contra isMember
    have terminal := isTerminal_of_not_pending closed parsed
    rcases member.mp (Bool.not_eq_false _ ▸ isMember) with isNew | ⟨notTerminal, -⟩
    · rw [isNew] at terminal
      cases terminal
    · rw [terminal] at notTerminal
      cases notTerminal
  · refine member.mpr (.inr ⟨?_, isMember⟩)
    cases status : call.report.status <;> simp_all [opens, isPending, isTerminal]
  · rw [now]
    ext1 <;> rfl

theorem view_pushReport (genuine : Genuine state)
    (followed : listens = true → Followed orderId state) (current : state.listener = some call)
    (point : call.point = .pushReport)
    (now : next = { state with engine := state.engine.pushReport call.report, listener := none })
    (told : listens = true → ¬ Untold orderId state .update) :
    OrderView listens market orderId state .update next := by
  refine .step ?_ (not_crosses current (by simp [point]))
  have past : call.point.pastLive = true := by rw [point]; rfl
  have ring : listens = true →
      about orderId ((state.engine.pushReport call.report).reportRing ++ ofCall true none) =
        about orderId (state.engine.reportRing ++ ofCall true (some call)) := by
    intro listening
    rw [ofCall_none, ofCall_some, if_pos past, List.append_nil, pushReport]
    by_cases own : call.report.orderId = orderId
    · -- the strategy follows the instrument, and there is room
      obtain ⟨⟨entry, found, same, -⟩, -⟩ := genuine.listener call current
      rw [own] at found
      have follows := followed listening entry found
      rw [(ExecutionReport.mk.inj same).1] at follows
      have room :
          shmPush executionReportRingCapacity state.engine.reportRing call.report ≠ none := by
        intro full
        exact told listening (by simp [Untold, current, own, point, full])
      rw [if_pos (show call.report.instrument ∈ _ from follows)]
      rw [shmPush] at room ⊢
      split
      · rfl
      · next full => exact absurd (if_neg full) room
    · split
      · rw [shmPush]
        split
        · rfl
        · rw [about_append, about_other own, List.append_nil]
          rfl
      · rw [about_append, about_other own, List.append_nil]
  have shape : watch listens market orderId next = watch listens market orderId state := by
    cases listens with
    | true =>
        exact watch_call current now (ring rfl) (by simp [ofCall_some, past])
          (by rw [live_pushReport])
    | false =>
        subst now
        ext1 <;> try rfl
        · simp [watch, coming, current, ofCall_some, past]
        · simp only [watch, live_pushReport]
  rw [shape]
  exact .idle _

theorem view_update (genuine : Genuine state) (followed : listens = true → Followed orderId state)
    (current : state.listener = some call)
    (scope : Threads.Scope registry state.engine call engine later)
    (now : next = { state with engine := engine, listener := later })
    (told : listens = true → ¬ Untold orderId state .update) :
    OrderView listens market orderId state .update next := by
  cases scope with
  | notLive point =>
      exact view_goto current now (by rw [point]; rfl) rfl .rfl (by simp [point])
  | live point =>
      exact view_goto current now (by rw [point]; rfl) rfl .rfl (by simp [point])
  | recorded point =>
      exact view_goto current now (by rw [point]; rfl) rfl .rfl (by simp [point])
  | unrecorded point =>
      exact view_goto current now (by rw [point]; rfl) rfl .rfl (by simp [point])
  | recoverPositions point =>
      exact view_goto current now (by rw [point]; rfl) rfl .rfl (by simp [point])
  | recoverLive point =>
      by_cases own : call.report.orderId = orderId
      · exact view_recoverLive current point own now
      · refine view_goto current now (by rw [point]; rfl) rfl ?_ (by simp [point])
        simp [insertLive, Finmap.mem_insert, Ne.symm own]
  | duplicate point cancelled absent =>
      by_cases own : call.report.orderId = orderId
      · exact view_duplicate current point own cancelled absent now told
      · refine .step ?_ (not_crosses current fun same => absurd same own)
        rw [watch_call current now _ _ .rfl]
        · exact .idle _
        · simp [ofCall_some, point, UpdatePoint.pastLive]
        · simp [ofCall_some, point, UpdatePoint.pastLive, about, own]
  | updateLive point fresh =>
      by_cases own : call.report.orderId = orderId
      · exact view_updateLive genuine current point own now
      · refine .step ?_ (not_crosses current fun same => absurd same own)
        rw [watch_call current now _ _ _]
        · exact .idle _
        · simp [ofCall_some, point, OrderUpdate.goto, UpdatePoint.pastLive, about_append,
            about_other own, reportRing_updateLiveOrders]
        · simp [ofCall_some, point, OrderUpdate.goto, UpdatePoint.pastLive, about, own]
        · simp [mem_updateLiveOrders, Ne.symm own]
  | eraseReservation point =>
      exact view_goto current now (by rw [point]; rfl) (reportRing_eraseReservation _ _ _)
        (by rw [live_eraseReservation]) (by simp [point])
  | applyReport point =>
      exact view_goto current now (by rw [point]; rfl) rfl .rfl (by simp [point])
  | pushReport point => exact view_pushReport genuine followed current point now told

theorem orderView_of_step {action : StartAction} (genuine : Genuine state)
    (trades : Trades registry market orderId next)
    (followed : listens = true → Followed orderId next)
    (moves : Moves registry state action next) (inTime : ¬ PassedOver orderId state action)
    (told : listens = true → ¬ Untold orderId state action) :
    OrderView listens market orderId state action next := by
  have trading := trades.before moves
  have following := fun listening => (followed listening).before moves
  have stays : watch listens market orderId next = watch listens market orderId state →
      OrderStep (watch listens market orderId state) (watch listens market orderId next) := by
    intro same
    rw [same]
    exact .idle _
  cases moves with
  | publish entry legal => exact .step (watch_publish trades legal rfl inTime) id
  | takeUp taken => exact .step (watch_takeUp taken rfl) id
  | receive entry rest free head =>
      exact .step (stays (watch_receive genuine trading free head rfl)) id
  | update call engine later current scope =>
      exact view_update genuine following current scope rfl told
  | subscribe toAsk here => exact .step (watch_subscribe here rfl) id
  | ask asked here => exact .step (watch_ask trading here rfl) id
  | page ids asked owed here => exact .step (watch_page genuine trading here rfl) id
  | endQuery asked owed here => exact .step (watch_endQuery trading here rfl inTime) id
  | insert here => exact .step (watch_insert here rfl) id
  | record => exact .step (.idle _) id
  | writePositions => exact .step (.idle _) id
  | startStrategy => exact .step (.idle _) id
  | pop report rest ring => exact .step (stays (watch_pop ring rfl)) id

end View

end StartUp

end CryptoTrading
