import CryptoTrading.Clients.MessageSource
import CryptoTrading.StrategyEngine.Delivery

/-! # From the exchange to the strategy

The quotation thread, the rings and the strategy thread together.  What a message
says is passed to the callbacks one by one, and the other threads go on between
them.  Between the messages that the exchange writes and the calls of the strategy
nothing is invented, doubled or reordered. -/
set_option autoImplicit false

namespace CryptoTrading

open OnDemand WsClient

/-- `callbacks` are those that the quotation thread has still to make before it
goes on. -/
structure MarketFeed where
  thread : QuotationThread
  callbacks : List MarketData := []
  loop : StrategyLoop

/-- A step of the quotation thread between two messages, the next callback, a push
of the trading engine, and the steps of the strategy thread. -/
inductive FeedAction where
  | quotation (action : QuotationAction)
  | callback
  | report (report : ExecutionReport)
  | proceed (due : Bool)
  | stop
  | stopStrategy

/-- Only the registry is filled by another thread. -/
def QuotationAction.isOwn : QuotationAction → Bool
  | .add _ => false
  | .connect _ => true
  | .read => true
  | .timeout => true
  | .lost => true

namespace MarketFeed

/-- The four callbacks of `QuotationEngine::Run` push into the ring of their kind. -/
def step (iterate : List UInt8 → Option Node) (resizable : ℕ → Bool) (feed : MarketFeed) :
    FeedAction → Option MarketFeed
  | .quotation action =>
      if action.isOwn ∧ feed.callbacks ≠ [] then none
      else do
        let thread ← feed.thread.step iterate resizable action
        some { feed with
          thread := thread
          callbacks := feed.callbacks ++
            thread.published.drop feed.thread.published.length }
  | .callback =>
      match feed.callbacks with
      | [] => none
      | data :: rest =>
          some { feed with callbacks := rest, loop := feed.loop.push (.data data) }
  | .report report => some { feed with loop := feed.loop.push (.report report) }
  | .proceed due => (feed.loop.proceed due).map fun loop => { feed with loop := loop }
  | .stop => some { feed with loop := { feed.loop with running := false } }
  | .stopStrategy => some { feed with loop := { feed.loop with isRunning := false } }

def loopAction (feed : MarketFeed) : FeedAction → List LoopAction
  | .quotation _ => []
  | .callback =>
      match feed.callbacks with
      | [] => []
      | data :: _ => [.push (.data data)]
  | .report report => [.push (.report report)]
  | .proceed due => [.proceed due]
  | .stop => [.stop]
  | .stopStrategy => [.stopStrategy]

def quotationAction : FeedAction → Option QuotationAction
  | .quotation action => some action
  | _ => none

section Runs
variable (iterate : List UInt8 → Option Node) (resizable : ℕ → Bool)

def loopActions (feed : MarketFeed) (actions : List FeedAction) : List LoopAction :=
  (Runs.observe (step iterate resizable) loopAction feed actions).flatten

/-- How often a callback found the ring of the kind full. -/
def lost (kind : FeedKind) (feed : MarketFeed) (actions : List FeedAction) : ℕ :=
  BoundedFifo.refusals (StrategyLoop.events kind feed.loop
    (loopActions iterate resizable feed actions))

end Runs

def entries (kind : FeedKind) (data : List MarketData) : List FeedEntry :=
  (data.filter (·.kind = kind)).map .data

def dataOf (actions : List LoopAction) : List MarketData :=
  actions.filterMap fun
    | .push (.data data) => some data
    | _ => none

/-! ## The parts on their own -/

section Parts
variable {iterate : List UInt8 → Option Node} {resizable : ℕ → Bool}

theorem published_receive {thread next : QuotationThread} {connection : PublicConnection}
    {raw : List UInt8} (received : thread.receive iterate connection raw = some next) :
    ∃ data, next.published = thread.published ++ data := by
  rw [QuotationThread.receive] at received
  split_ifs at received
  · cases received
    exact ⟨[], (List.append_nil _).symm⟩
  · cases received
    exact ⟨[], (List.append_nil _).symm⟩
  · cases received
    exact ⟨[], (List.append_nil _).symm⟩
  · obtain ⟨data, -, same⟩ := Option.bind_eq_some_iff.mp received
    cases same
    exact ⟨data, rfl⟩

theorem published_step {thread next : QuotationThread} {action : QuotationAction}
    (stepped : thread.step iterate resizable action = some next) :
    ∃ data, next.published = thread.published ++ data := by
  have quiet : next.published = thread.published →
      ∃ data, next.published = thread.published ++ data :=
    fun same => ⟨[], by rw [same, List.append_nil]⟩
  cases action with
  | add info =>
      cases stepped
      exact quiet rfl
  | lost =>
      cases stepped
      exact quiet rfl
  | connect incoming =>
      rw [QuotationThread.step] at stepped
      split at stepped <;> cases stepped <;> exact quiet rfl
  | timeout =>
      rw [QuotationThread.step] at stepped
      split at stepped
      · cases stepped
        exact quiet rfl
      · exact published_receive stepped
  | read =>
      rw [QuotationThread.step] at stepped
      split at stepped
      · cases stepped
        exact quiet rfl
      · split at stepped
        · cases stepped
          exact quiet rfl
        · cases stepped
        · exact published_receive stepped

/-- What a part of a run is for the quotation thread and for the strategy thread,
and where the data of the one go. -/
structure Projects (iterate : List UInt8 → Option Node) (resizable : ℕ → Bool)
    (feed final : MarketFeed) (quotation : List QuotationAction) (strategy : List LoopAction) :
    Prop where
  thread : Runs.run (QuotationThread.step iterate resizable) feed.thread quotation =
    some final.thread
  loop : Runs.run StrategyLoop.step feed.loop strategy = some final.loop
  data : ∃ new, final.thread.published = feed.thread.published ++ new ∧
    feed.callbacks ++ new = dataOf strategy ++ final.callbacks

variable {feed next final : MarketFeed} {action : FeedAction}

theorem Projects.trans {quotation later : List QuotationAction} {loop loopLater : List LoopAction}
    (first : Projects iterate resizable feed next quotation loop)
    (second : Projects iterate resizable next final later loopLater) :
    Projects iterate resizable feed final (quotation ++ later) (loop ++ loopLater) := by
  obtain ⟨new, published, passed⟩ := first.data
  obtain ⟨newer, publishedLater, passedLater⟩ := second.data
  refine ⟨?_, ?_, new ++ newer, ?_, ?_⟩
  · rw [Runs.run_append, first.thread, Option.bind_some, second.thread]
  · rw [Runs.run_append, first.loop, Option.bind_some, second.loop]
  · rw [publishedLater, published, List.append_assoc]
  · rw [← List.append_assoc, passed, List.append_assoc, passedLater, dataOf, dataOf, dataOf,
      List.filterMap_append, List.append_assoc]

theorem projects_loop {loopAction : LoopAction} {loop : StrategyLoop}
    (stepped : feed.loop.step loopAction = some loop) (noData : dataOf [loopAction] = []) :
    Projects iterate resizable feed { feed with loop := loop } [] [loopAction] := by
  refine ⟨rfl, ?_, [], (List.append_nil _).symm, ?_⟩
  · rw [Runs.run_cons, stepped]
    rfl
  · rw [noData, List.append_nil, List.nil_append]

theorem projects_step (stepped : feed.step iterate resizable action = some next) :
    Projects iterate resizable feed next (quotationAction action).toList
      (feed.loopAction action) := by
  cases action with
  | quotation action =>
      rw [step] at stepped
      split at stepped
      · cases stepped
      · obtain ⟨thread, ran, same⟩ := Option.bind_eq_some_iff.mp stepped
        cases same
        obtain ⟨data, published⟩ := published_step ran
        refine ⟨?_, rfl, data, published, ?_⟩
        · rw [quotationAction, Option.toList_some, Runs.run_cons, ran]
          rfl
        · dsimp only
          rw [published, List.drop_left]
          rfl
  | callback =>
      rw [step] at stepped
      rw [loopAction]
      split at stepped
      · cases stepped
      · next data rest waiting =>
          cases stepped
          exact ⟨rfl, rfl, [], (List.append_nil _).symm, by rw [waiting, List.append_nil]; rfl⟩
  | report report =>
      cases stepped
      exact projects_loop rfl rfl
  | proceed due =>
      obtain ⟨loop, ran, rfl⟩ := Option.map_eq_some_iff.mp stepped
      exact projects_loop ran rfl
  | stop =>
      cases stepped
      exact projects_loop rfl rfl
  | stopStrategy =>
      cases stepped
      exact projects_loop rfl rfl

theorem projects_run {actions : List FeedAction} : ∀ {feed : MarketFeed},
    Runs.run (step iterate resizable) feed actions = some final →
      Projects iterate resizable feed final (actions.filterMap quotationAction)
        (loopActions iterate resizable feed actions) := by
  induction actions with
  | nil =>
      intro feed ran
      cases ran
      exact ⟨rfl, rfl, [], (List.append_nil _).symm, List.append_nil _⟩
  | cons action rest ih =>
      intro feed ran
      obtain ⟨next, stepped, ranRest⟩ := Runs.run_cons_some _ ran
      have whole := (projects_step stepped).trans (ih ranRest)
      rw [loopActions, Runs.observe_cons _ _ _ stepped, List.flatten_cons, ← loopActions]
      cases action <;> exact whole

end Parts

/-! ## The whole way -/

section Whole
variable {iterate : List UInt8 → Option Node} {resizable : ℕ → Bool}
  {server : List UInt8 → List (List UInt8)} {registry : InstrumentRegistry} {loop : StrategyLoop}
  {created : Bool} {paramsJson : String} {pendingOrders : List ExecutionReport}
  {actions : List FeedAction} {final : MarketFeed} {kind : FeedKind}

theorem entries_append (kind : FeedKind) (first second : List MarketData) :
    entries kind (first ++ second) = entries kind first ++ entries kind second := by
  rw [entries, entries, entries, List.filter_append, List.map_append]

/-- Into the rings of market data only the callbacks push. -/
theorem pushed_eq_entries (market : kind ≠ .report) (actions : List LoopAction) :
    StrategyLoop.pushed kind actions = entries kind (dataOf actions) := by
  induction actions with
  | nil => rfl
  | cons action rest ih =>
      have front : StrategyLoop.pushed kind [action] = entries kind (dataOf [action]) := by
        cases action with
        | push entry =>
            cases entry with
            | data data =>
                by_cases own : data.kind = kind
                · simp [StrategyLoop.pushed, entries, dataOf, FeedEntry.kind, own]
                · simp [StrategyLoop.pushed, entries, dataOf, FeedEntry.kind, own]
            | report report =>
                simp [StrategyLoop.pushed, entries, dataOf, FeedEntry.kind, Ne.symm market]
        | proceed due => rfl
        | stop => rfl
        | stopStrategy => rfl
      have split : dataOf (action :: rest) = dataOf [action] ++ dataOf rest := by
        rw [dataOf, dataOf, dataOf, ← List.filterMap_append]
        rfl
      rw [StrategyLoop.pushed_cons, front, ih, split, entries_append]

/-- The calls of the strategy for each kind of market data are what the messages of
the connections say, in order and each once, but for what found the ring full, what
is still in it and the callbacks that are still to be made. -/
theorem strategy_told_what_was_sent (room : ∀ len < 2 ^ 31, resizable len = true)
    (started : StrategyLoop.start created paramsJson pendingOrders = some loop)
    (written : ∀ action ∈ actions.filterMap quotationAction, WrittenBy server action)
    (ran : Runs.run (step iterate resizable) { thread := { registry := registry }, loop := loop }
      actions = some final) (market : kind ≠ .report) :
    ∃ shown source,
      List.Forall₂ (SourceAction.Shows server) (actions.filterMap quotationAction) shown ∧
      Runs.run (MessageSource.step iterate) { registry := registry } shown = some source ∧
      (final.loop.delivered kind ++ final.loop.rings kind ++
        entries kind final.callbacks).Sublist (entries kind source.published) ∧
      (final.loop.delivered kind).length + (final.loop.rings kind).length +
        (entries kind final.callbacks).length +
        lost iterate resizable kind { thread := { registry := registry }, loop := loop } actions =
          (entries kind source.published).length := by
  obtain ⟨thread, strategy, new, published, passed⟩ := projects_run ran
  have begins : QuotationThread.Shows { registry := registry } { registry := registry } :=
    ⟨rfl, rfl, trivial⟩
  obtain ⟨shown, shows', related⟩ := shows_run room begins written
  rw [thread] at related
  cases reached : Runs.run (MessageSource.step iterate) { registry := registry } shown with
  | none =>
      rw [reached] at related
      cases related
  | some source =>
      rw [reached] at related
      cases related with
      | some same =>
          obtain ⟨order, count⟩ := StrategyLoop.accepted_run kind strategy
          have told := StrategyLoop.told_eq_accepted started strategy kind
          have offered : entries kind source.published =
              StrategyLoop.pushed kind (loopActions iterate resizable
                { thread := { registry := registry }, loop := loop } actions) ++
                entries kind final.callbacks := by
            rw [pushed_eq_entries market, ← entries_append, ← passed, ← same.published, published]
          refine ⟨shown, source, shows', reached, ?_, ?_⟩
          · rw [told, offered]
            exact order.append (List.Sublist.refl _)
          · rw [offered, List.length_append, ← count, ← List.length_append, told, lost]
            dsimp only
            omega

end Whole

/-! ## A connection that breaks off -/

def tickerText (last : String) : String :=
  "\x7b\"arg\":\x7b\"channel\":\"tickers\",\"instId\":\"BTC-USDT\"\x7d," ++
    "\"data\":[\x7b\"last\":\"" ++ last ++ "\"\x7d]\x7d"

def tickerNode (last : String) : Node :=
  .object [("arg", .object [("channel", .text "tickers"), ("instId", .text "BTC-USDT")]),
    ("data", .array [.object [("last", .text last)]])]

def readTicker (raw : List UInt8) : Option Node :=
  (["1", "2"].find? fun last => raw = QuotationThread.asciiBytes (tickerText last)).map tickerNode

def tickerFrame (last : String) : WireFrame :=
  { opcode := textOpcode, payload := QuotationThread.asciiBytes (tickerText last) }

def cutFrames : List WireFrame :=
  [tickerFrame "1", { opcode := pingOpcode, payload := [] }, tickerFrame "2", tickerFrame "1"]

/-- The last of the frames does not arrive as a whole. -/
def cutBytes : List UInt8 := (cutFrames.flatMap WireFrame.bytes).take 200

def btcCents : InstrumentRegistry :=
  InstrumentRegistry.add ∅ { instrument := "BTC-USDT", pricePrecision := 2 }

def cutFeed : MarketFeed :=
  { thread := { registry := btcCents }, loop := { calls := [.init ""] } }

/-- Each callback comes after the strategy thread has gone on. -/
def cutActions : List FeedAction :=
  [.quotation (.connect cutBytes), .quotation .read, .proceed false, .callback, .quotation .read,
    .proceed false, .callback, .quotation .read]

theorem carries_cutBytes : Carries cutBytes
    [QuotationThread.asciiBytes (tickerText "1"), QuotationThread.asciiBytes (tickerText "2")] := by
  refine ⟨cutFrames, 200, ?_, rfl, by decide +kernel⟩
  intro frame member
  have sendable : ∀ frame ∈ cutFrames, frame.opcode < 16 ∧ frame.payload.length < 2 ^ 31 := by
    decide +kernel
  exact sendable frame member

theorem written_cutActions : ∀ action ∈ cutActions.filterMap quotationAction, WrittenBy
    (fun _ => [QuotationThread.asciiBytes (tickerText "1"),
      QuotationThread.asciiBytes (tickerText "2")]) action := by
  intro action member incoming opened
  subst opened
  have only : cutActions.filterMap quotationAction = [.connect cutBytes, .read, .read, .read] := rfl
  rw [only] at member
  rcases List.mem_cons.mp member with here | later
  · cases here
    exact carries_cutBytes
  · simp at later

/-- The ping is passed over, the second ticker still waits, and the third is lost. -/
theorem strategy_told_what_was_sent_cut : ∃ final shown source,
    Runs.run (step readTicker fun len => len < 2 ^ 32) cutFeed cutActions = some final ∧
      final.thread.connection = none ∧
      (final.loop.delivered .ticker).length = 1 ∧ (final.loop.rings .ticker).length = 1 ∧
      Runs.run (MessageSource.step readTicker) { registry := btcCents } shown = some source ∧
      (final.loop.delivered .ticker ++ final.loop.rings .ticker ++
        entries .ticker final.callbacks).Sublist (entries .ticker source.published) ∧
      (entries .ticker source.published).length = 2 := by
  have told : (Runs.run (step readTicker fun len => len < 2 ^ 32) cutFeed cutActions).map
      (fun feed => (feed.thread.connection.isNone, (feed.loop.delivered .ticker).length,
        (feed.loop.rings .ticker).length, feed.callbacks.length)) = some (true, 1, 1, 0) := by
    decide +kernel
  have kept : lost readTicker (fun len => len < 2 ^ 32) .ticker
      { thread := { registry := btcCents }, loop := { calls := [.init ""] } } cutActions = 0 := by
    decide +kernel
  obtain ⟨final, ran, counts⟩ := Option.map_eq_some_iff.mp told
  obtain ⟨closed, counts⟩ := Prod.mk.inj counts
  obtain ⟨handed, counts⟩ := Prod.mk.inj counts
  obtain ⟨waiting, made⟩ := Prod.mk.inj counts
  have started : StrategyLoop.start true "" [] = some { calls := [.init ""] } := rfl
  obtain ⟨shown, source, -, reached, order, count⟩ := strategy_told_what_was_sent
    (fun len small => decide_eq_true (by omega)) started written_cutActions ran
    (show FeedKind.ticker ≠ .report by decide)
  refine ⟨final, shown, source, ran, Option.isNone_iff_eq_none.mp closed, handed, waiting, reached,
    order, ?_⟩
  have none : (entries .ticker final.callbacks).length = 0 := by
    rw [List.length_eq_zero_iff.mp made]
    rfl
  rw [← count, handed, waiting, none, kept]

end MarketFeed

end CryptoTrading
