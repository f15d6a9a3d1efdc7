import CryptoTrading.TradingEngine.NewStages
import CryptoTrading.TradingEngine.OrderHistory

/-! # How often a NEW is applied

The second loop of a pass looks whether an order is live and then handles a NEW
of its own making; the NEW branch of `HandleOrderUpdate` looks at nothing.  The
NEW takes effect once exactly when no pass gets past that look for the order. -/
set_option autoImplicit false

namespace CryptoTrading

open TradingEngine

namespace Threads

/-! ## Every NEW under way is applied -/

section Counting
variable {registry : InstrumentRegistry} {orderId : String} {sum : ℕ × ℕ} {state : Threads}

def news (reports : List ExecutionReport) : ℕ :=
  reports.countP fun report => report.status = .new

/-- NEWs are published once, made by passes, and do not get lost; `sum` are those
applied and those made. -/
structure NewCount (orderId : String) (sum : ℕ × ℕ) (state : Threads) : Prop where
  agrees : Agrees orderId state
  unplaced : orderId ∉ state.exchange → sum.2 = 0
  placed : ∀ {entry : PendingOrderInfo}, state.exchange.lookup orderId = some entry →
    entry.report.marketType = .spot →
    sum.2 + 1 ≤ sum.1 + news (awaited orderId state) + news (unapplied orderId state.reconciler)

theorem news_single (report : ExecutionReport) :
    news [report] = if report.status = .new then 1 else 0 := by
  rw [news, List.countP_singleton]
  simp

theorem news_turn {thread : Thread} {call : OrderUpdate} {after : TradingEngine}
    {later : Option OrderUpdate} (current : state.current thread = some call)
    (turn : Turn registry state.engine after call later)
    (spot : call.report.orderId = orderId → call.report.marketType = .spot) :
    news (unapplied orderId (some call)) ≤
      (if AppliesSpotNew orderId state (.update thread) then 1 else 0) +
        news (unapplied orderId later) := by
  rcases turn.unapplied orderId with ⟨same, _⟩ | ⟨gone, notPushed, ends⟩
  · rw [same]
    exact Nat.le_add_left ..
  · by_cases own : call.report.orderId = orderId
    · rw [unapplied_of_own own notPushed, gone, news_single]
      by_cases isNew : call.report.status = .new
      · have here : call.point = .applyReport := by
          rcases ends with ⟨here, _⟩ | ⟨_, cancelled, _⟩
          · exact here
          · rw [isNew] at cancelled
            cases cancelled
        rw [if_pos isNew, if_pos ((appliesSpotNew_turn orderId current).mpr
          ⟨own, spot own, Or.inr ⟨here, isNew⟩⟩)]
        exact Nat.le_add_right ..
      · rw [if_neg isNew]
        exact Nat.zero_le _
    · rw [unapplied_of_ne own]
      exact Nat.zero_le _

theorem marketType_of_known {exchange : Exchange} {report : ExecutionReport}
    {clientOrderId : String} {entry : PendingOrderInfo}
    (known : Known exchange report clientOrderId)
    (found : exchange.lookup report.orderId = some entry) :
    report.marketType = entry.report.marketType := by
  obtain ⟨other, foundOther, same, _⟩ := known
  obtain rfl := Option.some.inj (found.symm.trans foundOther)
  have fields := ExecutionReport.mk.inj same
  exact fields.2.2.2.2.1.symm

theorem news_append (first second : List ExecutionReport) :
    news (first ++ second) = news first + news second := List.countP_append ..

theorem NewCount.publish (count : NewCount orderId sum state) (entry : PendingOrderInfo)
    (legal : Publishable state.exchange entry)
    (agrees : Agrees orderId { state with
      exchange := state.exchange.insert entry.report.orderId entry
      wire := state.wire ++ [entry] }) :
    NewCount orderId sum { state with
      exchange := state.exchange.insert entry.report.orderId entry
      wire := state.wire ++ [entry] } := by
  refine ⟨agrees, fun unplaced => count.unplaced fun placed => unplaced
    (Finmap.mem_insert.mpr (Or.inr placed)), fun {now} found spot => ?_⟩
  rw [awaited_publish, news_append]
  dsimp only
  rw [UnorderedMap.lookup_insert_ite] at found
  by_cases own : orderId = entry.report.orderId
  · rw [if_pos own] at found
    obtain rfl := Option.some.inj found
    rw [if_pos own.symm, news_single]
    unfold Publishable at legal
    rw [← own] at legal
    cases before : state.exchange.lookup orderId with
    | none =>
        rw [before] at legal
        rw [count.unplaced (Finmap.lookup_eq_none.mp before), if_pos legal.1]
        omega
    | some earlier =>
        rw [before] at legal
        have fields := ExecutionReport.mk.inj legal.2.2.1
        have enough := count.placed before (fields.2.2.2.2.1.symm.trans spot)
        omega
  · rw [if_neg own] at found
    have enough := count.placed found spot
    omega

theorem NewCount.update (count : NewCount orderId sum state) {thread : Thread}
    {call : OrderUpdate} {engine : TradingEngine} {later : Option OrderUpdate}
    (current : state.current thread = some call)
    (ran : call.step registry state.engine = some (engine, later))
    (agrees : Agrees orderId ({ state with engine := engine }.setCurrent later thread)) :
    NewCount orderId
      (sum.1 + (if AppliesSpotNew orderId state (.update thread) then 1 else 0), sum.2)
      ({ state with engine := engine }.setCurrent later thread) := by
  refine ⟨agrees, fun unplaced => count.unplaced ?_, fun {entry} found spot => ?_⟩
  · rwa [exchange_setCurrent] at unplaced
  · rw [exchange_setCurrent] at found
    have enough := count.placed found spot
    have turned := news_turn current (turn_of_step ran) fun own =>
      (marketType_of_known (count.agrees.calls thread call current)
        (by rw [own]; exact found)).trans spot
    cases thread with
    | listener =>
        have listening : state.listener = some call := current
        rw [awaited, listening, news_append] at enough
        rw [awaited, news_append]
        simp only [setCurrent]
        omega
    | reconciler =>
        have replaying : state.reconciler = some call := current
        rw [replaying] at enough
        simp only [setCurrent]
        rw [show awaited orderId { state with engine := engine, reconciler := later } =
          awaited orderId state from rfl]
        omega

theorem NewCount.reconcile (count : NewCount orderId sum state) {action : PassAction}
    {pass : Pass} {call : Option OrderUpdate} (free : state.reconciler = none)
    (ran : passStep state.engine state.exchange state.pass action = some (pass, call))
    (agrees : Agrees orderId { state with pass := pass, reconciler := call }) :
    NewCount orderId
      (sum.1, sum.2 + if StartsMissedNew orderId state (.reconcile action) then 1 else 0)
      { state with pass := pass, reconciler := call } := by
  have starts : StartsMissedNew orderId state (.reconcile action) ↔
      ∃ made, call = some made ∧ made.report.orderId = orderId ∧ made.report.status = .new := by
    rw [StartsMissedNew, started, ran, Option.bind_some]
    cases call with
    | none => simp
    | some made => simp
  have same : awaited orderId { state with pass := pass, reconciler := call } =
      awaited orderId state := rfl
  have nothing : news [] = 0 := rfl
  by_cases begins : StartsMissedNew orderId state (.reconcile action)
  · obtain ⟨made, rfl, own, isNew⟩ := starts.mp begins
    have placed : orderId ∈ state.exchange := by
      rw [← own]
      exact (agrees.calls .reconciler made rfl).placed
    have point : made.point ≠ .pushReport := by
      cases (passStep_effect ran).call made rfl <;>
        exact (by decide : UpdatePoint.checkLive ≠ .pushReport)
    refine ⟨agrees, fun unplaced => absurd placed unplaced, fun {entry} found spot => ?_⟩
    have enough := count.placed found spot
    rw [free, unapplied_none] at enough
    rw [same, if_pos begins, unapplied_of_own own point, news_single, if_pos isNew]
    dsimp only
    omega
  · rw [if_neg begins, add_zero]
    refine ⟨agrees, count.unplaced, fun {entry} found spot => ?_⟩
    have enough := count.placed found spot
    rw [free, unapplied_none] at enough
    rw [same]
    dsimp only
    omega

theorem NewCount.step {next : Threads} {action : ThreadAction} (count : NewCount orderId sum state)
    (ran : Threads.step registry state action = some next) :
    NewCount orderId (sum + (if AppliesSpotNew orderId state action then 1 else 0,
      if StartsMissedNew orderId state action then 1 else 0)) next := by
  have agrees := count.agrees.step ran
  have idle : turning state action = none → started state action = none →
      sum + (if AppliesSpotNew orderId state action then 1 else 0,
        if StartsMissedNew orderId state action then 1 else 0) = sum := by
    intro noTurn noStart
    rw [if_neg (by rw [AppliesSpotNew, noTurn]; exact id),
      if_neg (by rw [StartsMissedNew, noStart]; exact id)]
    exact add_zero sum
  cases moves_of_step ran with
  | publish entry legal =>
      rw [idle rfl rfl]
      exact count.publish entry legal agrees
  | record clientOrderId reservation unsent =>
      rw [idle rfl rfl]
      exact ⟨agrees, count.unplaced, count.placed⟩
  | receive entry rest free head =>
      rw [idle rfl rfl]
      refine ⟨agrees, count.unplaced, fun found spot => ?_⟩
      rw [awaited_receive orderId free head]
      exact count.placed found spot
  | update thread call engine later current moved =>
      rw [if_neg (show ¬ StartsMissedNew orderId state (.update thread) from id)]
      exact count.update current moved agrees
  | reconcile action pass call free moved =>
      have shape : ∀ made : ℕ, sum + (0, made) = (sum.1, sum.2 + made) :=
        fun _ => Prod.ext (add_zero sum.1) rfl
      rw [if_neg (show ¬ AppliesSpotNew orderId state (.reconcile action) from id), shape]
      exact count.reconcile free moved agrees

theorem Begun.newCount (begun : Begun orderId state) : NewCount orderId 0 state :=
  ⟨begun.agrees, fun _ => rfl, fun found =>
    absurd (Finmap.mem_of_lookup_eq_some found) begun.unplaced⟩

theorem NewCount.run {final : Threads} {actions : List ThreadAction} (begun : Begun orderId state)
    (ran : Runs.run (Threads.step registry) state actions = some final) :
    NewCount orderId
      (Runs.count (Threads.step registry) (AppliesSpotNew orderId) state actions,
        Runs.count (Threads.step registry) (StartsMissedNew orderId) state actions) final := by
  have counted := Runs.total_induction (Threads.step registry)
    (fun state action => (if AppliesSpotNew orderId state action then 1 else 0,
      if StartsMissedNew orderId state action then 1 else 0))
    (fun sum state _ => NewCount orderId sum state)
    (fun sum state next action rest held stepped => held.step stepped)
    begun.newCount ran
  rw [Runs.total_prod] at counted
  exact counted

end Counting

/-- `UpdateSpotOnNew` was called at most once for the order, and the order is not
live once a terminal report of it has been handled. -/
def NewOnce (registry : InstrumentRegistry) (orderId : String) (start : Threads)
    (actions : List ThreadAction) (final : Threads) : Prop :=
  Runs.count (step registry) (AppliesSpotNew orderId) start actions ≤ 1 ∧
    (0 < Runs.count (step registry) (HandlesTerminal orderId) start actions →
      orderId ∉ final.engine.liveOrderInstruments)

/-- A NEW takes effect once, and the order stays terminal, in every run in which no
pass makes a NEW for it; each NEW that a pass makes takes effect once more. -/
theorem newOnce_iff {registry : InstrumentRegistry} {orderId : String} {start final : Threads}
    {actions : List ThreadAction} {entry : PendingOrderInfo} (begun : Begun orderId start)
    (ran : Runs.run (step registry) start actions = some final)
    (placed : final.exchange.lookup orderId = some entry)
    (spot : entry.report.marketType = .spot) :
    (Runs.count (step registry) (StartsMissedNew orderId) start actions = 0 →
        NewOnce registry orderId start actions final) ∧
      (Settled orderId final → (NewOnce registry orderId start actions final ↔
        Runs.count (step registry) (StartsMissedNew orderId) start actions = 0)) := by
  have once : Runs.count (step registry) (StartsMissedNew orderId) start actions = 0 →
      NewOnce registry orderId start actions final := by
    intro quiet
    have stage := (NewInv.run begun ran quiet).stage entry.clientOrderId fun other found => by
      rw [Option.some.inj (found.symm.trans placed)]
    cases stage with
    | unseen none notLive _ _ _ _ =>
        exact ⟨(congrArg Prod.fst none).trans_le (Nat.zero_le 1), fun _ => notLive⟩
    | entering _ none _ _ _ _ heard => exact ⟨none.trans_le (Nat.zero_le 1), heard.handled⟩
    | entered once _ _ _ heard => exact ⟨once, heard.handled⟩
  refine ⟨once, fun settled => ⟨fun atMost => ?_, once⟩⟩
  have enough := (NewCount.run begun ran).placed placed spot
  obtain ⟨noneAwaited, noCalls⟩ := settled.idle
  have nothing : news [] = 0 := rfl
  rw [noneAwaited, show unapplied orderId final.reconciler = [] from noCalls .reconciler,
    nothing] at enough
  have first := atMost.1
  dsimp only at enough
  omega

/-! ## A NEW made too late -/

/-- The order is sent, and a pass gets it as pending and finds it not live. -/
def findMissedNew : List ThreadAction :=
  [.record "cts1"
      { instrument := "BTC-USDT", currency := "USDT", amount := 200, side := .buy,
        tradeMode := .cash },
    .publish spotNew, .reconcile (.querySpot [spotNew]), .reconcile (.querySwap []),
    .reconcile (.snapshotLive []), .reconcile (.copyReservations ["cts1"]),
    .reconcile .checkAlreadyLive]

/-- The listener handles the NEW and the FILLED. -/
def receiveAll : List ThreadAction :=
  .receive :: List.replicate 5 (.update .listener) ++
    .publish spotFilled :: .receive :: List.replicate 5 (.update .listener)

/-- The pass gets the order as pending too, but the listener is ahead of it. -/
def findLive : List ThreadAction :=
  findMissedNew.take 2 ++
    [.receive, .reconcile (.querySpot [spotNew]), .reconcile (.querySwap []),
      .reconcile (.snapshotLive [])] ++ List.replicate 2 (.update .listener) ++
    [.reconcile (.copyReservations ["cts1"]), .reconcile .checkAlreadyLive, .reconcile .finish] ++
    List.replicate 3 (.update .listener) ++
    .publish spotFilled :: .receive :: List.replicate 5 (.update .listener)

theorem newOnce_iff_findLive : ∃ final,
    Runs.run (step btcUsdtRegistry) {} findLive = some final ∧
      Runs.count (step btcUsdtRegistry) (StartsMissedNew "9") {} findLive = 0 ∧
      Settled "9" final ∧ NewOnce btcUsdtRegistry "9" {} findLive final := by
  obtain ⟨final, ran⟩ := Option.isSome_iff_exists.mp (by decide +kernel :
    (Runs.run (step btcUsdtRegistry) {} findLive).isSome = true)
  have observed : (Runs.run (step btcUsdtRegistry) {} findLive).map (fun final =>
      (final.exchange.lookup "9", final.wire, final.listener, final.reconciler)) =
        some (some spotFilled, [], none, none) := by decide +kernel
  rw [ran, Option.map_some, Option.some.injEq, Prod.mk.injEq] at observed
  have none : Runs.count (step btcUsdtRegistry) (StartsMissedNew "9") {} findLive = 0 := by
    decide +kernel
  have settled : Settled "9" final := settled_of_quiet observed.2
  have once := newOnce_iff (begun_empty "9") ran observed.1 rfl
  exact ⟨final, ran, none, settled, (once.2 settled).mpr none⟩

/-- The pass handles its NEW after the listener has handled NEW and FILLED. -/
theorem new_applied_twice :
    ¬ ∀ (registry : InstrumentRegistry) (orderId : String) (start final : Threads)
        (actions : List ThreadAction) (entry : PendingOrderInfo),
      Begun orderId start → Runs.run (step registry) start actions = some final →
      final.exchange.lookup orderId = some entry → entry.report.marketType = .spot →
      NewOnce registry orderId start actions final := by
  intro claim
  obtain ⟨final, ran⟩ := Option.isSome_iff_exists.mp (by decide +kernel :
    (Runs.run (step btcUsdtRegistry) {}
      (findMissedNew ++ receiveAll ++ List.replicate 5 (.update .reconciler))).isSome = true)
  have observed : (Runs.run (step btcUsdtRegistry) {}
      (findMissedNew ++ receiveAll ++ List.replicate 5 (.update .reconciler))).map (fun final =>
        (final.exchange.lookup "9", decide ("9" ∈ final.engine.liveOrderInstruments))) =
          some (some spotFilled, true) := by decide +kernel
  rw [ran, Option.map_some, Option.some.injEq, Prod.mk.injEq, decide_eq_true_eq] at observed
  have holds := claim btcUsdtRegistry "9" {} final
    (findMissedNew ++ receiveAll ++ List.replicate 5 (.update .reconciler)) spotFilled
      (begun_empty "9") ran observed.1 rfl
  -- the order has ended and is live again; the NEW was also applied twice
  exact holds.2 (by decide +kernel) observed.2

end Threads

end CryptoTrading
