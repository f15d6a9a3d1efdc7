import CryptoTrading.Clients.OkxRequests
import CryptoTrading.Lib.Polling
import CryptoTrading.TradingEngine.FullRing
import Mathlib.Data.List.Forall2
import Mathlib.Data.List.ReduceOption

/-! # From the strategy to the wire

The emit calls of the strategy, the turns of the dispatcher and everything that
the other threads do to the engine, in any order.  The signal ring between the
first two is a polled queue; each signal that comes out of it is written as one
request, which says what the signal stands for. -/
set_option autoImplicit false

namespace CryptoTrading

open BoundedFifo JsonLiteral QuotedText

/-- `Signal{}` with the two names and the market of an order to cancel. -/
def cancelSignal (instrument orderId : String) (marketType : MarketType) : Signal :=
  { instrument := setBuffer 32 instrument, orderId := setBuffer 32 orderId, action := .cancel,
    orderType := .market, marketType := marketType, positionSide := .net, tradeMode := .cash,
    price := 0, volume := 0 }

def TradingSystem.emitCancel (system : TradingSystem) (instrument orderId : String)
    (marketType : MarketType) : TradingSystem :=
  system.pushSignal (cancelSignal instrument orderId marketType)

/-- A call of the strategy, a turn of the dispatcher with its two clock readings,
a report, an op response, or an answer about balances or positions. -/
inductive WireAction where
  | emit (call : EmitCall)
  | emitCancel (instrument orderId : String) (marketType : MarketType)
  | dispatch (clientNs opNs : ℕ)
  | report (report : ExecutionReport) (clientOrderId : String)
  | respond (op code id : String)
  | balance (currency : String) (available frozen borrowed : ℚ)
  | position (instrument : String) (positionSide : PosSide) (contracts averageOpeningPrice : ℚ)

/-- `"cts" + std::to_string(NowNs())`. -/
def clientOrderIdAt (nowNs : ℕ) : String := "cts" ++ toString nowNs

namespace TradingSystem

def wireStep (registry : InstrumentRegistry) (system : TradingSystem) :
    WireAction → Option TradingSystem
  | .emit call => call.run registry system
  | .emitCancel instrument orderId marketType =>
      some (system.emitCancel instrument orderId marketType)
  | .dispatch clientNs opNs =>
      system.dispatch registry (clientOrderIdAt clientNs) (toString opNs)
  | .report report clientOrderId =>
      (system.engine.handleOrderUpdate registry report clientOrderId).map fun engine =>
        { system with engine := engine }
  | .respond op code id => system.onOpResponse registry op code id
  | .balance currency available frozen borrowed =>
      some { system with
        engine := system.engine.setPositions
          (system.engine.positionManager.syncSpotFromExchange currency available frozen
            borrowed) }
  | .position instrument positionSide contracts averageOpeningPrice =>
      some { system with
        engine := system.engine.setPositions
          (system.engine.positionManager.syncSwapFromExchange instrument positionSide contracts
            averageOpeningPrice) }

/-- The text that a turn of the dispatcher hands to `SendToPrivate`. -/
def sent (registry : InstrumentRegistry) (codes : UnorderedMap String Int)
    (system : TradingSystem) : WireAction → Option String
  | .dispatch clientNs opNs =>
      match shmPop system.signalRing with
      | none => none
      | some (signal, _) =>
          if signal.action = .cancel then
            some (buildCancelOrderMessage codes (toString opNs) signal.instrument signal.orderId)
          else (registry.get signal.instrument).map fun info =>
            buildOrderMessage codes (toString opNs)
              (buildRequest info signal (clientOrderIdAt clientNs))
  | .emit _ => none
  | .emitCancel _ _ _ => none
  | .report _ _ => none
  | .respond _ _ _ => none
  | .balance _ _ _ _ => none
  | .position _ _ _ _ => none

end TradingSystem

def WireAction.signal : WireAction → Option Signal
  | .emit call => some call.signal
  | .emitCancel instrument orderId marketType =>
      some (cancelSignal instrument orderId marketType)
  | .dispatch _ _ => none
  | .report _ _ => none
  | .respond _ _ _ => none
  | .balance _ _ _ _ => none
  | .position _ _ _ _ => none

/-- The requests that a signal stands for, by the ids that it gets. -/
inductive Signal.StandsFor (registry : InstrumentRegistry) (codes : UnorderedMap String Int)
    (signal : Signal) : WireRequest → Prop
  | order {info : InstrumentInfo} (orders : signal.action ≠ .cancel)
      (known : registry.get signal.instrument = some info) (clientNs opNs : ℕ) :
      StandsFor registry codes signal
        (.order (toString opNs) (signal.order codes info (clientOrderIdAt clientNs)))
  | cancel (cancels : signal.action = .cancel) (opNs : ℕ) :
      StandsFor registry codes signal
        (.cancel (toString opNs) (codes.getD signal.instrument 0 : Int) signal.orderId)

def Signal.Says (registry : InstrumentRegistry) (codes : UnorderedMap String Int)
    (signal : Signal) (message : String) : Prop :=
  ∃ request, readRequest message = some request ∧ signal.StandsFor registry codes request

/-! ## The ring -/

def Signal.Clean (signal : Signal) : Prop :=
  signal.action = .cancel → Plain signal.orderId.toList

namespace TradingSystem

def pushEvent (system : TradingSystem) (signal : Signal) : Event Signal :=
  if system.signalRing.length < signalRingCapacity then .accept signal else .refuse

def ringEvent (system : TradingSystem) : WireAction → Event Signal
  | .emit call => system.pushEvent call.signal
  | .emitCancel instrument orderId marketType =>
      system.pushEvent (cancelSignal instrument orderId marketType)
  | .dispatch _ _ =>
      match system.signalRing with
      | [] => .starve
      | signal :: _ => .take signal
  | .report _ _ => .silent
  | .respond _ _ _ => .silent
  | .balance _ _ _ _ => .silent
  | .position _ _ _ _ => .silent

structure RingReady (system : TradingSystem) : Prop where
  bounded : system.signalRing.length ≤ signalRingCapacity
  clean : ∀ signal ∈ system.signalRing, signal.Clean

section Step
variable {registry : InstrumentRegistry} {codes : UnorderedMap String Int}
  {system next : TradingSystem} {action : WireAction}

theorem signalRing_pushSignal (system : TradingSystem) (signal : Signal) :
    (system.pushSignal signal).signalRing =
      if system.signalRing.length < signalRingCapacity then system.signalRing ++ [signal]
      else system.signalRing := by
  rw [pushSignal, shmPush]
  split <;> rfl

theorem signalRing_run {call : EmitCall} (ran : call.run registry system = some next) :
    next.signalRing = (system.pushSignal call.signal).signalRing := by
  rw [EmitCall.run_eq] at ran
  split at ran
  · obtain ⟨info, -, rfl⟩ := Option.map_eq_some_iff.mp ran
    rfl
  · cases ran
    rfl

theorem signalRing_onOpResponse {op code id : String}
    (ran : system.onOpResponse registry op code id = some next) :
    next.signalRing = system.signalRing := by
  unfold onOpResponse at ran
  split at ran
  · split at ran
    · split at ran
      · cases ran
        rfl
      · obtain ⟨report, -, handled⟩ := Option.bind_eq_some_iff.mp ran
        obtain ⟨engine, -, built⟩ := Option.bind_eq_some_iff.mp handled
        cases built
        rfl
    · cases ran
      rfl
  · split at ran <;> cases ran <;> rfl

/-- A turn of the dispatcher takes the first signal, whatever it is. -/
theorem signalRing_dispatch {clientOrderId opId : String}
    (ran : system.dispatch registry clientOrderId opId = some next) :
    next.signalRing = system.signalRing.tail := by
  cases ring : system.signalRing with
  | nil =>
      rw [dispatch, ring] at ran
      cases ran
      exact ring
  | cons signal rest =>
      rw [dispatch, ring] at ran
      dsimp only [shmPop] at ran
      split at ran
      · cases ran
        rfl
      · obtain ⟨info, -, built⟩ := Option.bind_eq_some_iff.mp ran
        cases built
        rfl

theorem ring_pushSignal (ready : system.RingReady) (signal : Signal)
    (ring : next.signalRing = (system.pushSignal signal).signalRing) :
    BoundedFifo.Step signalRingCapacity system.signalRing (system.pushEvent signal)
      next.signalRing := by
  rw [ring, signalRing_pushSignal, pushEvent]
  split
  · next room => exact .accept room
  · next full => exact .refuse (Nat.le_antisymm ready.bounded (not_lt.mp full))

theorem ring_wireStep (ready : system.RingReady)
    (stepped : system.wireStep registry action = some next) :
    BoundedFifo.Step signalRingCapacity system.signalRing (system.ringEvent action)
      next.signalRing := by
  have untouched : ∀ {event : Event Signal}, event = .silent →
      next.signalRing = system.signalRing →
      BoundedFifo.Step signalRingCapacity system.signalRing event next.signalRing := by
    rintro event rfl same
    rw [same]
    exact .silent
  cases action with
  | emit call => exact ring_pushSignal ready _ (signalRing_run stepped)
  | emitCancel instrument orderId marketType =>
      cases stepped
      exact ring_pushSignal ready _ rfl
  | dispatch clientNs opNs =>
      rw [signalRing_dispatch stepped, ringEvent]
      cases system.signalRing with
      | nil => exact .starve
      | cons signal rest => exact .take
  | report report clientOrderId =>
      obtain ⟨engine, -, rfl⟩ := Option.map_eq_some_iff.mp stepped
      exact untouched rfl rfl
  | respond op code id => exact untouched rfl (signalRing_onOpResponse stepped)
  | balance currency available frozen borrowed =>
      cases stepped
      exact untouched rfl rfl
  | position instrument positionSide contracts averageOpeningPrice =>
      cases stepped
      exact untouched rfl rfl

theorem accepted_pushEvent (system : TradingSystem) (signal : Signal) :
    (system.pushEvent signal).accepted.Sublist [signal] ∧
      (system.pushEvent signal).accepted.length +
        (if (system.pushEvent signal).isRefusal = true then 1 else 0) = 1 := by
  rw [pushEvent]
  split
  · exact ⟨List.Sublist.refl _, rfl⟩
  · exact ⟨List.nil_sublist _, rfl⟩

theorem accepted_ringEvent (system : TradingSystem) (action : WireAction) :
    (system.ringEvent action).accepted.Sublist action.signal.toList ∧
      (system.ringEvent action).accepted.length +
        (if (system.ringEvent action).isRefusal = true then 1 else 0) =
          action.signal.toList.length := by
  cases action with
  | emit call => exact accepted_pushEvent system call.signal
  | emitCancel instrument orderId marketType => exact accepted_pushEvent system _
  | dispatch clientNs opNs =>
      rw [ringEvent]
      split <;> exact ⟨List.Sublist.refl _, rfl⟩
  | _ => exact ⟨List.Sublist.refl _, rfl⟩

theorem RingReady.wireStep (ready : system.RingReady)
    (clean : ∀ signal ∈ action.signal, signal.Clean)
    (stepped : system.wireStep registry action = some next) : next.RingReady where
  bounded := (ring_wireStep ready stepped).bounded ready.bounded
  clean := fun signal member => by
    have balance := (ring_wireStep ready stepped).balance (List.nil_append _)
    have listed : signal ∈ system.signalRing ++ (system.ringEvent action).accepted := by
      rw [← balance]
      exact List.mem_append_right _ member
    rcases List.mem_append.mp listed with before | new
    · exact ready.clean signal before
    · have pushed := (accepted_ringEvent system action).1.subset new
      exact clean signal (Option.mem_toList.mp pushed)

end Step

/-! ## The messages -/

theorem alphanum_clientOrderIdAt (nowNs : ℕ) :
    (clientOrderIdAt nowNs).toList.all Char.isAlphanum = true := by
  have digits := DecimalText.isDigits_toDigits nowNs
  rw [clientOrderIdAt, String.toList_append, List.all_append, Bool.and_eq_true]
  refine ⟨by decide, List.all_eq_true.mpr fun char member => ?_⟩
  rw [show (toString nowNs).toList = Nat.toDigits 10 nowNs from Nat.toList_repr] at member
  rw [Char.isAlphanum, digits char member, Bool.or_true]

theorem clientOrderIdAt_ne_empty (nowNs : ℕ) : clientOrderIdAt nowNs ≠ "" := by
  intro empty
  have chars := congrArg String.toList empty
  rw [clientOrderIdAt, String.toList_append] at chars
  exact absurd chars (by simp)

theorem known_of_dispatch {registry : InstrumentRegistry} {system next : TradingSystem}
    {signal : Signal} {rest : List Signal} {clientOrderId opId : String}
    (ring : system.signalRing = signal :: rest) (orders : signal.action ≠ .cancel)
    (ran : system.dispatch registry clientOrderId opId = some next) :
    ∃ info, registry.get signal.instrument = some info := by
  rw [dispatch, ring] at ran
  dsimp only [shmPop] at ran
  rw [if_neg orders] at ran
  obtain ⟨info, known, -⟩ := Option.bind_eq_some_iff.mp ran
  exact ⟨info, known⟩

/-- A buffer holds a part of what is copied into it. -/
theorem plain_setBuffer {text : String} (plain : Plain text.toList) (capacity : ℕ) :
    Plain (setBuffer capacity text).toList := by
  intro char member
  rw [setBuffer, String.toList_ofList] at member
  exact plain char ((List.takeWhile_sublist _).subset (List.mem_of_mem_take member))

theorem clean_emitted {actions : List WireAction}
    (clean : ∀ instrument orderId marketType,
      WireAction.emitCancel instrument orderId marketType ∈ actions → Plain orderId.toList) :
    ∀ signal ∈ actions.filterMap WireAction.signal, signal.Clean := by
  intro signal member
  obtain ⟨action, taken, made⟩ := List.mem_filterMap.mp member
  cases action with
  | emit call =>
      cases made
      intro cancels
      rw [EmitCall.signal, TradingSystem.emittedSignal] at cancels
      cases side : call.side <;> rw [side] at cancels <;> cases cancels
  | emitCancel instrument orderId marketType =>
      cases made
      exact fun _ => plain_setBuffer (clean instrument orderId marketType taken) 32
  | _ => cases made

section Messages
variable {registry : InstrumentRegistry} (codes : UnorderedMap String Int)
  {system next final : TradingSystem} {action : WireAction} {actions : List WireAction}

/-- A step that takes a signal sends one message that says it, and no other step
sends any. -/
theorem says_wireStep (ready : system.RingReady)
    (stepped : system.wireStep registry action = some next) :
    List.Forall₂ (Signal.Says registry codes) (system.ringEvent action).taken
      (system.sent registry codes action).toList := by
  cases action with
  | emit call =>
      rw [ringEvent, pushEvent]
      split <;> exact .nil
  | emitCancel instrument orderId marketType =>
      rw [ringEvent, pushEvent]
      split <;> exact .nil
  | dispatch clientNs opNs =>
      rw [ringEvent, sent]
      cases ring : system.signalRing with
      | nil => exact .nil
      | cons signal rest =>
          have clean := ready.clean signal (by rw [ring]; exact List.mem_cons_self)
          dsimp only [shmPop]
          by_cases cancels : signal.action = .cancel
          · rw [if_pos cancels]
            exact .cons ⟨_, readRequest_cancel codes opNs _ (clean cancels),
              .cancel cancels opNs⟩ .nil
          · obtain ⟨info, known⟩ := known_of_dispatch ring cancels stepped
            rw [if_neg cancels, known]
            exact .cons ⟨_, readRequest_order codes info signal opNs
              (clientOrderIdAt_ne_empty clientNs) (alphanum_clientOrderIdAt clientNs),
              .order cancels known clientNs opNs⟩ .nil
  | _ => exact .nil

def messages (registry : InstrumentRegistry) (codes : UnorderedMap String Int)
    (system : TradingSystem) (actions : List WireAction) : List String :=
  (Runs.observe (wireStep registry) (sent registry codes) system actions).reduceOption

def ringEvents (registry : InstrumentRegistry) (system : TradingSystem)
    (actions : List WireAction) : List (Event Signal) :=
  Runs.observe (wireStep registry) ringEvent system actions

def emitted (actions : List WireAction) : List Signal := actions.filterMap WireAction.signal

theorem wire_run (ready : system.RingReady) (clean : ∀ signal ∈ emitted actions, signal.Clean)
    (ran : Runs.run (wireStep registry) system actions = some final) :
    Steps signalRingCapacity system.signalRing (ringEvents registry system actions)
        final.signalRing ∧
      (accepted (ringEvents registry system actions)).Sublist (emitted actions) ∧
      (accepted (ringEvents registry system actions)).length +
        refusals (ringEvents registry system actions) = (emitted actions).length ∧
      List.Forall₂ (Signal.Says registry codes) (taken (ringEvents registry system actions))
        (messages registry codes system actions) := by
  induction actions generalizing system with
  | nil =>
      cases ran
      exact ⟨.nil, List.Sublist.refl _, rfl, .nil⟩
  | cons action rest ih =>
      obtain ⟨next, stepped, ranRest⟩ := Runs.run_cons_some _ ran
      have split : emitted (action :: rest) = action.signal.toList ++ emitted rest := by
        rw [emitted, List.filterMap_cons]
        cases action.signal <;> rfl
      rw [split] at clean
      have readyNext := ready.wireStep
        (fun signal member => clean signal
          (List.mem_append_left _ (Option.mem_toList.mpr member))) stepped
      obtain ⟨steps, order, count, said⟩ := ih readyNext
        (fun signal member => clean signal (List.mem_append_right _ member)) ranRest
      obtain ⟨here, countHere⟩ := accepted_ringEvent system action
      have seen : ringEvents registry system (action :: rest) =
          system.ringEvent action :: ringEvents registry next rest :=
        Runs.observe_cons _ _ _ stepped
      have written : messages registry codes system (action :: rest) =
          (system.sent registry codes action).toList ++ messages registry codes next rest := by
        rw [messages, Runs.observe_cons _ _ _ stepped]
        cases system.sent registry codes action <;> rfl
      rw [seen, written, split, accepted, taken, refusals, List.flatMap_cons, List.flatMap_cons,
        List.countP_cons, ← accepted, ← taken, ← refusals, List.length_append, List.length_append]
      exact ⟨.cons (ring_wireStep ready stepped) steps, here.append order, by omega,
        List.rel_append (says_wireStep codes ready stepped) said⟩

/-- In every interleaving the messages that are handed to `SendToPrivate` say what the
strategy emitted, in its order and each signal once, but for the signals that found
the ring full and those that are still in it. -/
theorem emitted_signals_go_out (empty : system.signalRing = [])
    (clean : ∀ instrument orderId marketType,
      WireAction.emitCancel instrument orderId marketType ∈ actions → Plain orderId.toList)
    (ran : Runs.run (wireStep registry) system actions = some final) :
    ∃ gone, (gone ++ final.signalRing).Sublist (emitted actions) ∧
      gone.length + final.signalRing.length + refusals (ringEvents registry system actions) =
        (emitted actions).length ∧
      List.Forall₂ (Signal.Says registry codes) gone (messages registry codes system actions) := by
  have ready : system.RingReady := by
    refine ⟨?_, ?_⟩
    · rw [empty]
      exact Nat.zero_le _
    · rw [empty]
      exact fun _ member => nomatch member
  obtain ⟨steps, order, count, said⟩ := wire_run codes ready (clean_emitted clean) ran
  have balance := steps.balance
  rw [empty, List.nil_append] at balance
  refine ⟨_, ?_, ?_, said⟩
  · rw [balance]
    exact order
  · rw [← List.length_append, balance]
    exact count

end Messages

/-- A BUY and a cancel of an older order, sent after one another. -/
def buyAndCancel : List WireAction :=
  [.emit oneMoreBuy, .emitCancel "BTC-USDT" "312" .spot, .dispatch 5 6, .dispatch 7 8]

theorem emitted_signals_go_out_buyAndCancel : ∃ gone : List Signal, gone.length = 2 ∧
    gone.Sublist (emitted buyAndCancel) ∧
    List.Forall₂ (Signal.Says btcUsdtRegistry ∅) gone
      (messages btcUsdtRegistry ∅ {} buyAndCancel) := by
  obtain ⟨final, ran, ring⟩ : ∃ final,
      Runs.run (wireStep btcUsdtRegistry) {} buyAndCancel = some final ∧
        final.signalRing = [] := by
    have done : (Runs.run (wireStep btcUsdtRegistry) {} buyAndCancel).map signalRing =
        some [] := by decide +kernel
    exact Option.map_eq_some_iff.mp done
  have clean : ∀ instrument orderId marketType,
      WireAction.emitCancel instrument orderId marketType ∈ buyAndCancel →
        Plain orderId.toList := by
    intro instrument orderId marketType member
    simp only [buyAndCancel, List.mem_cons, reduceCtorEq, WireAction.emitCancel.injEq,
      List.not_mem_nil, or_false, false_or] at member
    rw [member.2.1]
    simp
  obtain ⟨gone, order, count, said⟩ := emitted_signals_go_out ∅ rfl clean ran
  rw [ring, List.append_nil] at order
  have sent : (messages btcUsdtRegistry ∅ {} buyAndCancel).length = 2 := by decide +kernel
  exact ⟨gone, said.length_eq.trans sent, order, said⟩

end TradingSystem

end CryptoTrading
