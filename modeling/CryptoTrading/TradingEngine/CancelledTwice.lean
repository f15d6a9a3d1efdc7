import CryptoTrading.TradingEngine.FullRing
import CryptoTrading.TradingEngine.OrderStep

/-! # Cancelling an order twice

Once a CANCELLED report has been handled, neither table knows the order: its id
is not live, and its client order id has no reservation that could bring it back
through the missed-NEW recovery.  Nothing that other orders do changes this, so
a further CANCELLED report ends at the duplicate check. -/
set_option autoImplicit false

namespace CryptoTrading

open TradingEngine

/-- A report handled by the engine, a call of a strategy or a turn of the dispatcher. -/
inductive SystemAction where
  | report (report : ExecutionReport) (clientOrderId : String)
  | emit (call : EmitCall)
  | dispatch (clientOrderId opId : String)
  deriving DecidableEq

def TradingSystem.act (registry : InstrumentRegistry) (system : TradingSystem) :
    SystemAction → Option TradingSystem
  | .report report clientOrderId =>
      (system.engine.handleOrderUpdate registry report clientOrderId).map fun engine =>
        { system with engine := engine }
  | .emit call => call.run registry system
  | .dispatch clientOrderId opId => system.dispatch registry clientOrderId opId

def CancelOf (orderId : String) (report : ExecutionReport) : Prop :=
  report.status = .cancelled ∧ report.orderId = orderId

instance (orderId : String) (report : ExecutionReport) : Decidable (CancelOf orderId report) :=
  inferInstanceAs (Decidable (_ ∧ _))

/-- What may follow the first cancel: reports of other orders, client order ids
that are new to the dispatcher, and the same cancel again. -/
def AfterCancel (orderId clientOrderId : String) : SystemAction → Prop
  | .report report other =>
      report.orderId ≠ orderId ∧ other ≠ clientOrderId ∨
        CancelOf orderId report ∧ other = clientOrderId
  | .emit _ => True
  | .dispatch other _ => other ≠ clientOrderId

/-- Neither table can lead a report back to the order. -/
structure Forgotten (orderId clientOrderId : String) (engine : TradingEngine) : Prop where
  live : orderId ∉ engine.liveOrderInstruments
  reservations : clientOrderId ≠ "" → clientOrderId ∉ engine.clientOrderIdToReservation

section Cancel
variable {registry : InstrumentRegistry} {engine after : TradingEngine} {report : ExecutionReport}
  {orderId clientOrderId : String}

/-- A cancel that is not a duplicate empties both tables of its order; one that
is finds them empty, since a reservation would have made the order live. -/
theorem forgotten_of_cancelled (cancels : CancelOf orderId report)
    (ran : engine.handleOrderUpdate registry report clientOrderId = some after) :
    Forgotten orderId clientOrderId after := by
  obtain ⟨isCancel, rfl⟩ := cancels
  rw [handleOrderUpdate_eq] at ran
  obtain ⟨recovered, recovery, finished⟩ := Option.bind_eq_some_iff.mp ran
  by_cases duplicate : recovered.isDuplicateCancel report = true
  · rw [finishUpdate, if_pos duplicate, Option.some.injEq] at finished
    subst finished
    have notLive : report.orderId ∉ recovered.liveOrderInstruments := by
      simpa [isDuplicateCancel, isCancel] using duplicate
    refine ⟨notLive, fun named reserved => ?_⟩
    rw [recoverMissedNew] at recovery
    split at recovery
    · obtain ⟨positions, -, rfl⟩ := Option.map_eq_some_iff.mp recovery
      exact notLive (Finmap.mem_insert.mpr (Or.inl rfl))
    · next idle =>
        cases Option.some.inj recovery
        refine idle (needsRecovery_iff.mpr ⟨?_, named, notLive, reserved⟩)
        rw [isCancel]
        decide
  · rw [finishUpdate, if_neg duplicate] at finished
    obtain ⟨pm, -, rfl⟩ := Option.map_eq_some_iff.mp finished
    refine ⟨?_, fun named => ?_⟩
    · rw [live_pushReport, live_setPositions, live_eraseReservation, mem_updateLiveOrders]
      simp [isCancel, isTerminal]
    · rw [reservations_pushReport, reservations_setPositions, mem_eraseReservation]
      simp [named, isCancel, endsReservation]

theorem Forgotten.cancel_inert (forgotten : Forgotten orderId clientOrderId engine)
    (cancels : CancelOf orderId report) :
    engine.handleOrderUpdate registry report clientOrderId = some engine := by
  obtain ⟨isCancel, rfl⟩ := cancels
  have idle : engine.needsRecovery report clientOrderId = false := by
    rw [Bool.eq_false_iff, Ne, needsRecovery_iff]
    exact fun needed => forgotten.reservations needed.2.1 needed.2.2.2
  have duplicate : engine.isDuplicateCancel report = true := by
    simp [isDuplicateCancel, isCancel, forgotten.live]
  rw [handleOrderUpdate_of_noRecovery idle, finishUpdate, if_pos duplicate]

theorem Forgotten.handle_other (forgotten : Forgotten orderId clientOrderId engine)
    {other : String} (otherOrder : report.orderId ≠ orderId) (otherClient : other ≠ clientOrderId)
    (ran : engine.handleOrderUpdate registry report other = some after) :
    Forgotten orderId clientOrderId after := by
  have frame := frame_handleOrderUpdate ran
  refine ⟨?_, fun named => ?_⟩
  · rw [frame.live orderId (Ne.symm otherOrder)]
    exact forgotten.live
  · rw [frame.reservations clientOrderId (Ne.symm otherClient)]
    exact forgotten.reservations named

end Cancel

section System
variable {registry : InstrumentRegistry} {system after : TradingSystem}

theorem tables_dispatch {clientOrderId opId : String}
    (ran : system.dispatch registry clientOrderId opId = some after) :
    after.engine.liveOrderInstruments = system.engine.liveOrderInstruments ∧
      ∀ other, other ≠ clientOrderId → (other ∈ after.engine.clientOrderIdToReservation ↔
        other ∈ system.engine.clientOrderIdToReservation) := by
  rw [TradingSystem.dispatch] at ran
  split at ran
  · cases Option.some.inj ran
    exact ⟨rfl, fun _ _ => Iff.rfl⟩
  · next signal rest popped =>
      split at ran
      · cases Option.some.inj ran
        exact ⟨rfl, fun _ _ => Iff.rfl⟩
      · obtain ⟨info, -, built⟩ := Option.bind_eq_some_iff.mp ran
        cases Option.some.inj built
        have own : (TradingSystem.buildRequest info signal clientOrderId).clientOrderId =
            clientOrderId := rfl
        simp only [TradingSystem.recordReservation, own]
        refine ⟨?_, fun other different => ?_⟩
        · split_ifs <;> rfl
        · split_ifs
          · simp [different]
          · exact Iff.rfl
          · exact Iff.rfl

theorem tables_emit {call : EmitCall} (ran : call.run registry system = some after) :
    after.engine.liveOrderInstruments = system.engine.liveOrderInstruments ∧
      after.engine.clientOrderIdToReservation = system.engine.clientOrderIdToReservation := by
  rw [EmitCall.run_eq] at ran
  split at ran
  · obtain ⟨info, -, rfl⟩ := Option.map_eq_some_iff.mp ran
    exact ⟨rfl, rfl⟩
  · cases Option.some.inj ran
    exact ⟨rfl, rfl⟩

theorem Forgotten.act {orderId clientOrderId : String} {action : SystemAction}
    (forgotten : Forgotten orderId clientOrderId system.engine)
    (apart : AfterCancel orderId clientOrderId action)
    (ran : system.act registry action = some after) :
    Forgotten orderId clientOrderId after.engine := by
  cases action with
  | report report other =>
      obtain ⟨engine, handled, rfl⟩ := Option.map_eq_some_iff.mp ran
      rcases apart with ⟨otherOrder, otherClient⟩ | ⟨cancels, rfl⟩
      · exact forgotten.handle_other otherOrder otherClient handled
      · exact forgotten_of_cancelled cancels handled
  | emit call =>
      obtain ⟨live, reservations⟩ := tables_emit ran
      refine ⟨?_, fun named => ?_⟩
      · rw [live]
        exact forgotten.live
      · rw [reservations]
        exact forgotten.reservations named
  | dispatch other opId =>
      obtain ⟨live, reservations⟩ := tables_dispatch ran
      refine ⟨?_, fun named => ?_⟩
      · rw [live]
        exact forgotten.live
      · rw [reservations clientOrderId (Ne.symm apart)]
        exact forgotten.reservations named

theorem Forgotten.acts {orderId clientOrderId : String} (actions : List SystemAction) :
    ∀ {system after : TradingSystem}, Forgotten orderId clientOrderId system.engine →
      (∀ action ∈ actions, AfterCancel orderId clientOrderId action) →
      Runs.run (TradingSystem.act registry) system actions = some after →
      Forgotten orderId clientOrderId after.engine := by
  induction actions with
  | nil =>
      intro system after forgotten _ ran
      cases Option.some.inj ran
      exact forgotten
  | cons action rest ih =>
      intro system after forgotten apart ran
      obtain ⟨next, stepped, ranRest⟩ := Runs.run_cons_some _ ran
      exact ih (forgotten.act (apart action List.mem_cons_self) stepped)
        (fun other member => apart other (List.mem_cons_of_mem _ member)) ranRest

end System

/-- After the first CANCELLED report of an order, and whatever the other orders
do since, the next one leaves the whole engine as it is. -/
theorem cancelled_again_inert {registry : InstrumentRegistry} {before : TradingEngine}
    {system final : TradingSystem} {orderId clientOrderId : String}
    {first again : ExecutionReport} {actions : List SystemAction}
    (cancels : CancelOf orderId first)
    (handled : before.handleOrderUpdate registry first clientOrderId = some system.engine)
    (apart : ∀ action ∈ actions, AfterCancel orderId clientOrderId action)
    (ran : Runs.run (TradingSystem.act registry) system actions = some final)
    (cancelsAgain : CancelOf orderId again) :
    final.act registry (.report again clientOrderId) = some final := by
  have forgotten := Forgotten.acts actions (forgotten_of_cancelled cancels handled) apart ran
  rw [TradingSystem.act, forgotten.cancel_inert cancelsAgain]
  rfl

def liveBuy : TradingEngine :=
  { positionManager :=
      { spotPositions := Finmap.insert "USDT" { currency := "USDT", frozen := 200 } ∅ }
    liveOrderInstruments := Finmap.insert "7" "BTC-USDT" ∅
    strategyInstruments := ["BTC-USDT"] }

def liveBuyReport (orderId : String) (status : OrderStatus) : ExecutionReport :=
  { instrument := "BTC-USDT", orderId := orderId, status := status, price := 100, totalVolume := 2 }

def cancelledBuy : TradingSystem :=
  { engine := (liveBuy.handleOrderUpdate btcUsdtRegistry (liveBuyReport "7" .cancelled)
      "cts7").getD {} }

theorem cancelled_again_inert_twice : ∃ final : TradingSystem,
    final.engine.liveOrderInstruments = Finmap.insert "8" "BTC-USDT" ∅ ∧
      final.act btcUsdtRegistry (.report (liveBuyReport "7" .cancelled) "cts7") = some final := by
  have cancels : CancelOf "7" (liveBuyReport "7" .cancelled) := by decide
  let actions : List SystemAction :=
    [.emit oneMoreBuy, .dispatch "cts8" "op8", .report (liveBuyReport "7" .cancelled) "cts7",
      .report (liveBuyReport "8" .new) "cts8"]
  obtain ⟨final, ran, live⟩ : ∃ final,
      Runs.run (TradingSystem.act btcUsdtRegistry) cancelledBuy actions = some final ∧
        final.engine.liveOrderInstruments = Finmap.insert "8" "BTC-USDT" ∅ := by
    have done : ((Runs.run (TradingSystem.act btcUsdtRegistry) cancelledBuy actions).map
        fun final => final.engine.liveOrderInstruments) =
          some (Finmap.insert "8" "BTC-USDT" ∅) := by decide +kernel
    exact Option.map_eq_some_iff.mp done
  have handled : liveBuy.handleOrderUpdate btcUsdtRegistry (liveBuyReport "7" .cancelled) "cts7" =
      some cancelledBuy.engine := by decide +kernel
  refine ⟨final, live, cancelled_again_inert cancels handled ?_ ran cancels⟩
  intro action member
  simp only [actions, List.mem_cons, List.not_mem_nil, or_false] at member
  rcases member with rfl | rfl | rfl | rfl <;> simp [AfterCancel, CancelOf, liveBuyReport]

end CryptoTrading
