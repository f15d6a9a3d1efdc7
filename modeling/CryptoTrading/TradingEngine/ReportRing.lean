import CryptoTrading.Sdk.RingFifo
import CryptoTrading.TradingEngine.Threads

/-! # Two threads on the report ring

`HandleOrderUpdate` ends in `shm_push(report_ring_)` outside of any lock, and
both the listener and the reconciler call it; the strategy pops.  A push writes
the slot of the tail it has loaded, so a report can be written over by one that
loaded the same tail, or be skipped when a stale tail is stored. -/
set_option autoImplicit false

namespace CryptoTrading

instance : Fintype Thread where
  elems := {.listener, .reconciler}
  complete := by
    intro thread
    cases thread with
    | listener => decide
    | reconciler => decide

def reportRingStart : RingCalls Thread ExecutionReport executionReportRingCapacity :=
  RingCalls.start {}

instance : NeZero executionReportRingCapacity := ⟨by decide⟩

abbrev ReportRingAction : Type := RingAction Thread ExecutionReport

theorem pushReport_reportRing {engine : TradingEngine} {report : ExecutionReport}
    {next : List ExecutionReport} (subscribed : report.instrument ∈ engine.strategyInstruments)
    (step : BoundedFifo.Step executionReportRingCapacity engine.reportRing (.accept report) next) :
    (engine.pushReport report).reportRing = next := by
  have pushed := boundedFifo_step_eq_call step
  rw [TradingEngine.pushReport, if_pos subscribed]
  exact congrArg (Option.getD · engine.reportRing) pushed

/-- Without a write behind a tail that has moved on, every accepted report is
still in the ring or has been popped once, in order and unmodified. -/
theorem reports_delivered (actions : List ReportRingAction)
    (calls : RingCalls Thread ExecutionReport executionReportRingCapacity)
    (ran : Runs.run RingCalls.step reportRingStart actions = some calls)
    (calm : Runs.count RingCalls.step RingCalls.Clobbers reportRingStart actions = 0) :
    calls.Delivered ∧ (calls.ring.tail ≤ calls.ring.head → calls.popped = calls.accepted) := by
  obtain ⟨inv, delivered⟩ := RingCalls.delivered_of_run ran calm
  refine ⟨delivered, ?_⟩
  intro drained
  have below := UInt64.le_iff_toNat_le.mp drained
  have nothing : calls.ring.unpopped = [] := by
    apply List.eq_nil_of_length_eq_zero
    rw [RingShm.length_unpopped]
    omega
  rw [← delivered, nothing, List.append_nil]

/-! ## Two pushes, one after and one across the other -/

def pushedReport (orderId : String) : ExecutionReport :=
  { instrument := "BTC-USDT", orderId := orderId, status := .cancelled }

def wholePush (thread : Thread) (orderId : String) : List ReportRingAction :=
  [.callPush thread (pushedReport orderId), .push thread, .push thread, .push thread, .push thread]

/-- The two threads in step: each access of the listener is followed by the same
access of the reconciler. -/
def pushedTogether : List ReportRingAction :=
  [.callPush .listener (pushedReport "1"), .callPush .reconciler (pushedReport "2"),
    .push .listener, .push .reconciler, .push .listener, .push .reconciler,
    .push .listener, .push .reconciler, .push .listener, .push .reconciler]

def wholePop : List ReportRingAction := [.callPop, .pop, .pop, .pop, .pop]

theorem reports_delivered_inTurn :
    ∃ calls, Runs.run RingCalls.step reportRingStart
        (wholePush .listener "1" ++ wholePush .reconciler "2" ++ wholePop) = some calls ∧
      calls.Delivered := by
  refine ⟨_, rfl, ?_⟩
  exact (reports_delivered
    (wholePush .listener "1" ++ wholePush .reconciler "2" ++ wholePop) _ rfl
    (by decide +kernel)).1

/-- Both calls return true; the ring is drained, and one report never came out. -/
theorem report_overwritten :
    ∃ calls, Runs.run RingCalls.step reportRingStart
        (pushedTogether ++ wholePop ++ [.callPop, .pop, .pop]) = some calls ∧
      calls.accepted = [pushedReport "1", pushedReport "2"] ∧
      calls.popped = [pushedReport "2"] ∧ calls.ring.tail ≤ calls.ring.head ∧
      calls.pushing .listener = none ∧ calls.pushing .reconciler = none ∧
      ¬ calls.Delivered := by
  refine ⟨_, rfl, rfl, rfl, ?_, rfl, rfl, ?_⟩
  · decide
  · intro delivered
    have length := congrArg List.length delivered
    exact absurd length (by decide)

end CryptoTrading
