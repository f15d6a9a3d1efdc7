import CryptoTrading.Lib.BoundedFifo
import CryptoTrading.Lib.Runs
import CryptoTrading.Sdk.MarketData
import Mathlib.Logic.Function.Basic

/-! # The loop of the strategy engine

`StrategyEngine::Run`: in every turn each of the five rings is popped at most
once, in a fixed order, and then the timer is looked at.  The strategy is a
plugin, so that all that is kept of it is the calls it gets and whether it has
stopped.  No two pushes into one ring overlap here. -/
set_option autoImplicit false

namespace CryptoTrading

inductive FeedKind where
  | ticker
  | bbo
  | depth
  | trade
  | report
  deriving DecidableEq, Repr

inductive FeedEntry where
  | data (data : MarketData)
  | report (report : ExecutionReport)
  deriving DecidableEq

def MarketData.kind : MarketData → FeedKind
  | .ticker _ => .ticker
  | .bbo _ => .bbo
  | .depth _ => .depth
  | .trade _ => .trade

def FeedEntry.kind : FeedEntry → FeedKind
  | .data published => published.kind
  | .report _ => .report

/-- `TickerRing`, `BBORing`, `DepthRing`, `TradeRing` and `ExecutionReportRing`. -/
def FeedKind.capacity : FeedKind → ℕ
  | .ticker => 4096
  | .bbo => 8192
  | .depth => 2048
  | .trade => 8192
  | .report => executionReportRingCapacity

/-- Where the thread stands: before the condition of the loop, a pop or the timer. -/
inductive LoopPoint where
  | condition
  | pop (kind : FeedKind)
  | timer
  | stopped
  deriving DecidableEq

def LoopPoint.afterPop : FeedKind → LoopPoint
  | .ticker => .pop .bbo
  | .bbo => .pop .depth
  | .depth => .pop .trade
  | .trade => .pop .report
  | .report => .timer

inductive StrategyCall where
  | init (paramsJson : String)
  | reconstruct (pendingOrders : List ExecutionReport)
  | feed (entry : FeedEntry)
  | timer
  deriving DecidableEq

structure StrategyLoop where
  rings : FeedKind → List FeedEntry := fun _ => []
  point : LoopPoint := .condition
  running : Bool := true
  isRunning : Bool := true
  calls : List StrategyCall := []

/-- A push of one of the other engines, a step of the thread, or a `Stop`, of the
engine or of the strategy; `due` says that the timer interval is over. -/
inductive LoopAction where
  | push (entry : FeedEntry)
  | proceed (due : Bool)
  | stop
  | stopStrategy

namespace StrategyLoop

/-- What `Run` does before the loop; without a strategy it returns. -/
def start (created : Bool) (paramsJson : String) (pendingOrders : List ExecutionReport) :
    Option StrategyLoop :=
  if created then
    some { calls := .init paramsJson ::
      if pendingOrders = [] then [] else [.reconstruct pendingOrders] }
  else none

def setRing (loop : StrategyLoop) (kind : FeedKind) (ring : List FeedEntry) : StrategyLoop :=
  { loop with rings := Function.update loop.rings kind ring }

def setPoint (loop : StrategyLoop) (point : LoopPoint) : StrategyLoop :=
  { loop with point := point }

def call (loop : StrategyLoop) (call : StrategyCall) : StrategyLoop :=
  { loop with calls := loop.calls ++ [call] }

/-- A push, as one step, whose result is not looked at.  The market data rings have
one producer, the quotation thread.  Into the report ring the listener and the
reconciler push without a lock, so that for it a run stands for those executions
in which their pushes do not overlap. -/
def push (loop : StrategyLoop) (entry : FeedEntry) : StrategyLoop :=
  let ring := loop.rings entry.kind
  loop.setRing entry.kind ((shmPush entry.kind.capacity ring entry).getD ring)

def proceed (loop : StrategyLoop) (due : Bool) : Option StrategyLoop :=
  match loop.point with
  | .condition =>
      some (loop.setPoint (if loop.running ∧ loop.isRunning then .pop .ticker else .stopped))
  | .pop kind =>
      match shmPop (loop.rings kind) with
      | none => some (loop.setPoint (.afterPop kind))
      | some (entry, rest) =>
          some (((loop.setRing kind rest).call (.feed entry)).setPoint (.afterPop kind))
  | .timer => some ((if due then loop.call .timer else loop).setPoint .condition)
  | .stopped => none

def step (loop : StrategyLoop) : LoopAction → Option StrategyLoop
  | .push entry => some (loop.push entry)
  | .proceed due => loop.proceed due
  | .stop => some { loop with running := false }
  | .stopStrategy => some { loop with isRunning := false }

open BoundedFifo (Event)

def event (kind : FeedKind) (loop : StrategyLoop) : LoopAction → Event FeedEntry
  | .push entry =>
      if entry.kind = kind then
        if (loop.rings kind).length < kind.capacity then .accept entry else .refuse
      else .silent
  | .proceed _ =>
      if loop.point = .pop kind then
        match loop.rings kind with
        | [] => .starve
        | entry :: _ => .take entry
      else .silent
  | .stop => .silent
  | .stopStrategy => .silent

def delivered (loop : StrategyLoop) (kind : FeedKind) : List FeedEntry :=
  loop.calls.filterMap fun
    | .feed entry => if entry.kind = kind then some entry else none
    | _ => none

end StrategyLoop

end CryptoTrading
