import CryptoTrading.Clients.QuotationThread
import CryptoTrading.Common.CutStream
import Mathlib.Data.List.Forall2

/-! # The quotation thread by messages

What the quotation thread is for: it hands on what the messages of each connection
say, in order and from the first one on, until the connection is given up.  Bytes,
frames, pings and timeouts are gone.  The loops over the bytes do the same. -/
set_option autoImplicit false

namespace CryptoTrading

open OnDemand WsClient

structure MessageSource where
  registry : InstrumentRegistry
  connection : Option (List (List UInt8)) := none
  published : List MarketData := []

/-- `drop` gives the connection up, with what was still to come on it. -/
inductive SourceAction where
  | add (info : InstrumentInfo)
  | connect (messages : List (List UInt8))
  | deliver
  | drop
  | idle

/-- What one action of the thread may come to, on connections whose messages the
server has written. -/
inductive SourceAction.Shows (server : List UInt8 → List (List UInt8)) :
    QuotationAction → SourceAction → Prop where
  | add (info : InstrumentInfo) : Shows server (.add info) (.add info)
  | connect (incoming : List UInt8) :
      Shows server (.connect incoming) (.connect (server incoming))
  | delivered : Shows server .read .deliver
  | ended : Shows server .read .drop
  | idle : Shows server .read .idle
  | asked : Shows server .timeout .idle
  | silent : Shows server .timeout .drop
  | lost : Shows server .lost .drop

namespace MessageSource

/-- The next message, if there is one; an empty one and the answer to a ping say
nothing. -/
def deliver (iterate : List UInt8 → Option Node) (source : MessageSource) :
    Option MessageSource :=
  match source.connection with
  | some (message :: later) =>
      if message = [] ∨ message = pongText then some { source with connection := some later }
      else do
        let data ← onPublicMessage source.registry iterate message
        some { source with connection := some later, published := source.published ++ data }
  | some [] => some source
  | none => some source

def step (iterate : List UInt8 → Option Node) (source : MessageSource) :
    SourceAction → Option MessageSource
  | .add info => some { source with registry := source.registry.add info }
  | .connect messages =>
      match source.connection with
      | none => some { source with connection := some messages }
      | some _ => some source
  | .deliver => source.deliver iterate
  | .drop => some { source with connection := none }
  | .idle => some source

end MessageSource

/-! ## Bytes and messages -/

def ConnectionShows : Option PublicConnection → Option (List (List UInt8)) → Prop
  | none, none => True
  | some connection, some messages => Carries connection.incoming messages
  | none, some _ => False
  | some _, none => False

structure QuotationThread.Shows (thread : QuotationThread) (source : MessageSource) : Prop where
  registry : thread.registry = source.registry
  published : thread.published = source.published
  connection : ConnectionShows thread.connection source.connection

section Refinement
variable {iterate : List UInt8 → Option Node} {resizable : ℕ → Bool}
  {server : List UInt8 → List (List UInt8)} {thread : QuotationThread} {source : MessageSource}

/-- A call of `Read` that finds no message ends the connection, and one that finds
one hands it out. -/
theorem shows_read (room : ∀ len < 2 ^ 31, resizable len = true) (alike : thread.Shows source) :
    ∃ action, SourceAction.Shows server .read action ∧
      Option.Rel QuotationThread.Shows (thread.step iterate resizable .read)
        (source.step iterate action) := by
  obtain ⟨registry, connection, published⟩ := thread
  obtain ⟨_, messages, _⟩ := source
  obtain ⟨rfl, rfl, carried⟩ := alike
  cases connection with
  | none => exact ⟨.idle, .idle, .some ⟨rfl, rfl, carried⟩⟩
  | some connection =>
      cases messages with
      | none => exact carried.elim
      | some messages =>
          cases messages with
          | nil =>
              refine ⟨.drop, .ended, ?_⟩
              rw [QuotationThread.step]
              dsimp only
              rw [carried.read_none room]
              exact .some ⟨rfl, rfl, trivial⟩
          | cons message later =>
              obtain ⟨rest, taken, carries⟩ := carried.read_next room
              rw [QuotationThread.step]
              dsimp only
              rw [taken]
              dsimp only
              rw [QuotationThread.receive]
              by_cases empty : message = []
              · rw [if_pos empty]
                cases pending : connection.pingPending with
                | true => exact ⟨.drop, .ended, .some ⟨rfl, rfl, trivial⟩⟩
                | false =>
                    refine ⟨.deliver, .delivered, ?_⟩
                    rw [MessageSource.step, MessageSource.deliver]
                    dsimp only
                    rw [if_pos (Or.inl empty)]
                    exact .some ⟨rfl, rfl, carries⟩
              · rw [if_neg empty]
                refine ⟨.deliver, .delivered, ?_⟩
                rw [MessageSource.step, MessageSource.deliver]
                dsimp only
                by_cases pong : message = pongText
                · rw [if_pos pong, if_pos (Or.inr pong)]
                  exact .some ⟨rfl, rfl, carries⟩
                · rw [if_neg pong, if_neg (not_or.mpr ⟨empty, pong⟩)]
                  cases onPublicMessage registry iterate message with
                  | none => exact .none
                  | some data => exact .some ⟨rfl, rfl, carries⟩

def WrittenBy (server : List UInt8 → List (List UInt8)) (action : QuotationAction) : Prop :=
  ∀ incoming, action = .connect incoming → Carries incoming (server incoming)

theorem shows_step (room : ∀ len < 2 ^ 31, resizable len = true) {action : QuotationAction}
    (alike : thread.Shows source) (written : WrittenBy server action) :
    ∃ shown, SourceAction.Shows server action shown ∧
      Option.Rel QuotationThread.Shows (thread.step iterate resizable action)
        (source.step iterate shown) := by
  cases action with
  | read => exact shows_read room alike
  | add info =>
      refine ⟨.add info, .add info, .some ⟨?_, alike.published, alike.connection⟩⟩
      exact congrArg (InstrumentRegistry.add · info) alike.registry
  | lost => exact ⟨.drop, .lost, .some ⟨alike.registry, alike.published, trivial⟩⟩
  | connect incoming =>
      refine ⟨_, .connect incoming, ?_⟩
      have carried := alike.connection
      rw [QuotationThread.step, MessageSource.step]
      cases opened : thread.connection with
      | none =>
          cases other : source.connection with
          | none => exact .some ⟨alike.registry, alike.published, written incoming rfl⟩
          | some messages =>
              rw [opened, other] at carried
              exact carried.elim
      | some connection =>
          cases other : source.connection with
          | none =>
              rw [opened, other] at carried
              exact carried.elim
          | some messages => exact .some alike
  | timeout =>
      rw [QuotationThread.step]
      cases opened : thread.connection with
      | none => exact ⟨.idle, .asked, .some alike⟩
      | some connection =>
          dsimp only
          rw [QuotationThread.receive, if_pos rfl]
          cases pending : connection.pingPending with
          | true => exact ⟨.drop, .silent, .some ⟨alike.registry, alike.published, trivial⟩⟩
          | false =>
              refine ⟨.idle, .asked, .some ⟨alike.registry, alike.published, ?_⟩⟩
              have carried := alike.connection
              rw [opened] at carried
              cases other : source.connection with
              | none =>
                  rw [other] at carried
                  exact carried.elim
              | some messages =>
                  rw [other] at carried
                  exact carried

/-- The thread hands on what the messages say, and dies where one of them throws. -/
theorem shows_run (room : ∀ len < 2 ^ 31, resizable len = true) {actions : List QuotationAction}
    (alike : thread.Shows source) (written : ∀ action ∈ actions, WrittenBy server action) :
    ∃ shown, List.Forall₂ (SourceAction.Shows server) actions shown ∧
      Option.Rel QuotationThread.Shows
        (Runs.run (QuotationThread.step iterate resizable) thread actions)
        (Runs.run (MessageSource.step iterate) source shown) :=
  Runs.run_shown (shows_step room) actions alike written

end Refinement

end CryptoTrading
