import CryptoTrading.Clients.PublicSession
import CryptoTrading.Common.WsMessages

/-! # The public session as a quotation thread

Without what is sent, and with a call of `Read` as one step, a run of the public
session is a run of the quotation thread: it reads the same and hands on the same
data. -/
set_option autoImplicit false

namespace CryptoTrading

open OnDemand WsClient

/-- The connection of the thread when `Start` is at a point; inside `Read` some pings
have been answered already. -/
def StartPoint.Shows (resizable : ℕ → Bool) (link : Option PublicLink)
    (connection : Option PublicConnection) : StartPoint → Prop
  | .subscribing _ => connection = link.map fun link => ⟨link.incoming, false⟩
  | .checking pingPending => connection = link.map fun link => ⟨link.incoming, pingPending⟩
  | .waiting pingPending => connection = link.map fun link => ⟨link.incoming, pingPending⟩
  | .reading pingPending => ∀ link' ∈ link, ∃ incoming,
      connection = some ⟨incoming, pingPending⟩ ∧ PastPings resizable incoming link'.incoming
  | .starting => connection = none
  | .connecting => connection = none
  | .closing => connection = none
  | .stopped => connection = none

structure PublicSession.Shows (resizable : ℕ → Bool) (session : PublicSession)
    (thread : QuotationThread) : Prop where
  registry : thread.registry = session.registry
  published : thread.published = session.published
  connection : session.point.Shows resizable session.link thread.connection

namespace PublicSession

theorem pastPings_snoc {resizable : ℕ → Bool} {incoming later rest : List UInt8} {frame : Frame}
    (past : PastPings resizable incoming later)
    (taken : readFrame resizable later = .ok (frame, rest)) (isPing : frame.opcode = pingOpcode) :
    PastPings resizable incoming rest := by
  induction past with
  | here incoming => exact .ping taken isPing (.here rest)
  | ping first firstPing _ ih => exact .ping first firstPing (ih taken)

section Refinement
variable {iterate : List UInt8 → Option Node} {resizable : ℕ → Bool}
  {session next : PublicSession} {thread : QuotationThread} {maskKey : Vector UInt8 4}

variable (iterate resizable) in
def Followed (thread : QuotationThread) (next : PublicSession) : Prop :=
  ∃ actions after, Runs.run (QuotationThread.step iterate resizable) thread actions = some after ∧
    next.Shows resizable after

theorem followed_idle (shows' : next.Shows resizable thread) :
    Followed iterate resizable thread next :=
  ⟨[], thread, rfl, shows'⟩

theorem followed_one {action : QuotationAction} {after : QuotationThread}
    (stepped : thread.step iterate resizable action = some after)
    (shows' : next.Shows resizable after) : Followed iterate resizable thread next := by
  refine ⟨[action], after, ?_, shows'⟩
  rw [Runs.run_cons, stepped]
  rfl

theorem shows_receive {link : PublicLink} {rest raw : List UInt8} {pingPending : Bool}
    (registry : thread.registry = session.registry)
    (published : thread.published = session.published)
    (received : session.receive iterate link rest pingPending maskKey raw = some next) :
    ∃ after, thread.receive iterate ⟨rest, pingPending⟩ raw = some after ∧
      next.Shows resizable after := by
  rw [receive] at received
  rw [QuotationThread.receive]
  split_ifs at received ⊢ with empty pending pong
  · cases received
    exact ⟨_, rfl, registry, published, rfl⟩
  · cases received
    exact ⟨_, rfl, registry, published, rfl⟩
  · cases received
    exact ⟨_, rfl, registry, published, rfl⟩
  · obtain ⟨data, decoded, same⟩ := Option.bind_eq_some_iff.mp received
    cases same
    rw [← registry] at decoded
    refine ⟨{ thread with
      connection := some ⟨rest, false⟩, published := thread.published ++ data }, ?_,
      registry, congrArg (· ++ data) published, rfl⟩
    dsimp only
    rw [decoded]
    rfl

theorem followed_lost (shows' : session.Shows resizable thread) :
    Followed iterate resizable thread (session.setPoint .closing) := by
  have given : thread.step iterate resizable .lost = some { thread with connection := none } :=
    rfl
  exact followed_one given ⟨shows'.registry, shows'.published, rfl⟩

theorem shows_readTurn {link : PublicLink} {pingPending : Bool}
    (shows' : session.Shows resizable thread) (here : session.link = some link)
    (point : session.point = .reading pingPending)
    (turned : session.readTurn iterate resizable link pingPending maskKey = some next) :
    Followed iterate resizable thread next := by
  have connected := shows'.connection
  rw [point] at connected
  obtain ⟨incoming, connection, past⟩ := connected link here
  have read := read_of_pastPings past
  rw [read_eq resizable link.incoming] at read
  rw [readTurn] at turned
  split at turned
  · cases turned
    exact followed_lost shows'
  · cases turned
  · next frame rest taken =>
      rw [taken] at read
      dsimp only at read
      split_ifs at turned read with isPing isClose
      · cases turned
        refine followed_idle ⟨shows'.registry, shows'.published, ?_⟩
        rw [show (session.setLink _).point = _ from point]
        rintro _ ⟨⟩
        exact ⟨incoming, connection, pastPings_snoc past taken isPing⟩
      · cases turned
        exact followed_lost shows'
      · obtain ⟨after, received, showsAfter⟩ :=
          shows_receive shows'.registry shows'.published turned
        have handed : thread.step iterate resizable .read = some after := by
          rw [QuotationThread.step, connection]
          dsimp only
          rw [read]
          exact received
        exact followed_one handed showsAfter

theorem shows_next (shows' : session.Shows resizable thread)
    (stepped : session.next maskKey = some next) : Followed iterate resizable thread next := by
  obtain ⟨registry, published, connected⟩ := shows'
  rw [PublicSession.next] at stepped
  split at stepped
  · next starting =>
      cases stepped
      rw [starting] at connected
      refine followed_idle ⟨registry, published, ?_⟩
      cases session.running <;> exact connected
  · next count link subscribing here =>
      rw [subscribing, here] at connected
      split at stepped
      · cases stepped
        exact followed_idle ⟨registry, published, connected⟩
      · cases stepped
        refine followed_idle ⟨registry, published, ?_⟩
        change (StartPoint.checking false).Shows resizable session.link thread.connection
        rw [here]
        exact connected
  · next pingPending checking =>
      cases stepped
      have same : session.Shows resizable thread := ⟨registry, published, connected⟩
      rw [checking] at connected
      cases running : session.running with
      | true => exact followed_idle ⟨registry, published, connected⟩
      | false => exact followed_lost same
  · next closing =>
      cases stepped
      rw [closing] at connected
      exact followed_idle ⟨registry, published, connected⟩
  · cases stepped

theorem shows_connect {reached : Option (List UInt8 × List WriteOutcome)}
    (shows' : session.Shows resizable thread) (stepped : session.connect reached = some next) :
    Followed iterate resizable thread next := by
  obtain ⟨registry, published, connected⟩ := shows'
  unfold connect at stepped
  split at stepped
  · next incoming outcomes connecting =>
      cases stepped
      rw [connecting] at connected
      have opened : thread.step iterate resizable (.connect incoming) =
          some { thread with connection := some { incoming := incoming } } := by
        rw [QuotationThread.step, show thread.connection = none from connected]
      exact followed_one opened ⟨registry, published, rfl⟩
  · next connecting =>
      cases stepped
      rw [connecting] at connected
      exact followed_idle ⟨registry, published, connected⟩
  · cases stepped

theorem shows_wait {ready : Option Bool} (shows' : session.Shows resizable thread)
    (stepped : session.wait iterate ready maskKey = some next) :
    Followed iterate resizable thread next := by
  have connected := shows'.connection
  unfold wait at stepped
  split at stepped
  · cases stepped
    exact followed_lost shows'
  · next pingPending link waiting here =>
      rw [waiting, here] at connected
      obtain ⟨after, received, showsAfter⟩ :=
        shows_receive shows'.registry shows'.published stepped
      have timedOut : thread.step iterate resizable .timeout = some after := by
        rw [QuotationThread.step, show thread.connection = _ from connected]
        exact received
      exact followed_one timedOut showsAfter
  · next pingPending link waiting here =>
      cases stepped
      rw [waiting, here] at connected
      refine followed_idle ⟨shows'.registry, shows'.published, fun other member => ?_⟩
      rw [show other = link from Option.some.inj (member.symm.trans here)]
      exact ⟨link.incoming, connected, .here _⟩
  · cases stepped

theorem shows_step {action : PublicAction} (shows' : session.Shows resizable thread)
    (stepped : session.step iterate resizable action = some next) :
    Followed iterate resizable thread next := by
  cases action with
  | add info =>
      cases stepped
      have added : thread.step iterate resizable (.add info) =
          some { thread with registry := thread.registry.add info } := rfl
      exact followed_one added
        ⟨congrArg (·.add info) shows'.registry, shows'.published, shows'.connection⟩
  | stop =>
      cases stepped
      exact followed_idle ⟨shows'.registry, shows'.published, shows'.connection⟩
  | next maskKey => exact shows_next shows' stepped
  | connect reached => exact shows_connect shows' stepped
  | wait ready maskKey => exact shows_wait shows' stepped
  | read maskKey =>
      change session.read iterate resizable maskKey = some next at stepped
      unfold PublicSession.read at stepped
      split at stepped
      · next point here => exact shows_readTurn shows' here point stepped
      · cases stepped

/-- A run of the session is a run of the thread. -/
theorem shows_run {actions : List PublicAction} : ∀ {session : PublicSession}
    {thread : QuotationThread}, session.Shows resizable thread →
      Runs.run (step iterate resizable) session actions = some next →
        Followed iterate resizable thread next := by
  induction actions with
  | nil =>
      intro session thread shows' ran
      cases ran
      exact followed_idle shows'
  | cons action rest ih =>
      intro session thread shows' ran
      obtain ⟨middle, stepped, ranRest⟩ := Runs.run_cons_some _ ran
      obtain ⟨first, between, ranFirst, showsMiddle⟩ := shows_step shows' stepped
      obtain ⟨later, after, ranLater, showsAfter⟩ := ih showsMiddle ranRest
      refine ⟨first ++ later, after, ?_, showsAfter⟩
      rw [Runs.run_append, ranFirst, Option.bind_some, ranLater]

end Refinement

end PublicSession

end CryptoTrading
