import CryptoTrading.Clients.PublicSession
import CryptoTrading.Common.SentStream

/-! # What goes on over a public connection

A connection is a conversation: the subscriptions in their order, then answers to
the pings of the server and pings of its own, of which no two follow each other
without a message between them.  Every connection that is given up was one, and the
open one is the front of one. -/
set_option autoImplicit false

namespace CryptoTrading

open OnDemand WsClient

/-! ## Conversations -/

/-- What follows the subscriptions; the flag says whether a ping is unanswered. -/
inductive Chatter : Bool → List PublicEvent → Prop where
  | nothing : Chatter false []
  | pinged {pingPending : Bool} {events : List PublicEvent} (payload : List UInt8)
      (chatter : Chatter pingPending events) :
      Chatter pingPending (events ++ [.pinged payload, .sent (.pong payload)])
  | asked {events : List PublicEvent} (chatter : Chatter false events) :
      Chatter true (events ++ [.sent .ping])
  | heard {pingPending : Bool} {events : List PublicEvent} {payload : List UInt8}
      (nonempty : payload ≠ []) (chatter : Chatter pingPending events) :
      Chatter false (events ++ [.heard payload])

def greetings (subs : List PendingSub) : List PublicEvent :=
  subs.map fun sub => .sent (.subscribe sub)

def Conversation (subs : List PendingSub) (pingPending : Bool) (events : List PublicEvent) :
    Prop :=
  ∃ chatter, events = greetings subs ++ chatter ∧ Chatter pingPending chatter

/-- What has been said when `Start` is at a point of its loops. -/
def StartPoint.Follows (subs : List PendingSub) (events : List PublicEvent) : StartPoint → Prop
  | .subscribing count => events = greetings (subs.take count)
  | .checking pingPending => Conversation subs pingPending events
  | .waiting pingPending => Conversation subs pingPending events
  | .reading pingPending => Conversation subs pingPending events
  | .closing => ∃ pingPending, Conversation subs pingPending events
  | .starting => False
  | .connecting => False
  | .stopped => False

section Conversation
variable {subs : List PendingSub} {events : List PublicEvent} {pingPending : Bool}

theorem conversation_greetings : Conversation subs false (greetings subs) :=
  ⟨[], (List.append_nil _).symm, .nothing⟩

theorem Conversation.append {later : List PublicEvent} {pendingLater : Bool}
    (conversation : Conversation subs pingPending events)
    (goesOn : ∀ chatter, Chatter pingPending chatter → Chatter pendingLater (chatter ++ later)) :
    Conversation subs pendingLater (events ++ later) := by
  obtain ⟨chatter, rfl, chats⟩ := conversation
  exact ⟨chatter ++ later, List.append_assoc _ _ _, goesOn chatter chats⟩

theorem in_front {front last before after : List PublicEvent} {event : PublicEvent}
    (absent : event ∉ last) (split : front ++ last = before ++ event :: after) :
    ∃ more, front = before ++ event :: more ∧ after = more ++ last := by
  rcases List.append_eq_append_iff.mp split with ⟨more, rfl, tail⟩ | ⟨more, rfl, tail⟩
  · exact absurd (by rw [tail]; simp) absent
  · cases more with
    | nil => exact absurd (by rw [← show event :: after = last from tail]; simp) absent
    | cons first more =>
        obtain ⟨rfl, rfl⟩ := List.cons.inj tail
        exact ⟨more, rfl, rfl⟩

theorem Chatter.heard_behind (chatter : Chatter pingPending events)
    (answered : pingPending = false) {before after : List PublicEvent}
    (split : events = before ++ .sent .ping :: after) :
    ∃ payload, payload ≠ [] ∧ .heard payload ∈ after := by
  induction chatter generalizing after with
  | nothing => exact absurd split (by simp)
  | pinged _ _ ih =>
      obtain ⟨more, front, rfl⟩ := in_front (by simp) split
      obtain ⟨payload, nonempty, member⟩ := ih answered front
      exact ⟨payload, nonempty, List.mem_append_left _ member⟩
  | asked _ _ => cases answered
  | heard nonempty _ _ =>
      obtain ⟨more, -, rfl⟩ := in_front (by simp) split
      exact ⟨_, nonempty, by simp⟩

theorem Chatter.heard_between (chatter : Chatter pingPending events)
    {before middle after : List PublicEvent}
    (split : events = before ++ .sent .ping :: (middle ++ .sent .ping :: after)) :
    ∃ payload, payload ≠ [] ∧ .heard payload ∈ middle := by
  rw [← List.cons_append, ← List.append_assoc] at split
  induction chatter generalizing after with
  | nothing => exact absurd split (by simp)
  | pinged _ _ ih =>
      obtain ⟨_, front, -⟩ := in_front (by simp) split
      exact ih front
  | heard _ _ ih =>
      obtain ⟨_, front, -⟩ := in_front (by simp) split
      exact ih front
  | asked chatter ih =>
      rcases List.eq_nil_or_concat after with rfl | ⟨later, last, rfl⟩
      · exact chatter.heard_behind rfl (List.append_inj_left' split rfl)
      · rw [List.concat_eq_append, ← List.cons_append, ← List.append_assoc] at split
        exact ih (List.append_inj_left' split rfl)

theorem StartPoint.Follows.said {point : StartPoint} (follows : point.Follows subs events) :
    (∃ count, point = .subscribing count ∧ events = greetings (subs.take count)) ∨
      ∃ pingPending, Conversation subs pingPending events := by
  cases point with
  | subscribing count => exact .inl ⟨count, rfl, follows⟩
  | checking pingPending => exact .inr ⟨pingPending, follows⟩
  | waiting pingPending => exact .inr ⟨pingPending, follows⟩
  | reading pingPending => exact .inr ⟨pingPending, follows⟩
  | closing => exact .inr follows
  | starting => exact follows.elim
  | connecting => exact follows.elim
  | stopped => exact follows.elim

theorem ping_not_greeting (subs : List PendingSub) :
    PublicEvent.sent .ping ∉ greetings subs := by
  simp [greetings]

theorem Conversation.heard_between (conversation : Conversation subs pingPending events)
    {before middle after : List PublicEvent}
    (split : events = before ++ .sent .ping :: (middle ++ .sent .ping :: after)) :
    ∃ payload, payload ≠ [] ∧ .heard payload ∈ middle := by
  obtain ⟨chatter, rfl, chats⟩ := conversation
  rcases List.append_eq_append_iff.mp split with ⟨more, rfl, tail⟩ | ⟨more, front, tail⟩
  · exact chats.heard_between tail
  · cases more with
    | nil =>
        have whole : chatter = [] ++ .sent .ping :: (middle ++ .sent .ping :: after) := tail.symm
        exact chats.heard_between whole
    | cons first more =>
        obtain ⟨rfl, -⟩ := List.cons.inj tail
        exact absurd (by rw [front]; simp) (ping_not_greeting subs)

end Conversation

namespace PublicSession

variable {iterate : List UInt8 → Option Node} {resizable : ℕ → Bool}
  {session next : PublicSession} {maskKey : Vector UInt8 4}

/-! ## Connections -/

inductive Comes (session : PublicSession) : PublicLink → Prop where
  | kept {link : PublicLink} (member : link ∈ session.links) : Comes session link
  | opened (incoming : List UInt8) (outcomes : List WriteOutcome) :
      Comes session { incoming := incoming, outcomes := outcomes }
  | passed {link : PublicLink} (member : link ∈ session.links) (rest : List UInt8) :
      Comes session { link with incoming := rest }
  | heard {link : PublicLink} (member : link ∈ session.links) (payload rest : List UInt8) :
      Comes session (link.take (.heard payload) rest)
  | asked {link : PublicLink} (member : link ∈ session.links) (rest : List UInt8)
      (maskKey : Vector UInt8 4) :
      Comes session ({ link with incoming := rest }.send .ping maskKey)
  | answered {link : PublicLink} (member : link ∈ session.links) {payload : List UInt8}
      (small : payload.length < 2 ^ 31) (rest : List UInt8) (maskKey : Vector UInt8 4) :
      Comes session ((link.take (.pinged payload) rest).send (.pong payload) maskKey)
  | greeted {link : PublicLink} (member : link ∈ session.links) {sub : PendingSub}
      (known : sub ∈ session.subscriptions) (maskKey : Vector UInt8 4) :
      Comes session (link.send (.subscribe sub) maskKey)

structure Relinked (session next : PublicSession) : Prop where
  subscriptions : next.subscriptions = session.subscriptions
  links : ∀ link ∈ next.links, session.Comes link

theorem relinked_of_links (same : next.subscriptions = session.subscriptions)
    (links : next.links = session.links) : Relinked session next :=
  ⟨same, fun _ member => .kept (links ▸ member)⟩

theorem relinked_of_link {link : PublicLink} (same : next.subscriptions = session.subscriptions)
    (earlier : next.earlier = session.earlier) (now : next.link = some link)
    (comes : session.Comes link) : Relinked session next := by
  refine ⟨same, fun other member => ?_⟩
  rw [links, earlier, now] at member
  rcases List.mem_append.mp member with before | current
  · exact .kept (List.mem_append_left _ before)
  · rw [List.mem_singleton.mp current]
    exact comes

theorem relinked_receive {link : PublicLink} {rest raw : List UInt8} {pingPending : Bool}
    (here : session.link = some link)
    (received : session.receive iterate link rest pingPending maskKey raw = some next) :
    Relinked session next := by
  have member : link ∈ session.links := by simp [links, here]
  rw [receive] at received
  split at received
  · split at received
    · cases received
      exact relinked_of_link rfl rfl rfl (.passed member rest)
    · cases received
      exact relinked_of_link rfl rfl rfl (.asked member rest maskKey)
  · split at received
    · cases received
      exact relinked_of_link rfl rfl rfl (.heard member raw rest)
    · obtain ⟨data, -, same⟩ := Option.bind_eq_some_iff.mp received
      cases same
      exact relinked_of_link rfl rfl rfl (.heard member raw rest)

theorem relinked_readTurn {link : PublicLink} {pingPending : Bool}
    (here : session.link = some link)
    (turned : session.readTurn iterate resizable link pingPending maskKey = some next) :
    Relinked session next := by
  have member : link ∈ session.links := by simp [links, here]
  rw [readTurn] at turned
  split at turned
  · cases turned
    exact relinked_of_links rfl rfl
  · cases turned
  · next frame rest taken =>
      split at turned
      · cases turned
        exact relinked_of_link rfl rfl rfl (.answered member (readFrame_small taken) rest maskKey)
      · split at turned
        · cases turned
          exact relinked_of_links rfl rfl
        · exact relinked_receive here turned

theorem relinked_next (stepped : session.next maskKey = some next) : Relinked session next := by
  rw [PublicSession.next] at stepped
  split at stepped
  · cases stepped
    exact relinked_of_links rfl rfl
  · next count link _ here =>
      split at stepped
      · next sub found =>
          cases stepped
          exact relinked_of_link rfl rfl rfl
            (.greeted (by simp [links, here]) (List.mem_of_getElem? found) maskKey)
      · cases stepped
        exact relinked_of_links rfl rfl
  · cases stepped
    exact relinked_of_links rfl rfl
  · cases stepped
    exact relinked_of_links rfl (List.append_nil _)
  · cases stepped

theorem relinked_step {action : PublicAction}
    (stepped : session.step iterate resizable action = some next) : Relinked session next := by
  cases action with
  | add info =>
      cases stepped
      exact relinked_of_links rfl rfl
  | stop =>
      cases stepped
      exact relinked_of_links rfl rfl
  | next maskKey => exact relinked_next stepped
  | connect reached =>
      change session.connect reached = some next at stepped
      unfold connect at stepped
      split at stepped
      · cases stepped
        exact relinked_of_link rfl rfl rfl (.opened _ _)
      · cases stepped
        exact relinked_of_links rfl rfl
      · cases stepped
  | wait ready maskKey =>
      change session.wait iterate ready maskKey = some next at stepped
      unfold wait at stepped
      split at stepped
      · cases stepped
        exact relinked_of_links rfl rfl
      · next here => exact relinked_receive here stepped
      · cases stepped
        exact relinked_of_links rfl rfl
      · cases stepped
  | read maskKey =>
      change session.read iterate resizable maskKey = some next at stepped
      unfold PublicSession.read at stepped
      split at stepped
      · next here => exact relinked_readTurn here stepped
      · cases stepped

/-- The invariant rule for connections: what holds of a new one and is kept by all
that may happen on one holds of every connection of a run. -/
theorem links_induction {P : PublicLink → Prop} {final : PublicSession}
    {actions : List PublicAction} (fresh : session.links = [])
    (kept : ∀ other link, other.subscriptions = session.subscriptions →
      (∀ before ∈ other.links, P before) → Comes other link → P link)
    (ran : Runs.run (step iterate resizable) session actions = some final) :
    ∀ link ∈ final.links, P link := by
  have none : ∀ link ∈ session.links, P link := by
    rw [fresh]
    exact List.forall_mem_nil P
  have invariant := Runs.run_induction (step iterate resizable)
    (fun other => other.subscriptions = session.subscriptions ∧ ∀ link ∈ other.links, P link)
    (fun other action next ⟨known, holds⟩ stepped => by
      obtain ⟨same, comes⟩ := relinked_step stepped
      exact ⟨same.trans known, fun link member => kept other link known holds (comes link member)⟩)
    ⟨rfl, none⟩ ran
  exact invariant.2

/-! ## Along a run -/

structure Keeps (session : PublicSession) : Prop where
  earlier : ∀ link ∈ session.earlier, ∃ pingPending,
    Conversation session.subscriptions pingPending link.events
  current : ∀ link ∈ session.link, session.point.Follows session.subscriptions link.events

theorem keeps_receive {link : PublicLink} {rest raw : List UInt8} {pingPending : Bool}
    (keeps : session.Keeps)
    (conversation : Conversation session.subscriptions pingPending link.events)
    (received : session.receive iterate link rest pingPending maskKey raw = some next) :
    next.Keeps := by
  rw [receive] at received
  split at received
  · split at received
    · cases received
      exact ⟨keeps.earlier, by rintro _ ⟨⟩; exact ⟨_, conversation⟩⟩
    · next notPending =>
        rw [Bool.not_eq_true] at notPending
        subst notPending
        cases received
        exact ⟨keeps.earlier, by rintro _ ⟨⟩; exact conversation.append fun _ => .asked⟩
  · next nonempty =>
      have told : Conversation session.subscriptions false (link.events ++ [.heard raw]) :=
        conversation.append fun _ => .heard nonempty
      split at received
      · cases received
        exact ⟨keeps.earlier, by rintro _ ⟨⟩; exact told⟩
      · obtain ⟨data, -, same⟩ := Option.bind_eq_some_iff.mp received
        cases same
        exact ⟨keeps.earlier, by rintro _ ⟨⟩; exact told⟩

theorem keeps_readTurn {link : PublicLink} {pingPending : Bool} (keeps : session.Keeps)
    (here : session.link = some link) (point : session.point = .reading pingPending)
    (turned : session.readTurn iterate resizable link pingPending maskKey = some next) :
    next.Keeps := by
  have conversation : Conversation session.subscriptions pingPending link.events := by
    have follows := keeps.current link here
    rwa [point] at follows
  have given : (session.setPoint .closing).Keeps := by
    refine ⟨keeps.earlier, fun other member => ?_⟩
    rw [show other = link from Option.some.inj (member.symm.trans here)]
    exact ⟨_, conversation⟩
  rw [readTurn] at turned
  split at turned
  · cases turned
    exact given
  · cases turned
  · split at turned
    · cases turned
      refine ⟨keeps.earlier, ?_⟩
      rintro _ ⟨⟩
      rw [show (session.setLink _).point = _ from point]
      rw [PublicLink.send, PublicLink.take, List.append_assoc]
      exact conversation.append fun _ => .pinged _
    · split at turned
      · cases turned
        exact given
      · exact keeps_receive keeps conversation turned

theorem keeps_setPoint {point : StartPoint} (keeps : session.Keeps)
    (follows : ∀ events, session.point.Follows session.subscriptions events →
      point.Follows session.subscriptions events) : (session.setPoint point).Keeps :=
  ⟨keeps.earlier, fun link member => follows link.events (keeps.current link member)⟩

theorem keeps_next (keeps : session.Keeps) (stepped : session.next maskKey = some next) :
    next.Keeps := by
  rw [PublicSession.next] at stepped
  split at stepped
  · next starting =>
      cases stepped
      refine keeps_setPoint keeps fun events follows => ?_
      rw [starting] at follows
      exact follows.elim
  · next count link subscribing here =>
      have follows := keeps.current link here
      rw [subscribing] at follows
      have greeted : link.events = greetings (session.subscriptions.take count) := follows
      split at stepped
      · next sub found =>
          cases stepped
          refine ⟨keeps.earlier, ?_⟩
          rintro _ ⟨⟩
          change link.events ++ [.sent (.subscribe sub)] =
            greetings (session.subscriptions.take (count + 1))
          rw [greeted, List.take_add_one, found, greetings, greetings, List.map_append]
          rfl
      · next past =>
          cases stepped
          refine ⟨keeps.earlier, fun other member => ?_⟩
          rw [show other = link from Option.some.inj (member.symm.trans here)]
          rw [List.take_of_length_le (List.getElem?_eq_none_iff.mp past)] at greeted
          change Conversation session.subscriptions false link.events
          rw [greeted]
          exact conversation_greetings
  · next pingPending checking =>
      cases stepped
      refine keeps_setPoint keeps fun events follows => ?_
      rw [checking] at follows
      split
      · exact follows
      · exact ⟨pingPending, follows⟩
  · next closing =>
      cases stepped
      refine ⟨fun link member => ?_, by rintro _ ⟨⟩⟩
      rcases List.mem_append.mp member with before | current
      · exact keeps.earlier link before
      · have follows := keeps.current link (Option.mem_toList.mp current)
        rw [closing] at follows
        exact follows
  · cases stepped

theorem keeps_connect {reached : Option (List UInt8 × List WriteOutcome)} (keeps : session.Keeps)
    (stepped : session.connect reached = some next) : next.Keeps := by
  unfold connect at stepped
  split at stepped
  · cases stepped
    exact ⟨keeps.earlier, by rintro _ ⟨⟩; rfl⟩
  · next connecting =>
      cases stepped
      refine keeps_setPoint keeps fun events follows => ?_
      rw [connecting] at follows
      exact follows.elim
  · cases stepped

theorem keeps_wait {ready : Option Bool} (keeps : session.Keeps)
    (stepped : session.wait iterate ready maskKey = some next) : next.Keeps := by
  unfold wait at stepped
  split at stepped
  · next pingPending _ waiting _ =>
      cases stepped
      refine keeps_setPoint keeps fun events follows => ?_
      rw [waiting] at follows
      exact ⟨pingPending, follows⟩
  · next pingPending link waiting here =>
      have follows := keeps.current link here
      rw [waiting] at follows
      exact keeps_receive keeps follows stepped
  · next waiting _ =>
      cases stepped
      refine keeps_setPoint keeps fun events follows => ?_
      rw [waiting] at follows
      exact follows
  · cases stepped

theorem keeps_read (keeps : session.Keeps)
    (stepped : session.read iterate resizable maskKey = some next) : next.Keeps := by
  unfold PublicSession.read at stepped
  split at stepped
  · next point here => exact keeps_readTurn keeps here point stepped
  · cases stepped

theorem keeps_step {action : PublicAction} (keeps : session.Keeps)
    (stepped : session.step iterate resizable action = some next) : next.Keeps := by
  cases action with
  | add info =>
      cases stepped
      exact ⟨keeps.earlier, keeps.current⟩
  | stop =>
      cases stepped
      exact ⟨keeps.earlier, keeps.current⟩
  | next maskKey => exact keeps_next keeps stepped
  | connect reached => exact keeps_connect keeps stepped
  | wait ready maskKey => exact keeps_wait keeps stepped
  | read maskKey => exact keeps_read keeps stepped

theorem Keeps.heard_between (keeps : session.Keeps) {link : PublicLink}
    (member : link ∈ session.links) {before middle after : List PublicEvent}
    (split : link.events = before ++ .sent .ping :: (middle ++ .sent .ping :: after)) :
    ∃ payload, payload ≠ [] ∧ .heard payload ∈ middle := by
  rcases List.mem_append.mp member with inEarlier | current
  · obtain ⟨_, conversation⟩ := keeps.earlier link inEarlier
    exact conversation.heard_between split
  · have follows := keeps.current link (Option.mem_toList.mp current)
    rcases follows.said with ⟨count, -, greeted⟩ | ⟨_, conversation⟩
    · rw [greeted] at split
      exact absurd (by rw [split]; simp) (ping_not_greeting (session.subscriptions.take count))
    · exact conversation.heard_between split

/-- Over any number of connections: each that was given up began with all the
subscriptions in their order and was a conversation, the open one is as far as
`Start` is, and on none of them two pings follow each other without a message
between them. -/
theorem connections_converse {registry : InstrumentRegistry} {subs : List PendingSub}
    {actions : List PublicAction} {final : PublicSession}
    (ran : Runs.run (step iterate resizable) { registry := registry, subscriptions := subs }
      actions = some final) :
    (∀ link ∈ final.earlier, ∃ pingPending, Conversation subs pingPending link.events) ∧
      (∀ link ∈ final.link, final.point.Follows subs link.events) ∧
        ∀ link ∈ final.links, ∀ before middle after,
          link.events = before ++ .sent .ping :: (middle ++ .sent .ping :: after) →
            ∃ payload, payload ≠ [] ∧ .heard payload ∈ middle := by
  obtain ⟨same, keeps⟩ := Runs.run_induction (step iterate resizable)
    (fun session => session.subscriptions = subs ∧ session.Keeps)
    (fun session action next held stepped =>
      ⟨(relinked_step stepped).subscriptions.trans held.1, keeps_step held.2 stepped⟩)
    ⟨rfl, fun _ member => absurd member List.not_mem_nil, by rintro _ ⟨⟩⟩ ran
  refine ⟨fun link member => ?_, fun link member => ?_, ?_⟩
  · rw [← same]
    exact keeps.earlier link member
  · rw [← same]
    exact keeps.current link member
  · intro link member before middle after split
    exact keeps.heard_between member split

/-- A ping, the ping of the server, a pong and one more ping. -/
def oneConversation : List PublicAction :=
  let maskKey : Vector UInt8 4 := #v[9, 7, 5, 3]
  [.next maskKey, .connect (some ([0x89, 0x00, 0x81, 0x04] ++ pongText, [])), .next maskKey,
    .next maskKey, .next maskKey, .wait (some false) maskKey, .next maskKey,
    .wait (some true) maskKey, .read maskKey, .read maskKey, .next maskKey,
    .wait (some false) maskKey]

theorem connections_converse_twoPings : ∃ final, Runs.run (step (fun _ => none) fun _ => true)
    { registry := ∅, subscriptions := [⟨"trades", "BTC-USDT"⟩] } oneConversation = some final ∧
      ∀ link ∈ final.link,
        final.point.Follows [⟨"trades", "BTC-USDT"⟩] link.events := by
  have goes : (Runs.run (step (fun _ => none) fun _ => true)
      { registry := ∅, subscriptions := [⟨"trades", "BTC-USDT"⟩] } oneConversation).isSome =
        true := by
    decide +kernel
  obtain ⟨final, ran⟩ := Option.isSome_iff_exists.mp goes
  exact ⟨final, ran, (connections_converse ran).2.1⟩

/-! ## What was said, framed and written -/

def messages (events : List PublicEvent) : List PublicMessage :=
  events.filterMap fun
    | .sent message => some message
    | .pinged _ => none
    | .heard _ => none

structure Written (link : PublicLink) : Prop where
  frames : link.frames.map WireFrame.frame =
    (messages link.events).map fun message => ⟨message.opcode, message.payload⟩
  sendable : ∀ frame ∈ link.frames, frame.Sendable
  streams : Streams link.frames link.writes

theorem Written.send {link : PublicLink} (written : Written link) (message : PublicMessage)
    (maskKey : Vector UInt8 4) (small : message.payload.length < 2 ^ 31) :
    Written (link.send message maskKey) := by
  have known : message.opcode < 16 := by
    cases message with
    | subscribe _ => exact (by decide : textOpcode < 16)
    | ping => exact (by decide : textOpcode < 16)
    | pong _ => exact (by decide : pongOpcode < 16)
  refine ⟨?_, fun frame member => ?_, ?_⟩
  · rw [PublicLink.send, messages, List.filterMap_append, List.map_append, List.map_append,
      written.frames]
    rfl
  · rcases List.mem_append.mp member with before | last
    · exact written.sendable frame before
    · rw [List.mem_singleton.mp last]
      exact ⟨known, small⟩
  · exact written.streams.send message.opcode maskKey message.payload link.outcomes

theorem Written.take {link : PublicLink} (written : Written link) {event : PublicEvent}
    (silent : ∀ message, event ≠ .sent message) (rest : List UInt8) :
    Written (link.take event rest) := by
  refine ⟨?_, written.sendable, written.streams⟩
  rw [PublicLink.take, messages, List.filterMap_append]
  cases event with
  | sent message => exact absurd rfl (silent message)
  | pinged payload => exact written.frames.trans (by rw [messages]; simp)
  | heard payload => exact written.frames.trans (by rw [messages]; simp)

theorem written_run {final : PublicSession} {actions : List PublicAction}
    (fresh : session.links = [])
    (small : ∀ sub ∈ session.subscriptions,
      (PublicMessage.subscribe sub).payload.length < 2 ^ 31)
    (ran : Runs.run (step iterate resizable) session actions = some final) :
    ∀ link ∈ final.links, Written link := by
  refine links_induction fresh (fun other link same held comes => ?_) ran
  cases comes with
  | kept member => exact held _ member
  | opened incoming outcomes => exact ⟨rfl, fun _ none => absurd none List.not_mem_nil, streams_nil⟩
  | passed member rest => exact ⟨(held _ member).1, (held _ member).2, (held _ member).3⟩
  | heard member payload rest => exact (held _ member).take (by simp) rest
  | @asked before member rest maskKey =>
      have passed : Written { before with incoming := rest } :=
        ⟨(held _ member).1, (held _ member).2, (held _ member).3⟩
      exact passed.send .ping maskKey (by decide)
  | answered member smallPayload rest maskKey =>
      exact ((held _ member).take (by simp) rest).send _ maskKey smallPayload
  | greeted member known maskKey =>
      exact (held _ member).send _ maskKey (small _ (same ▸ known))

end PublicSession

end CryptoTrading
