import CryptoTrading.Clients.OkxLogin
import CryptoTrading.Clients.PublicSessionSpec

/-! # Subscriptions from the configuration to the exchange

`LoadConfig` reads the instruments and channels, `QuotationEngine::Run` subscribes
to every channel of every instrument, and `Start` sends the subscriptions again on
every connection.  The names stand in the messages as they are, and the exchange
reads what was configured exactly when they need no escape. -/
set_option autoImplicit false

namespace CryptoTrading

open Json JsonLiteral QuotedText OnDemand WsClient

/-! ## The configuration -/

structure QuotationEngineConfig where
  instruments : List String := []
  channels : List String := []
  deriving DecidableEq, Repr

structure SystemConfig where
  exchange : ExchangeConfig
  quotationEngine : QuotationEngineConfig
  deriving DecidableEq, Repr

/-- The texts of an array; what is something else is passed over. -/
def parseStringArray (node : Json) (key : String) : List String :=
  match node.field key with
  | some (.array items) => items.filterMap asText
  | _ => []

def quotationEngineConfig (root : Json) : QuotationEngineConfig :=
  match root.field "quotation_engine" with
  | none => {}
  | some section' =>
      { instruments := parseStringArray section' "instruments"
        channels := parseStringArray section' "channels" }

/-- `LoadConfig` with the section of the quotation engine. -/
def loadSystemConfig (reason text : String) : Except String SystemConfig :=
  (loadConfig reason text).map fun exchange =>
    { exchange := exchange
      quotationEngine := ((Json.parse text).map quotationEngineConfig).getD {} }

/-- What the loops of `QuotationEngine::Run` subscribe to. -/
def QuotationEngineConfig.subscriptions (config : QuotationEngineConfig) : List PendingSub :=
  config.instruments.flatMap fun instrument =>
    config.channels.map fun channel => { channel := channel, instrument := instrument }

/-- `QuotationEngine::Run` up to `Start`; no masking key is used, as nothing is open
yet. -/
def quotationEngineStart (maskKey : Vector UInt8 4) (registry : InstrumentRegistry)
    (config : QuotationEngineConfig) : PublicSession :=
  config.instruments.foldl (fun session instrument =>
    config.channels.foldl (fun session channel =>
      session.subscribe maskKey { channel := channel, instrument := instrument }) session)
    { registry := registry }

/-! ## The exchange -/

inductive PublicCommand where
  | subscribe (channel instId : String)
  | ping
  deriving DecidableEq, Repr

def readCommand (payload : List UInt8) : Option PublicCommand := do
  let text ← String.fromUTF8? ⟨payload.toArray⟩
  if text = "ping" then some .ping
  else do
    let doc ← Json.parse text
    let op ← (doc.field "op").bind asText
    if op = "subscribe" then do
      let arg ← (doc.field "args").bind firstElement
      let channel ← (arg.field "channel").bind asText
      let instId ← (arg.field "instId").bind asText
      some (.subscribe channel instId)
    else none

def commands (link : PublicLink) : List (Option PublicCommand) :=
  ((receivedFrames (written link.writes)).filter fun frame => frame.opcode = textOpcode).map
    fun frame => readCommand frame.payload

def PendingSub.command (sub : PendingSub) : Option PublicCommand :=
  some (.subscribe sub.channel sub.instrument)

def intended (subs : List PendingSub) (pings : ℕ) : List (Option PublicCommand) :=
  subs.map PendingSub.command ++ List.replicate pings (some .ping)

def PublicSession.Resubscribed (session : PublicSession) (link : PublicLink) : Prop :=
  link ∈ session.earlier ∨ ∀ count, session.point ≠ .subscribing count

/-- The exchange reads the front of what is meant, and all of it when no call of
`SSL_write` fails. -/
structure Understood (subs : List PendingSub) (session : PublicSession) (link : PublicLink) :
    Prop where
  front : Dies link.writes → ∃ pings, commands link <+: intended subs pings
  whole : .failed ∉ link.writes → session.Resubscribed link →
    ∃ pings, commands link = intended subs pings

def SubscriptionsArrive (iterate : List UInt8 → Option Node) (resizable : ℕ → Bool)
    (registry : InstrumentRegistry) (config : QuotationEngineConfig) : Prop :=
  ∀ maskKey actions final, Runs.run (PublicSession.step iterate resizable)
      (quotationEngineStart maskKey registry config) actions = some final →
    ∀ link ∈ final.links, Understood config.subscriptions final link

/-! ## One message -/

section Message
variable {sub : PendingSub}

def PendingSub.Plain (sub : PendingSub) : Prop :=
  JsonLiteral.Plain sub.channel.toList ∧ JsonLiteral.Plain sub.instrument.toList

theorem toList_buildSubscribeMessage (channel instrument : String) :
    (buildSubscribeMessage channel instrument).toList =
      '{' :: named "op".toList (quoted "subscribe".toList ++ ',' :: named "args".toList
        ('[' :: '{' :: named "channel".toList (quoted channel.toList ++ ',' ::
          named "instId".toList (quoted instrument.toList ++ ['}', ']', '}'])))) := by
  have opening : "\x7b\"op\":\"subscribe\",\"args\":[\x7b\"channel\":\"".toList =
      '{' :: named "op".toList (quoted "subscribe".toList ++ ',' :: named "args".toList
        ('[' :: '{' :: named "channel".toList ['"'])) := by decide +kernel
  have instId : "\",\"instId\":\"".toList = '"' :: ',' :: named "instId".toList ['"'] := by
    decide +kernel
  have ending : "\"\x7d]\x7d".toList = ['"', '}', ']', '}'] := by decide +kernel
  unfold buildSubscribeMessage
  simp only [String.toList_append, opening, instId, ending, named, quoted, List.cons_append,
    List.append_assoc, List.nil_append]

theorem parse_buildSubscribeMessage (plain : sub.Plain) :
    Json.parse (buildSubscribeMessage sub.channel sub.instrument) =
      some (.object [("op", .text "subscribe"), ("args", .array [.object
        [("channel", .text sub.channel), ("instId", .text sub.instrument)]])]) := by
  have outer : JsonLiteral.Plain "op".toList ∧ JsonLiteral.Plain "subscribe".toList ∧
      JsonLiteral.Plain "args".toList := by simp
  have inner : JsonLiteral.Plain "channel".toList ∧ JsonLiteral.Plain "instId".toList := by simp
  let op := textMember "op" "subscribe" outer.1 outer.2.1
  let channel := textMember "channel" sub.channel inner.1 plain.1
  let instId := textMember "instId" sub.instrument inner.2 plain.2
  let args : Member :=
    { name := "args".toList, text := _, json := _, plain := outer.2.2
      spelled := spells_singleton channel [instId] }
  have spelled := spells_object op [args]
  have message : (buildSubscribeMessage sub.channel sub.instrument).toList =
      objectText op [args] := by
    rw [toList_buildSubscribeMessage]
    simp only [objectText, laterText, List.flatMap_cons, List.flatMap_nil, named, op, channel,
      instId, args, textMember, List.cons_append, List.append_assoc, List.nil_append]
  rw [← message] at spelled
  rw [parse_spelled spelled]
  simp [op, args, channel, instId, Member.read, textMember]

theorem plain_of_parse {doc arg : Json}
    (parsed : Json.parse (buildSubscribeMessage sub.channel sub.instrument) = some doc)
    (first : (doc.field "args").bind firstElement = some arg)
    (channel : (arg.field "channel").bind asText = some sub.channel)
    (instId : (arg.field "instId").bind asText = some sub.instrument) : sub.Plain := by
  obtain ⟨_, _, whole⟩ := parse_some parsed
  rw [toList_buildSubscribeMessage] at whole
  obtain ⟨_, outer, members, rfl⟩ := value_named_some whole
  obtain ⟨_, _, argsOn, rfl⟩ := members_text_some (show JsonLiteral.Plain "op".toList by simp)
    (show JsonLiteral.Plain "subscribe".toList by simp) members
  obtain ⟨_, _, _, _, args, rfl, -⟩ :=
    members_named_some (show JsonLiteral.Plain "args".toList by simp) argsOn
  obtain ⟨_, _, _, _, value, rfl⟩ := value_elements_some args
  obtain ⟨_, inner, named, rfl⟩ := value_named_some value
  cases Option.some.inj first
  obtain ⟨_, channelMember, channelText⟩ := Option.bind_eq_some_iff.mp channel
  obtain ⟨_, instIdMember, instIdText⟩ := Option.bind_eq_some_iff.mp instId
  rw [asText_some channelText] at channelMember
  rw [asText_some instIdText] at instIdMember
  have plainChannel := plain_of_decoded (show JsonLiteral.Plain "channel".toList by simp)
    ⟨'i', "nstId".toList, by simp, rfl⟩ named channelMember
  obtain ⟨_, _, instIdOn, rfl⟩ := members_text_some
    (show JsonLiteral.Plain "channel".toList by simp) plainChannel named
  exact ⟨plainChannel, plain_of_decoded_last (show JsonLiteral.Plain "instId".toList by simp)
    (by simp) instIdOn instIdMember⟩

theorem fromUTF8_toUTF8 (text : String) :
    String.fromUTF8? ⟨text.toUTF8.data.toList.toArray⟩ = some text := by
  rw [Array.toArray_toList, String.fromUTF8?]
  exact dif_pos text.isValidUTF8

theorem subscribeMessage_ne_ping (sub : PendingSub) :
    buildSubscribeMessage sub.channel sub.instrument ≠ "ping" := by
  intro same
  have texts := congrArg String.toList same
  rw [toList_buildSubscribeMessage] at texts
  exact absurd (List.cons.inj texts).1 (by decide)

/-- The exchange reads a subscription as it is meant exactly when its names need no
escape. -/
theorem readCommand_subscribe_iff :
    readCommand (PublicMessage.subscribe sub).payload = sub.command ↔ sub.Plain := by
  rw [readCommand, PublicMessage.payload, fromUTF8_toUTF8]
  dsimp only [bind, Option.bind]
  rw [if_neg (subscribeMessage_ne_ping sub)]
  constructor
  · intro read
    obtain ⟨doc, parsed, read⟩ := Option.bind_eq_some_iff.mp read
    obtain ⟨op, -, read⟩ := Option.bind_eq_some_iff.mp read
    split at read
    · obtain ⟨arg, first, read⟩ := Option.bind_eq_some_iff.mp read
      obtain ⟨channel, channelText, read⟩ := Option.bind_eq_some_iff.mp read
      obtain ⟨instId, instIdText, same⟩ := Option.bind_eq_some_iff.mp read
      cases same
      exact plain_of_parse parsed first channelText instIdText
    · cases read
  · intro plain
    rw [parse_buildSubscribeMessage plain]
    rfl

theorem readCommand_ping : readCommand pingText = some .ping := by
  have text : pingText = "ping".toUTF8.data.toList := by decide +kernel
  rw [readCommand, text, fromUTF8_toUTF8]
  rfl

end Message

/-! ## The subscriptions of the configuration -/

theorem quotationEngineStart_eq (maskKey : Vector UInt8 4) (registry : InstrumentRegistry)
    (config : QuotationEngineConfig) : quotationEngineStart maskKey registry config =
      { registry := registry, subscriptions := config.subscriptions } := by
  have inner : ∀ (instrument : String) (channels : List String) (subs : List PendingSub),
      channels.foldl (fun session channel =>
        session.subscribe maskKey { channel := channel, instrument := instrument })
        ({ registry := registry, subscriptions := subs } : PublicSession) =
      { registry := registry
        subscriptions := subs ++ channels.map fun channel =>
          { channel := channel, instrument := instrument } } := by
    intro instrument channels
    induction channels with
    | nil => simp
    | cons channel others ih =>
        intro subs
        rw [List.foldl_cons, PublicSession.subscribe]
        simp [ih]
  have outer : ∀ (instruments : List String) (subs : List PendingSub),
      instruments.foldl (fun session instrument =>
        config.channels.foldl (fun session channel =>
          session.subscribe maskKey { channel := channel, instrument := instrument }) session)
        ({ registry := registry, subscriptions := subs } : PublicSession) =
      { registry := registry
        subscriptions := subs ++ instruments.flatMap fun instrument =>
          config.channels.map fun channel =>
            { channel := channel, instrument := instrument } } := by
    intro instruments
    induction instruments with
    | nil => simp
    | cons instrument others ih =>
        intro subs
        rw [List.foldl_cons, inner, ih, List.flatMap_cons, List.append_assoc]
  exact (outer config.instruments []).trans (by rw [List.nil_append]; rfl)

/-! ## What reaches the exchange -/

section Commands
variable {subs : List PendingSub} {events : List PublicEvent} {pingPending : Bool}

def texts (events : List PublicEvent) : List PublicMessage :=
  (PublicSession.messages events).filter fun message => message.opcode = textOpcode

theorem texts_append (first second : List PublicEvent) :
    texts (first ++ second) = texts first ++ texts second := by
  rw [texts, PublicSession.messages, List.filterMap_append, List.filter_append]
  rfl

theorem texts_greetings (subs : List PendingSub) :
    texts (greetings subs) = subs.map PublicMessage.subscribe := by
  induction subs with
  | nil => rfl
  | cons sub others ih =>
      rw [List.map_cons, ← ih]
      rfl

theorem texts_chatter (chatter : Chatter pingPending events) :
    ∃ pings, texts events = List.replicate pings .ping := by
  induction chatter with
  | nothing => exact ⟨0, rfl⟩
  | pinged payload _ ih =>
      obtain ⟨pings, before⟩ := ih
      exact ⟨pings, by rw [texts_append, before]; exact List.append_nil _⟩
  | asked _ ih =>
      obtain ⟨pings, before⟩ := ih
      exact ⟨pings + 1, by rw [texts_append, before, List.replicate_succ']; rfl⟩
  | heard _ _ ih =>
      obtain ⟨pings, before⟩ := ih
      exact ⟨pings, by rw [texts_append, before]; exact List.append_nil _⟩

theorem texts_conversation (conversation : Conversation subs pingPending events) :
    ∃ pings, texts events = subs.map PublicMessage.subscribe ++ List.replicate pings .ping := by
  obtain ⟨chatter, rfl, chats⟩ := conversation
  obtain ⟨pings, only⟩ := texts_chatter chats
  exact ⟨pings, by rw [texts_append, texts_greetings, only]⟩

theorem read_texts (plain : ∀ sub ∈ subs, sub.Plain) (pings : ℕ) :
    (subs.map PublicMessage.subscribe ++ List.replicate pings PublicMessage.ping).map
      (fun message => readCommand message.payload) = intended subs pings := by
  have names : subs.map ((fun message => readCommand message.payload) ∘
      PublicMessage.subscribe) = subs.map PendingSub.command :=
    List.map_congr_left fun sub member => readCommand_subscribe_iff.mpr (plain sub member)
  have ping : readCommand PublicMessage.ping.payload = some .ping := readCommand_ping
  rw [List.map_append, List.map_map, List.map_replicate, names, ping, intended]

theorem StartPoint.Follows.texts {point : StartPoint} (follows : point.Follows subs events) :
    ∃ pings,
      texts events <+: subs.map PublicMessage.subscribe ++ List.replicate pings .ping ∧
        ((∀ count, point ≠ .subscribing count) →
          texts events = subs.map PublicMessage.subscribe ++ List.replicate pings .ping) := by
  rcases follows.said with ⟨count, rfl, greeted⟩ | ⟨_, conversation⟩
  · refine ⟨0, ?_, fun other => absurd rfl (other count)⟩
    rw [greeted, texts_greetings]
    exact ((List.take_prefix count subs).map _).trans (List.prefix_append _ _)
  · obtain ⟨pings, all⟩ := texts_conversation conversation
    exact ⟨pings, by rw [all], fun _ => all⟩

theorem read_frames (messages : List PublicMessage) :
    ((messages.map fun message => (⟨message.opcode, message.payload⟩ : Frame)).filter
      fun frame => frame.opcode = textOpcode).map (fun frame => readCommand frame.payload) =
    (messages.filter fun message => message.opcode = textOpcode).map
      fun message => readCommand message.payload := by
  rw [List.filter_map, List.map_map]
  rfl

variable {link : PublicLink}

theorem commands_front (carried : PublicSession.Written link) (dies : Dies link.writes) :
    commands link <+: (texts link.events).map fun message => readCommand message.payload := by
  have received := carried.streams.received carried.sendable dies
  rw [carried.frames] at received
  rw [commands, texts, ← read_frames]
  exact (received.filter _).map _

theorem commands_whole (carried : PublicSession.Written link) (clean : .failed ∉ link.writes) :
    commands link = (texts link.events).map fun message => readCommand message.payload := by
  rw [commands, carried.streams.received_whole carried.sendable clean, carried.frames,
    read_frames, texts]

end Commands

/-! ## A connection that takes everything -/

def willing : WriteOutcome := .accepts (2 ^ 31)

theorem accepts_willing {len : ℕ} (some' : len ≠ 0) (small : len < 2 ^ 31)
    (outcomes : List WriteOutcome) : WsClient.Accepts len (willing :: outcomes) outcomes := by
  have uncut : (len : Int).bmod (2 ^ 32) = len := by
    rw [Int.bmod_eq_emod]
    split <;> omega
  refine @WsClient.Accepts.part len len willing outcomes outcomes some' ?_ ?_
  · rw [uncut, willing, sslWrite, if_neg (by omega), Int.toNat_natCast,
      Nat.min_eq_right (Nat.le_of_lt small), Nat.max_eq_right (Nat.pos_of_ne_zero some')]
  · rw [Nat.sub_self]
    exact .all outcomes

theorem sendHeader_length (opcode : UInt8) (maskKey : Vector UInt8 4) (len : ℕ) :
    (sendHeader opcode maskKey len).length ≠ 0 ∧
      (sendHeader opcode maskKey len).length < 2 ^ 31 := by
  rw [sendHeader]
  split
  · simp
  · split <;> simp [length_lengthBytes]

theorem send_willing {message : PublicMessage} (some' : message.payload ≠ [])
    (small : message.payload.length < 2 ^ 31) (maskKey : Vector UInt8 4)
    (outcomes : List WriteOutcome) :
    outcomesAfter message.opcode maskKey message.payload (willing :: willing :: outcomes) =
        outcomes ∧
      .failed ∉ sendFrameTo message.opcode maskKey message.payload
        (willing :: willing :: outcomes) := by
  obtain ⟨headerSome, headerSmall⟩ :=
    sendHeader_length message.opcode maskKey message.payload.length
  have header := accepts_willing headerSome headerSmall (willing :: outcomes)
  have body := accepts_willing (by rwa [Ne, List.length_eq_zero_iff]) small outcomes
  refine ⟨?_, (sendFrameTo_accepts header body).2⟩
  rw [outcomesAfter, (rawSend_accepts header rfl).1]
  exact (rawSend_accepts body (length_sendBody maskKey message.payload)).1

theorem length_subscribe (sub : PendingSub) : (PublicMessage.subscribe sub).payload.length =
    (buildSubscribeMessage sub.channel sub.instrument).utf8ByteSize := by
  rw [PublicMessage.payload, Array.length_toList]
  rfl

theorem subscribe_nonempty (sub : PendingSub) : (PublicMessage.subscribe sub).payload ≠ [] := by
  intro empty
  have read := fromUTF8_toUTF8 (buildSubscribeMessage sub.channel sub.instrument)
  have nothing := fromUTF8_toUTF8 ""
  rw [show (buildSubscribeMessage sub.channel sub.instrument).toUTF8.data.toList = [] from empty]
    at read
  rw [show "".toUTF8.data.toList = [] by rfl, read] at nothing
  have texts := congrArg String.toList (Option.some.inj nothing)
  rw [toList_buildSubscribeMessage] at texts
  cases texts

section Greeting
variable {iterate : List UInt8 → Option Node} {resizable : ℕ → Bool}
  {registry : InstrumentRegistry} {subs : List PendingSub}

def greetingActions (maskKey : Vector UInt8 4) (total count : ℕ) : List PublicAction :=
  .next maskKey :: .connect (some ([], List.replicate (2 * total) willing)) ::
    List.replicate count (.next maskKey)

theorem greets (maskKey : Vector UInt8 4)
    (small : ∀ sub ∈ subs, (PublicMessage.subscribe sub).payload.length < 2 ^ 31) :
    ∀ count later, count + later = subs.length → ∃ session link,
      Runs.run (PublicSession.step iterate resizable)
          { registry := registry, subscriptions := subs }
          (greetingActions maskKey subs.length count) = some session ∧
        session.point = .subscribing count ∧ session.subscriptions = subs ∧
        session.link = some link ∧ link.outcomes = List.replicate (2 * later) willing ∧
        .failed ∉ link.writes := by
  intro count
  induction count with
  | zero =>
      intro later total
      rw [Nat.zero_add] at total
      rw [total]
      exact ⟨_, _, rfl, rfl, rfl, rfl, rfl, List.not_mem_nil⟩
  | succ count ih =>
      intro later total
      obtain ⟨session, link, ran, point, same, here, room, clean⟩ := ih (later + 1) (by omega)
      have inside : count < subs.length := by omega
      have found : session.subscriptions[count]? = some subs[count] := by
        rw [same, List.getElem?_eq_getElem inside]
      have two : List.replicate (2 * (later + 1)) willing =
          willing :: willing :: List.replicate (2 * later) willing := rfl
      obtain ⟨left, accepted⟩ := send_willing (subscribe_nonempty subs[count])
        (small _ (List.getElem_mem inside)) maskKey (List.replicate (2 * later) willing)
      have stepped : session.step iterate resizable (.next maskKey) =
          some ((session.setLink (link.send (.subscribe subs[count]) maskKey)).setPoint
            (.subscribing (count + 1))) := by
        rw [PublicSession.step, PublicSession.next, point, here]
        dsimp only
        rw [found]
      refine ⟨(session.setLink (link.send (.subscribe subs[count]) maskKey)).setPoint
        (.subscribing (count + 1)), link.send (.subscribe subs[count]) maskKey, ?_, rfl, same, rfl,
          ?_, ?_⟩
      · rw [greetingActions, List.replicate_succ', ← List.cons_append, ← List.cons_append,
          Runs.run_append_singleton, ← greetingActions, ran, Option.bind_some, stepped]
      · rw [← left, ← two, ← room]
        rfl
      · rw [PublicLink.send, room, two]
        exact fun failed => (List.mem_append.mp failed).elim clean accepted

theorem greets_all (maskKey : Vector UInt8 4)
    (small : ∀ sub ∈ subs, (PublicMessage.subscribe sub).payload.length < 2 ^ 31) :
    ∃ actions session link, Runs.run (PublicSession.step iterate resizable)
        { registry := registry, subscriptions := subs } actions = some session ∧
      session.point = .checking false ∧ session.link = some link ∧ .failed ∉ link.writes := by
  obtain ⟨session, link, ran, point, same, here, -, clean⟩ := @greets iterate resizable registry
    subs maskKey small subs.length 0 (Nat.add_zero _)
  refine ⟨greetingActions maskKey subs.length subs.length ++ [.next maskKey],
    session.setPoint (.checking false), link, ?_, rfl, here, clean⟩
  rw [Runs.run_append_singleton, ran, Option.bind_some, PublicSession.step, PublicSession.next,
    point, here]
  dsimp only
  rw [same, List.getElem?_eq_none_iff.mpr (Nat.le_refl _)]

end Greeting

/-! ## The subscriptions on every connection -/

section Arrival
variable {iterate : List UInt8 → Option Node} {resizable : ℕ → Bool}

theorem texts_of_run {registry : InstrumentRegistry} {subs : List PendingSub}
    {actions : List PublicAction} {final : PublicSession}
    (ran : Runs.run (PublicSession.step iterate resizable)
      { registry := registry, subscriptions := subs } actions = some final)
    {link : PublicLink} (member : link ∈ final.links) :
    ∃ pings,
      texts link.events <+: subs.map PublicMessage.subscribe ++ List.replicate pings .ping ∧
        (final.Resubscribed link →
          texts link.events = subs.map PublicMessage.subscribe ++ List.replicate pings .ping) := by
  obtain ⟨earlier, current, -⟩ := PublicSession.connections_converse ran
  by_cases inEarlier : link ∈ final.earlier
  · obtain ⟨_, conversation⟩ := earlier link inEarlier
    obtain ⟨pings, all⟩ := texts_conversation conversation
    exact ⟨pings, by rw [all], fun _ => all⟩
  · have now := (List.mem_append.mp member).resolve_left inEarlier
    obtain ⟨pings, front, whole⟩ := (current link (Option.mem_toList.mp now)).texts
    exact ⟨pings, front, fun through => whole (through.resolve_left inEarlier)⟩

/-- On every connection of every run the exchange reads the configured subscriptions,
each channel of each instrument in order, and behind them pings, exactly when the
names that stand in a subscription need no escape. -/
theorem subscriptions_arrive_iff (registry : InstrumentRegistry) (config : QuotationEngineConfig)
    (small : ∀ sub ∈ config.subscriptions,
      (buildSubscribeMessage sub.channel sub.instrument).utf8ByteSize < 2 ^ 31) :
    SubscriptionsArrive iterate resizable registry config ↔
      ∀ instrument ∈ config.instruments, ∀ channel ∈ config.channels,
        Plain channel.toList ∧ Plain instrument.toList := by
  have smallPayloads : ∀ sub ∈ config.subscriptions,
      (PublicMessage.subscribe sub).payload.length < 2 ^ 31 := by
    intro sub member
    rw [length_subscribe]
    exact small sub member
  have pairs : (∀ sub ∈ config.subscriptions, sub.Plain) ↔
      ∀ instrument ∈ config.instruments, ∀ channel ∈ config.channels,
        Plain channel.toList ∧ Plain instrument.toList := by
    simp only [QuotationEngineConfig.subscriptions, List.mem_flatMap, List.mem_map]
    constructor
    · intro plain instrument inInstruments channel inChannels
      exact plain ⟨channel, instrument⟩
        ⟨instrument, inInstruments, channel, inChannels, rfl⟩
    · rintro plain _ ⟨instrument, inInstruments, channel, inChannels, rfl⟩
      exact plain instrument inInstruments channel inChannels
  rw [← pairs]
  constructor
  · intro arrive sub member
    obtain ⟨actions, final, link, ran, point, here, clean⟩ := @greets_all iterate resizable
      registry config.subscriptions #v[0, 0, 0, 0] smallPayloads
    have inLinks : link ∈ final.links := by simp [PublicSession.links, here]
    have through : final.Resubscribed link := .inr fun count => by rw [point]; simp
    have started := ran
    rw [← quotationEngineStart_eq #v[0, 0, 0, 0]] at started
    obtain ⟨pings, understood⟩ := (arrive _ _ _ started link inLinks).whole clean through
    obtain ⟨sent, -, said⟩ := texts_of_run ran inLinks
    have carried := PublicSession.written_run rfl smallPayloads ran link inLinks
    rw [commands_whole carried clean, said through, List.map_append, List.map_map,
      intended] at understood
    have each := List.append_inj_left understood (by rw [List.length_map, List.length_map])
    exact readCommand_subscribe_iff.mp (List.map_inj_left.mp each sub member)
  · intro plain maskKey actions final ran link member
    rw [quotationEngineStart_eq] at ran
    have carried := PublicSession.written_run rfl smallPayloads ran link member
    obtain ⟨pings, front, whole⟩ := texts_of_run ran member
    have read := read_texts plain pings
    refine ⟨fun dies => ⟨pings, ?_⟩, fun clean through => ⟨pings, ?_⟩⟩
    · rw [← read]
      exact (commands_front carried dies).trans (front.map _)
    · rw [← read, commands_whole carried clean, whole through]

/-- The numbers among the channels are passed over. -/
def twoChannelsText : String :=
  "\x7b\"exchange\":\x7b\"api_key\":\"k\",\"secret_key\":\"s\"\x7d," ++
    "\"quotation_engine\":\x7b\"instruments\":[\"BTC-USDT\",\"ETH\\u002dUSDT\"]," ++
    "\"channels\":[\"trades\",5,\"bbo-tbt\"]\x7d\x7d"

def twoChannels : QuotationEngineConfig :=
  { instruments := ["BTC-USDT", "ETH-USDT"], channels := ["trades", "bbo-tbt"] }

theorem subscriptions_arrive_iff_twoChannels :
    (loadSystemConfig "" twoChannelsText).toOption.map SystemConfig.quotationEngine =
        some twoChannels ∧
      SubscriptionsArrive (fun _ => none) (fun _ => true) ∅ twoChannels := by
  have loaded : (loadSystemConfig "" twoChannelsText).toOption.map SystemConfig.quotationEngine =
      some twoChannels := by
    decide +kernel
  have small : ∀ sub ∈ twoChannels.subscriptions,
      (buildSubscribeMessage sub.channel sub.instrument).utf8ByteSize < 2 ^ 31 := by
    decide +kernel
  exact ⟨loaded, (subscriptions_arrive_iff ∅ twoChannels small).mpr (by decide +kernel)⟩

end Arrival

end CryptoTrading
