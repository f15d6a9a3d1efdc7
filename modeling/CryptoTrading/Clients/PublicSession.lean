import CryptoTrading.Clients.QuotationThread
import CryptoTrading.Common.WsSend

/-! # The public session

`ExchangeClient` around `public_ws_`: `Subscribe`, and `Start` with everything that
it sends.  On every connection the subscriptions go out again, then pings when
nothing came for a while, and an answer to each ping of the server.  Seen from what
is read alone it is the quotation thread. -/
set_option autoImplicit false

namespace CryptoTrading

open OnDemand WsClient

structure PendingSub where
  channel : String
  instrument : String
  deriving DecidableEq, Repr

def buildSubscribeMessage (channel instrument : String) : String :=
  "\x7b\"op\":\"subscribe\",\"args\":[\x7b\"channel\":\"" ++ channel ++ "\",\"instId\":\"" ++
    instrument ++ "\"\x7d]\x7d"

/-- What is handed to `SendFrame`. -/
inductive PublicMessage where
  | subscribe (sub : PendingSub)
  | ping
  | pong (payload : List UInt8)
  deriving DecidableEq, Repr

def pingText : List UInt8 := [0x70, 0x69, 0x6E, 0x67]

namespace PublicMessage

/-- Only the answer to a ping frame is not a text. -/
def opcode : PublicMessage → UInt8
  | .subscribe _ => textOpcode
  | .ping => textOpcode
  | .pong _ => pongOpcode

def payload : PublicMessage → List UInt8
  | .subscribe sub => (buildSubscribeMessage sub.channel sub.instrument).toUTF8.data.toList
  | .ping => pingText
  | .pong payload => payload

def frame (message : PublicMessage) (maskKey : Vector UInt8 4) : WireFrame :=
  { opcode := message.opcode, mask := some maskKey, payload := message.payload }

end PublicMessage

/-- `pinged` is a ping frame that was read, `heard` a message that is not empty. -/
inductive PublicEvent where
  | sent (message : PublicMessage)
  | pinged (payload : List UInt8)
  | heard (payload : List UInt8)
  deriving DecidableEq, Repr

/-- `public_ws_` while it is open: the bytes still to be read, what is in store for
the calls of `SSL_write`, and what has happened, as events, as frames and as calls. -/
structure PublicLink where
  incoming : List UInt8
  outcomes : List WriteOutcome
  events : List PublicEvent := []
  frames : List WireFrame := []
  writes : List WriteEvent := []

namespace PublicLink

/-- `SendFrame`. -/
def send (link : PublicLink) (message : PublicMessage) (maskKey : Vector UInt8 4) : PublicLink :=
  { link with
    outcomes := outcomesAfter message.opcode maskKey message.payload link.outcomes
    events := link.events ++ [.sent message]
    frames := link.frames ++ [message.frame maskKey]
    writes := link.writes ++
      sendFrameTo message.opcode maskKey message.payload link.outcomes }

def take (link : PublicLink) (event : PublicEvent) (rest : List UInt8) : PublicLink :=
  { link with incoming := rest, events := link.events ++ [event] }

end PublicLink

/-- Where `Start` is: before a check of `running_`, in `Connect`, at the next of
the subscriptions, before `select`, inside `Read`, or before `Close`. -/
inductive StartPoint where
  | starting
  | connecting
  | subscribing (count : ℕ)
  | checking (pingPending : Bool)
  | waiting (pingPending : Bool)
  | reading (pingPending : Bool)
  | closing
  | stopped
  deriving DecidableEq, Repr

structure PublicSession where
  running : Bool := true
  subscriptions : List PendingSub := []
  registry : InstrumentRegistry := ∅
  point : StartPoint := .starting
  link : Option PublicLink := none
  earlier : List PublicLink := []
  published : List MarketData := []

/-- A step of another thread, or of `Start` with what the network has to say in it;
every step that may send a frame is given a masking key. -/
inductive PublicAction where
  | add (info : InstrumentInfo)
  | stop
  | next (maskKey : Vector UInt8 4)
  | connect (reached : Option (List UInt8 × List WriteOutcome))
  | wait (ready : Option Bool) (maskKey : Vector UInt8 4)
  | read (maskKey : Vector UInt8 4)

namespace PublicSession

def links (session : PublicSession) : List PublicLink := session.earlier ++ session.link.toList

def setPoint (session : PublicSession) (point : StartPoint) : PublicSession :=
  { session with point := point }

def setLink (session : PublicSession) (link : PublicLink) : PublicSession :=
  { session with link := some link }

def subscribe (maskKey : Vector UInt8 4) (session : PublicSession) (sub : PendingSub) :
    PublicSession :=
  { session with
    subscriptions := session.subscriptions ++ [sub]
    link := session.link.map (·.send (.subscribe sub) maskKey) }

/-- What a turn does with the text it got, which is empty after a timeout.  `Send`
succeeds on an open connection. -/
def receive (iterate : List UInt8 → Option Node) (session : PublicSession) (link : PublicLink)
    (rest : List UInt8) (pingPending : Bool) (maskKey : Vector UInt8 4) (raw : List UInt8) :
    Option PublicSession :=
  if raw = [] then
    if pingPending then some ((session.setLink { link with incoming := rest }).setPoint .closing)
    else some ((session.setLink ({ link with incoming := rest }.send .ping maskKey)).setPoint
      (.checking true))
  else
    let heard := (session.setLink (link.take (.heard raw) rest)).setPoint (.checking false)
    if raw = pongText then some heard
    else do
      let data ← onPublicMessage session.registry iterate raw
      some { heard with published := session.published ++ data }

/-- A turn of the loop in `Read`, which goes on behind a ping. -/
def readTurn (iterate : List UInt8 → Option Node) (resizable : ℕ → Bool)
    (session : PublicSession) (link : PublicLink) (pingPending : Bool)
    (maskKey : Vector UInt8 4) : Option PublicSession :=
  match readFrame resizable link.incoming with
  | .error .failed => some (session.setPoint .closing)
  | .error .thrown => none
  | .ok (frame, rest) =>
      if frame.opcode = pingOpcode then
        some (session.setLink
          ((link.take (.pinged frame.payload) rest).send (.pong frame.payload) maskKey))
      else if frame.opcode = closeOpcode then some (session.setPoint .closing)
      else session.receive iterate link rest pingPending maskKey frame.payload

/-- A step that no connection is needed for, or the next subscription. -/
def next (session : PublicSession) (maskKey : Vector UInt8 4) : Option PublicSession :=
  match session.point, session.link with
  | .starting, _ =>
      some (session.setPoint (if session.running then .connecting else .stopped))
  | .subscribing count, some link =>
      match session.subscriptions[count]? with
      | some sub =>
          some ((session.setLink (link.send (.subscribe sub) maskKey)).setPoint
            (.subscribing (count + 1)))
      | none => some (session.setPoint (.checking false))
  | .checking pingPending, _ =>
      some (session.setPoint (if session.running then .waiting pingPending else .closing))
  | .closing, _ =>
      some { session with point := .starting, link := none, earlier := session.links }
  | _, _ => none

/-- What comes of `Connect`: the bytes of the server and what is in store for
writing, or a failure. -/
def connect (session : PublicSession) (reached : Option (List UInt8 × List WriteOutcome)) :
    Option PublicSession :=
  match session.point, reached with
  | .connecting, some (incoming, outcomes) =>
      some ((session.setLink { incoming := incoming, outcomes := outcomes }).setPoint
        (.subscribing 0))
  | .connecting, none => some (session.setPoint .starting)
  | _, _ => none

/-- `ReadWithTimeout` up to `Read`: it fails, times out or finds data. -/
def wait (iterate : List UInt8 → Option Node) (session : PublicSession) (ready : Option Bool)
    (maskKey : Vector UInt8 4) : Option PublicSession :=
  match session.point, session.link, ready with
  | .waiting _, some _, none => some (session.setPoint .closing)
  | .waiting pingPending, some link, some false =>
      session.receive iterate link link.incoming pingPending maskKey []
  | .waiting pingPending, some _, some true => some (session.setPoint (.reading pingPending))
  | _, _, _ => none

def read (iterate : List UInt8 → Option Node) (resizable : ℕ → Bool) (session : PublicSession)
    (maskKey : Vector UInt8 4) : Option PublicSession :=
  match session.point, session.link with
  | .reading pingPending, some link =>
      session.readTurn iterate resizable link pingPending maskKey
  | _, _ => none

/-- `none` is a step that is not due, or an exception that leaves the thread. -/
def step (iterate : List UInt8 → Option Node) (resizable : ℕ → Bool) (session : PublicSession) :
    PublicAction → Option PublicSession
  | .add info => some { session with registry := session.registry.add info }
  | .stop => some { session with running := false }
  | .next maskKey => session.next maskKey
  | .connect reached => session.connect reached
  | .wait ready maskKey => session.wait iterate ready maskKey
  | .read maskKey => session.read iterate resizable maskKey

end PublicSession

end CryptoTrading
