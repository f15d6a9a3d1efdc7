import CryptoTrading.Clients.OkxPrivate
import CryptoTrading.Lib.Runs
import Mathlib.Logic.Function.Basic

/-! # The private session

`ExchangeClient` around `private_ws_`: the listener thread with its reading loop
and `ReconnectPrivate`, and any number of threads that call
`SubscribePrivateChannel` and `SendToPrivate`.  A thread stands before its next
access to what is shared, and `sub_mutex_` says which thread is between taking
and giving it back.  A connection is the trace of what was handed to `Send` while
`private_ws_` was open, and of the login response that was accepted.  Whether
`SSL_write` then took the bytes is not recorded: no caller looks at it, and a
socket that is dead or shut down stays open until `ReconnectPrivate`.  The answers
that `Read` gives to pings go to `SendFrame` and are not part of the trace. -/
set_option autoImplicit false

namespace CryptoTrading

open OnDemand

structure PrivateSub where
  channel : String
  instType : String
  deriving DecidableEq

/-- What goes through `SendToPrivate`. -/
inductive PrivateOp where
  | subscribe (sub : PrivateSub)
  | request (msg : String)
  deriving DecidableEq

inductive PrivateMessage where
  | login
  | ping
  | op (op : PrivateOp)
  deriving DecidableEq

/-- The listener, which the login of `Init` is counted to as well, or a caller. -/
inductive ClientThread (C : Type) where
  | listener
  | caller (caller : C)
  deriving DecidableEq

inductive ConnectionEvent (C : Type) where
  | handed (thread : ClientThread C) (message : PrivateMessage)
  | accepted
  deriving DecidableEq

/-- Where a caller is: `register` and `send` stand before a lock, the other two
behind it. -/
inductive CallPoint where
  | idle
  | register (sub : PrivateSub)
  | registering (sub : PrivateSub)
  | send (op : PrivateOp)
  | sending (op : PrivateOp)
  deriving DecidableEq

/-- Where the listener is, from `closing` on inside `ReconnectPrivate` with the
lock taken; `resubscribing` counts the subscriptions sent again. -/
inductive ListenerPoint where
  | checking (pingPending : Bool)
  | reading (pingPending : Bool)
  | lost
  | waiting
  | closing
  | connecting
  | loggingIn
  | awaiting
  | refused
  | resubscribing (count : ℕ)
  | stopped
  deriving DecidableEq

def CallPoint.inside : CallPoint → Bool
  | .idle => false
  | .register _ => false
  | .registering _ => true
  | .send _ => false
  | .sending _ => true

def ListenerPoint.inside : ListenerPoint → Bool
  | .checking _ => false
  | .reading _ => false
  | .lost => false
  | .waiting => false
  | .closing => true
  | .connecting => true
  | .loggingIn => true
  | .awaiting => true
  | .refused => true
  | .resubscribing _ => true
  | .stopped => false

structure PrivateSession (C : Type) where
  running : Bool := true
  privateSubscriptions : List PrivateSub := []
  connection : Option (List (ConnectionEvent C)) := none
  earlier : List (List (ConnectionEvent C)) := []
  subMutex : Option (ClientThread C) := none
  listener : ListenerPoint := .checking false
  calls : C → CallPoint := fun _ => .idle

/-- A step of the listener with what the network has to say in it: `read none` is
a read that fails, and an empty text one that times out; `written` is what `Send`
says of the ping that may follow. -/
inductive ListenerAction where
  | next
  | read (raw : Option String) (written : Bool)
  | connect (success : Bool)
  | response (response : Option String)

inductive SessionAction (C : Type) where
  | subscribe (caller : C) (sub : PrivateSub)
  | request (caller : C) (msg : String)
  | proceed (caller : C)
  | listen (action : ListenerAction)
  | stop

def parseLoginResponse (iterate : String → Option Node) (response : String) : Bool :=
  match iterate response with
  | none => false
  | some doc =>
      (doc.field "event").getString = some "login" ∧ (doc.field "code").getString = some "0"

namespace PrivateSession

variable {C : Type}

def connections (session : PrivateSession C) : List (List (ConnectionEvent C)) :=
  session.earlier ++ session.connection.toList

/-- `WsClient::Send`, which does nothing without a connection; with one, the message
is handed over, whatever becomes of its bytes. -/
def send (session : PrivateSession C) (thread : ClientThread C) (message : PrivateMessage) :
    PrivateSession C :=
  { session with connection := session.connection.map (· ++ [.handed thread message]) }

def accept (session : PrivateSession C) : PrivateSession C :=
  { session with connection := session.connection.map (· ++ [.accepted]) }

def «open» (session : PrivateSession C) : PrivateSession C := { session with connection := some [] }

def close (session : PrivateSession C) : PrivateSession C :=
  { session with connection := none, earlier := session.connections }

def setLock (session : PrivateSession C) (owner : Option (ClientThread C)) : PrivateSession C :=
  { session with subMutex := owner }

def setListener (session : PrivateSession C) (point : ListenerPoint) : PrivateSession C :=
  { session with listener := point }

def register (session : PrivateSession C) (sub : PrivateSub) : PrivateSession C :=
  { session with privateSubscriptions := session.privateSubscriptions ++ [sub] }

/-- `LoginPrivate`, which throws unless its response is that of a login. -/
def loginPrivate (iterate : String → Option Node) (connects : Bool) (response : Option String) :
    Option (PrivateSession C) :=
  if connects ∧ response.any (parseLoginResponse iterate) then
    some ((({} : PrivateSession C).open.send .listener .login).accept)
  else none

/-- What the reading loop makes of a read.  Without a connection it can only
fail. -/
def afterRead (session : PrivateSession C) (pingPending written : Bool) :
    Option String → Option (PrivateSession C)
  | none => some (session.setListener .lost)
  | some raw =>
      if session.connection.isNone then none
      else if raw = "" then
        if pingPending then some (session.setListener .lost)
        else some ((session.send .listener .ping).setListener
          (if written then .checking true else .lost))
      else some (session.setListener (.checking false))

/-- One step of `StartPrivateListener`. -/
def listen (iterate : String → Option Node) (session : PrivateSession C)
    (action : ListenerAction) : Option (PrivateSession C) :=
  match session.listener, action with
  | .checking pingPending, .next =>
      some (session.setListener (if session.running then .reading pingPending else .stopped))
  | .reading pingPending, .read raw written => session.afterRead pingPending written raw
  | .lost, .next => some (session.setListener (if session.running then .waiting else .stopped))
  | .waiting, .next =>
      if session.subMutex.isNone then
        some ((session.setLock (some .listener)).setListener .closing)
      else none
  | .closing, .next => some (session.close.setListener .connecting)
  | .connecting, .connect success =>
      if success then some (session.open.setListener .loggingIn)
      else some ((session.setLock none).setListener (.checking false))
  | .loggingIn, .next => some ((session.send .listener .login).setListener .awaiting)
  | .awaiting, .response response =>
      if response.any (parseLoginResponse iterate) then
        some (session.accept.setListener (.resubscribing 0))
      else some (session.setListener .refused)
  | .refused, .next => some ((session.close.setLock none).setListener (.checking false))
  | .resubscribing count, .next =>
      match session.privateSubscriptions[count]? with
      | some sub =>
          some ((session.send .listener (.op (.subscribe sub))).setListener
            (.resubscribing (count + 1)))
      | none => some ((session.setLock none).setListener (.checking false))
  | _, _ => none

variable [DecidableEq C]

def setCall (session : PrivateSession C) (caller : C) (point : CallPoint) : PrivateSession C :=
  { session with calls := Function.update session.calls caller point }

/-- One step of a call; behind a lock, up to where it is given back. -/
def proceed (session : PrivateSession C) (caller : C) : Option (PrivateSession C) :=
  match session.calls caller with
  | .idle => none
  | .register sub =>
      if session.subMutex.isNone then
        some ((session.setLock (some (.caller caller))).setCall caller (.registering sub))
      else none
  | .registering sub =>
      some (((session.register sub).setLock none).setCall caller (.send (.subscribe sub)))
  | .send op =>
      if session.subMutex.isNone then
        some ((session.setLock (some (.caller caller))).setCall caller (.sending op))
      else none
  | .sending op =>
      some (((session.send (.caller caller) (.op op)).setLock none).setCall caller .idle)

def call (session : PrivateSession C) (caller : C) (point : CallPoint) :
    Option (PrivateSession C) :=
  if session.calls caller = .idle then some (session.setCall caller point) else none

def step (iterate : String → Option Node) (session : PrivateSession C) :
    SessionAction C → Option (PrivateSession C)
  | .subscribe caller sub => session.call caller (.register sub)
  | .request caller msg => session.call caller (.send (.request msg))
  | .proceed caller => session.proceed caller
  | .listen action => session.listen iterate action
  | .stop => some { session with running := false }

end PrivateSession

end CryptoTrading
