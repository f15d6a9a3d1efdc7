import CryptoTrading.Clients.PrivateSession
import CryptoTrading.Lib.MutualExclusion

/-! # What the private connections carry

In every interleaving of the listener with the callers: a connection carries
nothing but its login until that is accepted, an open connection has every
registered subscription and no other, and a request goes out once or not at all. -/
set_option autoImplicit false

namespace CryptoTrading

def CallPoint.Announces (sub : PrivateSub) : CallPoint → Prop
  | .send op => op = .subscribe sub
  | .sending op => op = .subscribe sub
  | _ => False

namespace PrivateSession

open MutualExclusion

variable {C : Type}

/-! ## Traces -/

def loginHanded : ConnectionEvent C := .handed .listener .login

/-- The trace of a connection whose login was accepted: the login, and behind
the acceptance anything but another one. -/
def LoggedIn (trace : List (ConnectionEvent C)) : Prop :=
  ∃ rest, trace = loginHanded :: .accepted :: rest ∧
    ∀ event ∈ rest, ∃ thread message, event = .handed thread message ∧ message ≠ .login

def WellBegun (trace : List (ConnectionEvent C)) : Prop := trace <+: [loginHanded] ∨ LoggedIn trace

def Subscribed (trace : List (ConnectionEvent C)) (sub : PrivateSub) : Prop :=
  ∃ thread, .handed thread (.op (.subscribe sub)) ∈ trace

def resumed (session : PrivateSession C) (count : ℕ) : List (ConnectionEvent C) :=
  loginHanded :: .accepted :: (session.privateSubscriptions.take count).map fun sub =>
    .handed .listener (.op (.subscribe sub))

section Traces
variable {trace : List (ConnectionEvent C)} {session : PrivateSession C}

theorem LoggedIn.send (loggedIn : LoggedIn trace) (thread : ClientThread C)
    {message : PrivateMessage} (other : message ≠ .login) :
    LoggedIn (trace ++ [.handed thread message]) := by
  obtain ⟨rest, rfl, later⟩ := loggedIn
  refine ⟨rest ++ [.handed thread message], rfl, fun event member => ?_⟩
  rcases List.mem_append.mp member with earlier | added
  · exact later event earlier
  · exact ⟨thread, message, List.mem_singleton.mp added, other⟩

theorem loggedIn_resumed (count : ℕ) : LoggedIn (session.resumed count) := by
  refine ⟨_, rfl, fun event member => ?_⟩
  obtain ⟨sub, -, rfl⟩ := List.mem_map.mp member
  exact ⟨.listener, .op (.subscribe sub), rfl, fun same => nomatch same⟩

theorem subscribed_append (sub : PrivateSub) (thread : ClientThread C)
    (message : PrivateMessage) : Subscribed (trace ++ [.handed thread message]) sub ↔
      Subscribed trace sub ∨ message = .op (.subscribe sub) := by
  constructor
  · rintro ⟨sender, member⟩
    rcases List.mem_append.mp member with earlier | added
    · exact .inl ⟨sender, earlier⟩
    · cases List.mem_singleton.mp added
      exact .inr rfl
  · rintro (⟨sender, earlier⟩ | rfl)
    · exact ⟨sender, List.mem_append_left _ earlier⟩
    · exact ⟨thread, List.mem_append_right _ (List.mem_singleton.mpr rfl)⟩

theorem subscribed_resumed (count : ℕ) (sub : PrivateSub) :
    Subscribed (session.resumed count) sub ↔ sub ∈ session.privateSubscriptions.take count := by
  constructor
  · rintro ⟨thread, member⟩
    rw [resumed, List.mem_cons, List.mem_cons, List.mem_map] at member
    rcases member with login | accepted | ⟨other, listed, same⟩
    · cases login
    · cases accepted
    · cases same
      exact listed
  · intro listed
    refine ⟨.listener, ?_⟩
    rw [resumed, List.mem_cons, List.mem_cons, List.mem_map]
    exact .inr (.inr ⟨sub, listed, rfl⟩)

theorem not_subscribed_at_login (first : trace <+: [loginHanded]) (sub : PrivateSub) :
    ¬ Subscribed trace sub := by
  rintro ⟨thread, member⟩
  cases List.mem_singleton.mp (first.subset member)

end Traces

/-! ## The invariant -/

/-- The thread is between taking and giving back `sub_mutex_`. -/
def Inside (session : PrivateSession C) : ClientThread C → Prop
  | .listener => session.listener.inside = true
  | .caller caller => (session.calls caller).inside = true

def Subscribing (session : PrivateSession C) (sub : PrivateSub) : Prop :=
  ∃ caller, (session.calls caller).Announces sub

def Complete (session : PrivateSession C) (trace : List (ConnectionEvent C)) : Prop :=
  ∀ sub ∈ session.privateSubscriptions, Subscribed trace sub ∨ session.Subscribing sub

def Current (session : PrivateSession C) : Prop :=
  match session.listener with
  | .connecting => session.connection = none
  | .loggingIn => session.connection = some []
  | .awaiting => session.connection = some [loginHanded]
  | .refused => session.connection = some [loginHanded]
  | .resubscribing count => session.connection = some (session.resumed count)
  | _ => ∀ trace, session.connection = some trace → LoggedIn trace ∧ session.Complete trace

structure SessionInv (session : PrivateSession C) : Prop where
  exclusive : Exclusive session.subMutex session.Inside
  current : session.Current
  earlier : ∀ trace ∈ session.earlier, WellBegun trace
  /-- Nothing is subscribed that is not registered. -/
  registered : ∀ trace ∈ session.connections, ∀ sub, Subscribed trace sub →
    sub ∈ session.privateSubscriptions
  announced : ∀ sub, session.Subscribing sub → sub ∈ session.privateSubscriptions

section Invariant
variable {session : PrivateSession C}

theorem current_outside (outside : session.listener.inside = false) :
    session.Current ↔ ∀ trace, session.connection = some trace →
      LoggedIn trace ∧ session.Complete trace := by
  rw [Current]
  cases point : session.listener <;> first | rfl | (rw [point] at outside; cases outside)

theorem SessionInv.connection (inv : SessionInv session) {trace : List (ConnectionEvent C)}
    (isOpen : session.connection = some trace) : WellBegun trace := by
  have current := inv.current
  rw [Current] at current
  split at current
  · rw [isOpen] at current
    cases current
  · rw [isOpen] at current
    cases current
    exact .inl List.nil_prefix
  · rw [isOpen] at current
    cases current
    exact .inl (List.prefix_refl _)
  · rw [isOpen] at current
    cases current
    exact .inl (List.prefix_refl _)
  · rw [isOpen] at current
    cases current
    exact .inr (loggedIn_resumed _)
  · exact .inr (current trace isOpen).1

theorem SessionInv.wellBegun (inv : SessionInv session) {trace : List (ConnectionEvent C)}
    (member : trace ∈ session.connections) : WellBegun trace := by
  rcases List.mem_append.mp member with old | isOpen
  · exact inv.earlier trace old
  · exact inv.connection (Option.mem_toList.mp isOpen)

theorem SessionInv.outside (inv : SessionInv session) {caller : C}
    (inside : (session.calls caller).inside = true) : session.listener.inside = false := by
  rw [← Bool.not_eq_true]
  intro both
  have listening : session.Inside .listener := both
  have calling : session.Inside (.caller caller) := inside
  cases inv.exclusive.only listening calling

theorem SessionInv.registered_send (inv : SessionInv session) (thread : ClientThread C)
    {message : PrivateMessage}
    (known : ∀ sub, message = .op (.subscribe sub) → sub ∈ session.privateSubscriptions)
    {trace : List (ConnectionEvent C)} (member : trace ∈ (session.send thread message).connections)
    {sub : PrivateSub} (subscribed : Subscribed trace sub) :
    sub ∈ session.privateSubscriptions := by
  rcases List.mem_append.mp member with old | isOpen
  · exact inv.registered trace (List.mem_append_left _ old) sub subscribed
  · obtain ⟨before, wasOpen, rfl⟩ := Option.map_eq_some_iff.mp (Option.mem_toList.mp isOpen)
    rcases (subscribed_append _ _ _).mp subscribed with earlier | new
    · exact inv.registered before
        (List.mem_append_right _ (Option.mem_toList.mpr wasOpen)) sub earlier
    · exact known sub new

end Invariant

/-! ## Callers keep it -/

section Callers
variable [DecidableEq C] {session : PrivateSession C} {caller : C} {point : CallPoint}

theorem calls_setCall (other : C) : (session.setCall caller point).calls other =
    if other = caller then point else session.calls other :=
  Function.update_apply ..

theorem inside_setCall_self : (session.setCall caller point).Inside (.caller caller) ↔
    point.inside = true := by
  rw [Inside, calls_setCall, if_pos rfl]

theorem inside_setCall_of_ne (thread : ClientThread C) (apart : thread ≠ .caller caller) :
    (session.setCall caller point).Inside thread ↔ session.Inside thread := by
  cases thread with
  | listener => rfl
  | caller other =>
      have different : other ≠ caller := by
        rintro rfl
        exact apart rfl
      rw [Inside, calls_setCall, if_neg different, Inside]

theorem subscribing_setCall (sub : PrivateSub) :
    (session.setCall caller point).Subscribing sub ↔
      point.Announces sub ∨ ∃ other, other ≠ caller ∧ (session.calls other).Announces sub := by
  constructor
  · rintro ⟨other, announces⟩
    rw [calls_setCall] at announces
    split at announces
    · exact .inl announces
    · next apart => exact .inr ⟨other, apart, announces⟩
  · rintro (announces | ⟨other, apart, announces⟩)
    · exact ⟨caller, by rw [calls_setCall, if_pos rfl]; exact announces⟩
    · exact ⟨other, by rw [calls_setCall, if_neg apart]; exact announces⟩

theorem subscribing_iff (session : PrivateSession C) (caller : C) (sub : PrivateSub) :
    session.Subscribing sub ↔ (session.calls caller).Announces sub ∨
      ∃ other, other ≠ caller ∧ (session.calls other).Announces sub := by
  have same : session.setCall caller (session.calls caller) = session := by
    rw [setCall, Function.update_eq_self]
  rw [← subscribing_setCall, same]

theorem SessionInv.move (inv : SessionInv session) {owner : Option (ClientThread C)}
    (exclusive : Exclusive owner ((session.setLock owner).setCall caller point).Inside)
    (same : ∀ sub, point.Announces sub ↔ (session.calls caller).Announces sub) :
    SessionInv ((session.setLock owner).setCall caller point) := by
  have subscribing : ∀ sub, ((session.setLock owner).setCall caller point).Subscribing sub ↔
      session.Subscribing sub := by
    intro sub
    rw [subscribing_setCall, subscribing_iff session caller, same]
    rfl
  have current : ((session.setLock owner).setCall caller point).Current ↔ session.Current := by
    simp only [Current, Complete, subscribing]
    rfl
  exact
    { exclusive := exclusive, current := current.mpr inv.current, earlier := inv.earlier
      registered := inv.registered
      announced := fun sub announces => inv.announced sub ((subscribing sub).mp announces) }

theorem SessionInv.take (inv : SessionInv session) (free : session.subMutex = none)
    (inside : point.inside = true)
    (same : ∀ sub, point.Announces sub ↔ (session.calls caller).Announces sub) :
    SessionInv ((session.setLock (some (.caller caller))).setCall caller point) := by
  refine inv.move ?_ same
  have exclusive := inv.exclusive
  rw [free] at exclusive
  exact exclusive.enter (inside_setCall_self.mpr inside) inside_setCall_of_ne

theorem SessionInv.leave (inv : SessionInv session) (inside : (session.calls caller).inside = true)
    (out : point.inside = false) : Exclusive none (session.setCall caller point).Inside := by
  have calling : session.Inside (.caller caller) := inside
  refine inv.exclusive.leave calling (fun still => ?_) inside_setCall_of_ne
  rw [inside_setCall_self, out] at still
  cases still

theorem SessionInv.register (inv : SessionInv session) {sub : PrivateSub}
    (calls : session.calls caller = .registering sub) :
    SessionInv (((session.register sub).setLock none).setCall caller (.send (.subscribe sub))) := by
  have inside : (session.calls caller).inside = true := by rw [calls]; rfl
  have outside := inv.outside inside
  have kept : ∀ other, session.Subscribing other →
      (((session.register sub).setLock none).setCall caller
        (.send (.subscribe sub))).Subscribing other := by
    intro other announces
    rw [subscribing_iff session caller, calls] at announces
    exact (subscribing_setCall other).mpr (announces.imp False.elim id)
  refine
    { exclusive := inv.leave inside rfl
      current := (current_outside (by exact outside)).mpr fun trace isOpen => ?_
      earlier := inv.earlier, registered := fun trace member other subscribed => ?_
      announced := fun other announces => ?_ }
  · obtain ⟨loggedIn, complete⟩ := (current_outside outside).mp inv.current trace isOpen
    refine ⟨loggedIn, fun other listed => ?_⟩
    rcases List.mem_append.mp listed with before | new
    · exact (complete other before).imp id (kept other)
    · rw [List.mem_singleton.mp new]
      exact .inr ((subscribing_setCall sub).mpr (.inl rfl))
  · exact List.mem_append_left _ (inv.registered trace member other subscribed)
  · rcases (subscribing_setCall other).mp announces with new | ⟨another, -, before⟩
    · cases new
      exact List.mem_append_right _ (List.mem_singleton.mpr rfl)
    · exact List.mem_append_left _ (inv.announced other ⟨another, before⟩)

theorem SessionInv.sendOp (inv : SessionInv session) {op : PrivateOp}
    (calls : session.calls caller = .sending op) :
    SessionInv (((session.send (.caller caller) (.op op)).setLock none).setCall caller .idle) := by
  have inside : (session.calls caller).inside = true := by rw [calls]; rfl
  have outside := inv.outside inside
  have announced : ∀ sub, op = .subscribe sub → sub ∈ session.privateSubscriptions := by
    rintro sub rfl
    exact inv.announced sub ⟨caller, by rw [calls]; rfl⟩
  refine
    { exclusive := inv.leave inside rfl
      current := (current_outside (by exact outside)).mpr fun trace isOpen => ?_
      earlier := inv.earlier, registered := fun trace member sub subscribed => ?_
      announced := fun sub announces => ?_ }
  · obtain ⟨before, wasOpen, rfl⟩ := Option.map_eq_some_iff.mp isOpen
    obtain ⟨loggedIn, complete⟩ := (current_outside outside).mp inv.current before wasOpen
    refine ⟨loggedIn.send _ (fun same => nomatch same), fun sub listed => ?_⟩
    rw [subscribed_append, subscribing_setCall]
    rcases complete sub listed with subscribed | announces
    · exact .inl (.inl subscribed)
    · rw [subscribing_iff session caller, calls] at announces
      rcases announces with own | other
      · exact .inl (.inr (congrArg _ own))
      · exact .inr (.inr other)
  · exact inv.registered_send (.caller caller)
      (fun other same => announced other (PrivateMessage.op.inj same)) member subscribed
  · rcases (subscribing_setCall sub).mp announces with none | ⟨other, -, before⟩
    · exact none.elim
    · exact inv.announced sub ⟨other, before⟩

theorem SessionInv.proceed (inv : SessionInv session) {next : PrivateSession C}
    (ran : session.proceed caller = some next) : SessionInv next := by
  rw [PrivateSession.proceed] at ran
  cases calls : session.calls caller with
  | idle =>
      rw [calls] at ran
      cases ran
  | register sub =>
      rw [calls] at ran
      dsimp only at ran
      split at ran
      · next free =>
          cases ran
          exact inv.take (Option.isNone_iff_eq_none.mp free) rfl fun _ => by rw [calls]; rfl
      · cases ran
  | registering sub =>
      rw [calls] at ran
      cases ran
      exact inv.register calls
  | send op =>
      rw [calls] at ran
      dsimp only at ran
      split at ran
      · next free =>
          cases ran
          exact inv.take (Option.isNone_iff_eq_none.mp free) rfl fun _ => by rw [calls]; rfl
      · cases ran
  | sending op =>
      rw [calls] at ran
      cases ran
      exact inv.sendOp calls

theorem SessionInv.call (inv : SessionInv session) {next : PrivateSession C}
    (out : point.inside = false) (silent : ∀ sub, ¬ point.Announces sub)
    (ran : session.call caller point = some next) : SessionInv next := by
  rw [PrivateSession.call] at ran
  split at ran
  · next idle =>
      cases ran
      refine inv.move (?_ : Exclusive session.subMutex _) fun sub => ?_
      · refine inv.exclusive.stay fun thread => ?_
        by_cases own : thread = .caller caller
        · subst own
          rw [inside_setCall_self, out, Inside, idle, CallPoint.inside]
        · exact inside_setCall_of_ne thread own
      · rw [idle]
        exact ⟨silent sub, False.elim⟩
  · cases ran

end Callers

/-! ## The listener keeps it -/

section Listener
variable {session next : PrivateSession C}

structure CallsKept (session next : PrivateSession C) : Prop where
  calls : next.calls = session.calls
  subs : next.privateSubscriptions = session.privateSubscriptions

theorem CallsKept.inside (kept : CallsKept session next) (thread : ClientThread C)
    (apart : thread ≠ .listener) : next.Inside thread ↔ session.Inside thread := by
  cases thread with
  | listener => exact absurd rfl apart
  | caller other => rw [Inside, Inside, kept.calls]

theorem SessionInv.listened (inv : SessionInv session) (kept : CallsKept session next)
    (exclusive : Exclusive next.subMutex next.Inside) (current : next.Current)
    (earlier : ∀ trace ∈ next.earlier, WellBegun trace)
    (registered : ∀ trace ∈ next.connections, ∀ sub, Subscribed trace sub →
      sub ∈ session.privateSubscriptions) : SessionInv next where
  exclusive := exclusive
  current := current
  earlier := earlier
  registered := by
    rw [kept.subs]
    exact registered
  announced := by
    intro sub announces
    rw [kept.subs]
    rw [Subscribing, kept.calls] at announces
    exact inv.announced sub announces

theorem SessionInv.stays (inv : SessionInv session) (kept : CallsKept session next)
    (owner : next.subMutex = session.subMutex)
    (inside : next.listener.inside = session.listener.inside) :
    Exclusive next.subMutex next.Inside := by
  rw [owner]
  refine inv.exclusive.stay fun thread => ?_
  by_cases own : thread = .listener
  · subst own
    rw [Inside, Inside, inside]
  · exact kept.inside thread own

theorem SessionInv.frees (inv : SessionInv session) (kept : CallsKept session next)
    (owner : next.subMutex = none) (inside : session.listener.inside = true)
    (out : next.listener.inside = false) : Exclusive next.subMutex next.Inside := by
  have listening : session.Inside .listener := inside
  rw [owner]
  refine inv.exclusive.leave listening (fun still => ?_) kept.inside
  rw [Inside, out] at still
  cases still

theorem SessionInv.wander (inv : SessionInv session) {point : ListenerPoint}
    (before : session.listener.inside = false) (after : point.inside = false) :
    SessionInv (session.setListener point) :=
  inv.listened ⟨rfl, rfl⟩ (inv.stays ⟨rfl, rfl⟩ rfl (after.trans before.symm))
    ((current_outside (by exact after)).mpr ((current_outside before).mp inv.current))
    inv.earlier inv.registered

theorem SessionInv.ping (inv : SessionInv session) {point : ListenerPoint}
    (outside : session.listener.inside = false) (after : point.inside = false) :
    SessionInv ((session.send .listener .ping).setListener point) := by
  refine inv.listened ⟨rfl, rfl⟩ (inv.stays ⟨rfl, rfl⟩ rfl (after.trans outside.symm))
    ((current_outside (by exact after)).mpr fun trace isOpen => ?_) inv.earlier
    fun trace member sub subscribed =>
      inv.registered_send .listener (by rintro _ ⟨⟩) member subscribed
  obtain ⟨before, wasOpen, rfl⟩ := Option.map_eq_some_iff.mp isOpen
  obtain ⟨loggedIn, complete⟩ := (current_outside outside).mp inv.current before wasOpen
  refine ⟨loggedIn.send _ (fun same => nomatch same), fun sub listed => ?_⟩
  rw [subscribed_append]
  exact (complete sub listed).imp .inl id

theorem SessionInv.afterRead (inv : SessionInv session) {pingPending written : Bool} {raw : Option String}
    (outside : session.listener.inside = false)
    (ran : session.afterRead pingPending written raw = some next) : SessionInv next := by
  cases raw with
  | none =>
      cases ran
      exact inv.wander outside rfl
  | some raw =>
      rw [PrivateSession.afterRead] at ran
      split_ifs at ran
      · cases ran
        exact inv.wander outside rfl
      · cases ran
        exact inv.ping outside rfl
      · cases ran
        exact inv.ping outside rfl
      · cases ran
        exact inv.wander outside rfl

theorem SessionInv.lockTaken (inv : SessionInv session) (point : session.listener = .waiting)
    (free : session.subMutex = none) :
    SessionInv ((session.setLock (some .listener)).setListener .closing) := by
  have outside : session.listener.inside = false := by rw [point]; rfl
  refine inv.listened ⟨rfl, rfl⟩ ?_ ((current_outside outside).mp inv.current) inv.earlier
    inv.registered
  have exclusive := inv.exclusive
  rw [free] at exclusive
  exact exclusive.enter rfl (CallsKept.inside ⟨rfl, rfl⟩)

theorem SessionInv.closed (inv : SessionInv session) (point : session.listener = .closing) :
    SessionInv (session.close.setListener .connecting) := by
  refine inv.listened ⟨rfl, rfl⟩ (inv.stays ⟨rfl, rfl⟩ rfl (by rw [point]; rfl)) rfl
    (fun trace => inv.wellBegun) fun trace member => ?_
  rcases List.mem_append.mp member with old | none
  · exact inv.registered trace old
  · cases none

theorem SessionInv.opened (inv : SessionInv session) (point : session.listener = .connecting) :
    SessionInv (session.open.setListener .loggingIn) := by
  refine inv.listened ⟨rfl, rfl⟩ (inv.stays ⟨rfl, rfl⟩ rfl (by rw [point]; rfl)) rfl
    inv.earlier fun trace member => ?_
  rcases List.mem_append.mp member with old | new
  · exact inv.registered trace (List.mem_append_left _ old)
  · rw [List.mem_singleton.mp new]
    exact fun sub subscribed => absurd subscribed (not_subscribed_at_login List.nil_prefix sub)

theorem SessionInv.unreachable (inv : SessionInv session) (point : session.listener = .connecting) :
    SessionInv ((session.setLock none).setListener (.checking false)) := by
  have current := inv.current
  rw [Current, point] at current
  refine inv.listened ⟨rfl, rfl⟩ (inv.frees ⟨rfl, rfl⟩ rfl (by rw [point]; rfl) rfl)
    ((current_outside rfl).mpr fun trace isOpen => ?_) inv.earlier inv.registered
  cases current.symm.trans isOpen

theorem SessionInv.loginHanded (inv : SessionInv session) (point : session.listener = .loggingIn) :
    SessionInv ((session.send .listener .login).setListener .awaiting) := by
  have current := inv.current
  rw [Current, point] at current
  refine inv.listened ⟨rfl, rfl⟩ (inv.stays ⟨rfl, rfl⟩ rfl (by rw [point]; rfl)) ?_
    inv.earlier fun trace member sub subscribed =>
      inv.registered_send .listener (by rintro _ ⟨⟩) member subscribed
  exact congrArg (Option.map (· ++ [PrivateSession.loginHanded])) current

theorem SessionInv.accepted (inv : SessionInv session) (point : session.listener = .awaiting) :
    SessionInv (session.accept.setListener (.resubscribing 0)) := by
  have current := inv.current
  rw [Current, point] at current
  have now : session.accept.connection = some (session.resumed 0) :=
    congrArg (Option.map (· ++ [ConnectionEvent.accepted])) current
  refine inv.listened ⟨rfl, rfl⟩ (inv.stays ⟨rfl, rfl⟩ rfl (by rw [point]; rfl)) now
    inv.earlier fun trace member => ?_
  rcases List.mem_append.mp member with old | isOpen
  · exact inv.registered trace (List.mem_append_left _ old)
  · rw [← Option.some.inj (now.symm.trans (Option.mem_toList.mp isOpen))]
    intro sub subscribed
    exact List.mem_of_mem_take ((subscribed_resumed 0 sub).mp subscribed)

theorem SessionInv.refused (inv : SessionInv session) (point : session.listener = .awaiting) :
    SessionInv (session.setListener .refused) := by
  have current := inv.current
  rw [Current, point] at current
  exact inv.listened ⟨rfl, rfl⟩ (inv.stays ⟨rfl, rfl⟩ rfl (by rw [point]; rfl)) current
    inv.earlier inv.registered

theorem SessionInv.givenUp (inv : SessionInv session) (point : session.listener = .refused) :
    SessionInv ((session.close.setLock none).setListener (.checking false)) := by
  refine inv.listened ⟨rfl, rfl⟩ (inv.frees ⟨rfl, rfl⟩ rfl (by rw [point]; rfl) rfl)
    ((current_outside rfl).mpr fun trace isOpen => nomatch isOpen) (fun trace => inv.wellBegun)
    fun trace member => ?_
  rcases List.mem_append.mp member with old | none
  · exact inv.registered trace old
  · cases none

theorem SessionInv.resubscribed (inv : SessionInv session) {count : ℕ} {sub : PrivateSub}
    (point : session.listener = .resubscribing count)
    (here : session.privateSubscriptions[count]? = some sub) :
    SessionInv ((session.send .listener (.op (.subscribe sub))).setListener
      (.resubscribing (count + 1))) := by
  have current := inv.current
  rw [Current, point] at current
  refine inv.listened ⟨rfl, rfl⟩ (inv.stays ⟨rfl, rfl⟩ rfl (by rw [point]; rfl)) ?_
    inv.earlier fun trace member other subscribed =>
      inv.registered_send .listener ?_ member subscribed
  · have longer : session.resumed (count + 1) =
        session.resumed count ++ [.handed .listener (.op (.subscribe sub))] := by
      rw [resumed, resumed, List.take_add_one, here, List.map_append]
      rfl
    rw [Current]
    dsimp only [setListener]
    rw [send, current]
    exact congrArg some longer.symm
  · rintro other ⟨⟩
    exact List.mem_of_getElem? here

theorem SessionInv.released (inv : SessionInv session) {count : ℕ}
    (point : session.listener = .resubscribing count)
    (done : session.privateSubscriptions[count]? = none) :
    SessionInv ((session.setLock none).setListener (.checking false)) := by
  have current := inv.current
  rw [Current, point] at current
  refine inv.listened ⟨rfl, rfl⟩ (inv.frees ⟨rfl, rfl⟩ rfl (by rw [point]; rfl) rfl)
    ((current_outside rfl).mpr fun trace isOpen => ?_) inv.earlier inv.registered
  rw [← Option.some.inj (current.symm.trans isOpen)]
  refine ⟨loggedIn_resumed count, fun sub listed => .inl ((subscribed_resumed count sub).mpr ?_)⟩
  rw [List.take_of_length_le (List.getElem?_eq_none_iff.mp done)]
  exact listed

theorem connections_close : session.close.connections = session.connections :=
  List.append_nil _

theorem SessionInv.listen (inv : SessionInv session) {iterate : String → Option OnDemand.Node}
    {action : ListenerAction} (ran : session.listen iterate action = some next) :
    SessionInv next := by
  unfold PrivateSession.listen at ran
  split at ran
  · next point =>
      cases ran
      refine inv.wander (by rw [point]; rfl) ?_
      split <;> rfl
  · next point => exact inv.afterRead (by rw [point]; rfl) ran
  · next point =>
      cases ran
      refine inv.wander (by rw [point]; rfl) ?_
      split <;> rfl
  · next point =>
      split at ran
      · next free =>
          cases ran
          exact inv.lockTaken point (Option.isNone_iff_eq_none.mp free)
      · cases ran
  · next point =>
      cases ran
      exact inv.closed point
  · next point =>
      split at ran
      · cases ran
        exact inv.opened point
      · cases ran
        exact inv.unreachable point
  · next point =>
      cases ran
      exact inv.loginHanded point
  · next point =>
      split at ran
      · cases ran
        exact inv.accepted point
      · cases ran
        exact inv.refused point
  · next point =>
      cases ran
      exact inv.givenUp point
  · next point =>
      split at ran
      · next here =>
          cases ran
          exact inv.resubscribed point here
      · next done =>
          cases ran
          exact inv.released point done
  · cases ran

end Listener

/-! ## Every run keeps it -/

theorem loginPrivate_inv {first : PrivateSession C} {iterate : String → Option OnDemand.Node}
    {connects : Bool} {response : Option String}
    (loggedIn : loginPrivate iterate connects response = some first) : SessionInv first := by
  rw [loginPrivate] at loggedIn
  split at loggedIn
  · cases loggedIn
    have empty : ∀ sub, ¬ Subscribed [(loginHanded : ConnectionEvent C), .accepted] sub := by
      rintro sub ⟨thread, member⟩
      simp [loginHanded] at member
    refine
      { exclusive := fun thread => ?_
        current := (current_outside rfl).mpr fun trace isOpen => ?_
        earlier := fun trace member => nomatch member
        registered := fun trace member sub subscribed => ?_
        announced := fun sub announces => announces.elim fun _ none => none.elim }
    · cases thread <;> exact ⟨(nomatch ·), (nomatch ·)⟩
    · cases isOpen
      exact ⟨⟨[], rfl, fun event member => nomatch member⟩, fun sub listed => nomatch listed⟩
    · cases List.mem_singleton.mp member
      exact absurd subscribed (empty sub)
  · cases loggedIn

section Run
variable [DecidableEq C] {session next first : PrivateSession C}
  {iterate : String → Option OnDemand.Node} {connects : Bool} {response : Option String}
  {actions : List (SessionAction C)}

theorem SessionInv.step (inv : SessionInv session) {action : SessionAction C}
    (ran : session.step iterate action = some next) : SessionInv next := by
  cases action with
  | subscribe caller sub => exact inv.call rfl (fun _ => id) ran
  | request caller msg => exact inv.call rfl (by rintro _ ⟨⟩) ran
  | proceed caller => exact inv.proceed ran
  | listen action => exact inv.listen ran
  | stop =>
      cases ran
      exact ⟨inv.exclusive, inv.current, inv.earlier, inv.registered, inv.announced⟩

theorem SessionInv.run (loggedIn : loginPrivate iterate connects response = some first)
    (ran : Runs.run (PrivateSession.step iterate) first actions = some session) :
    SessionInv session :=
  Runs.run_induction _ SessionInv (fun _ _ _ inv stepped => inv.step stepped)
    (loginPrivate_inv loggedIn) ran

/-- On every connection the login is handed to `Send` first, and nothing else is
before the response to it was accepted; from then on no other login is. -/
theorem login_before_anything (loggedIn : loginPrivate iterate connects response = some first)
    (ran : Runs.run (PrivateSession.step iterate) first actions = some session)
    {trace : List (ConnectionEvent C)} (member : trace ∈ session.connections) :
    WellBegun trace :=
  (SessionInv.run loggedIn ran).wellBegun member

/-- Whenever the listener is not reconnecting, exactly the registered subscriptions
have been handed to `Send` on the open connection, but for those that a caller is
about to hand over. -/
theorem subscriptions_survive (loggedIn : loginPrivate iterate connects response = some first)
    (ran : Runs.run (PrivateSession.step iterate) first actions = some session)
    (free : session.subMutex ≠ some .listener) {trace : List (ConnectionEvent C)}
    (isOpen : session.connection = some trace) (sub : PrivateSub) :
    sub ∈ session.privateSubscriptions ↔ Subscribed trace sub ∨ session.Subscribing sub := by
  have inv := SessionInv.run loggedIn ran
  have outside : session.listener.inside = false := by
    rw [← Bool.not_eq_true]
    intro inside
    have listening : session.Inside .listener := inside
    exact free (inv.exclusive.owner listening)
  constructor
  · exact ((current_outside outside).mp inv.current trace isOpen).2 sub
  · rintro (subscribed | announces)
    · exact inv.registered trace
        (List.mem_append_right _ (Option.mem_toList.mpr isOpen)) sub subscribed
    · exact inv.announced sub announces

end Run

/-! ## Requests -/

section Requests
variable [DecidableEq C] (caller : C)

def requestBy : ConnectionEvent C → Option String
  | .handed (.caller other) (.op (.request msg)) => if other = caller then some msg else none
  | _ => none

def requestsHanded (session : PrivateSession C) : List String :=
  session.connections.flatten.filterMap (requestBy caller)

def requestsMade (actions : List (SessionAction C)) : List String :=
  actions.filterMap fun
    | .request other msg => if other = caller then some msg else none
    | _ => none

def unhanded : CallPoint → List String
  | .send (.request msg) => [msg]
  | .sending (.request msg) => [msg]
  | _ => []

def sendsRequest : CallPoint → Bool
  | .sending (.request _) => true
  | _ => false

/-- The caller hands a request to `Send` while there is no connection. -/
def drops (session : PrivateSession C) : SessionAction C → Bool
  | .proceed other =>
      other = caller ∧ session.connection.isNone ∧ sendsRequest (session.calls caller)
  | _ => false

section Accounts
variable {caller} {session next first : PrivateSession C}

theorem requestsHanded_send (thread : ClientThread C) (message : PrivateMessage) :
    (session.send thread message).requestsHanded caller = session.requestsHanded caller ++
      if session.connection.isSome then (requestBy caller (.handed thread message)).toList
      else [] := by
  rw [requestsHanded, requestsHanded, connections, connections, send]
  cases session.connection with
  | none => simp
  | some trace =>
      cases requested : requestBy caller (.handed thread message) <;> simp [requested]

theorem requestsHanded_close : session.close.requestsHanded caller = session.requestsHanded caller := by
  rw [requestsHanded, connections_close, requestsHanded]

theorem requestsHanded_accept : session.accept.requestsHanded caller = session.requestsHanded caller := by
  rw [requestsHanded, requestsHanded, connections, connections, accept]
  cases session.connection <;> simp [requestBy]

theorem requestsHanded_afterRead
    (quiet : ∀ message, (session.send .listener message).requestsHanded caller =
      session.requestsHanded caller) {pingPending written : Bool} {raw : Option String}
    (ran : session.afterRead pingPending written raw = some next) :
    next.requestsHanded caller = session.requestsHanded caller ∧ next.calls = session.calls := by
  cases raw with
  | none =>
      cases ran
      exact ⟨rfl, rfl⟩
  | some raw =>
      rw [PrivateSession.afterRead] at ran
      split_ifs at ran
      · cases ran
        exact ⟨rfl, rfl⟩
      · cases ran
        exact ⟨quiet .ping, rfl⟩
      · cases ran
        exact ⟨quiet .ping, rfl⟩
      · cases ran
        exact ⟨rfl, rfl⟩

theorem requestsHanded_listen (inv : SessionInv session) {iterate : String → Option OnDemand.Node}
    {action : ListenerAction} (ran : session.listen iterate action = some next) :
    next.requestsHanded caller = session.requestsHanded caller ∧ next.calls = session.calls := by
  have quiet : ∀ message, (session.send .listener message).requestsHanded caller =
      session.requestsHanded caller := by
    intro message
    rw [requestsHanded_send]
    cases message <;> simp [requestBy]
  have opens : session.listener = .connecting →
      session.open.requestsHanded caller = session.requestsHanded caller := by
    intro point
    have current := inv.current
    rw [Current, point] at current
    simp [requestsHanded, connections, PrivateSession.open, current]
  unfold PrivateSession.listen at ran
  split at ran
  · cases ran
    exact ⟨rfl, rfl⟩
  · exact requestsHanded_afterRead quiet ran
  · cases ran
    exact ⟨rfl, rfl⟩
  · split at ran
    · cases ran
      exact ⟨rfl, rfl⟩
    · cases ran
  · cases ran
    exact ⟨requestsHanded_close, rfl⟩
  · next point =>
      split at ran
      · cases ran
        exact ⟨opens point, rfl⟩
      · cases ran
        exact ⟨rfl, rfl⟩
  · cases ran
    exact ⟨quiet .login, rfl⟩
  · split at ran
    · cases ran
      have accepts : session.accept.requestsHanded caller = session.requestsHanded caller :=
        requestsHanded_accept
      exact ⟨accepts, rfl⟩
    · cases ran
      exact ⟨rfl, rfl⟩
  · cases ran
    exact ⟨requestsHanded_close, rfl⟩
  · split at ran
    · cases ran
      exact ⟨quiet _, rfl⟩
    · cases ran
      exact ⟨rfl, rfl⟩
  · cases ran

/-- What a step does to the requests of the caller: it begins at most one, or
hands the one that is begun to the connection, or to nobody. -/
inductive RequestStep (caller : C) (session next : PrivateSession C)
    (action : SessionAction C) : Prop where
  | begun (sent : next.requestsHanded caller = session.requestsHanded caller)
      (unhanded : unhanded (next.calls caller) =
        unhanded (session.calls caller) ++ requestsMade caller [action])
      (kept : drops caller session action = false)
  | handed (silent : requestsMade caller [action] = []) (done : unhanded (next.calls caller) = [])
      (sent : next.requestsHanded caller =
        session.requestsHanded caller ++ unhanded (session.calls caller))
      (kept : drops caller session action = false)
  | dropped (silent : requestsMade caller [action] = []) (done : unhanded (next.calls caller) = [])
      (sent : next.requestsHanded caller = session.requestsHanded caller)
      (one : (unhanded (session.calls caller)).length = 1)
      (lost : drops caller session action = true)

theorem requestStep_proceed_other {other : C} (apart : other ≠ caller)
    (ran : session.proceed other = some next) :
    RequestStep caller session next (.proceed other) := by
  have calls : ∀ (before : PrivateSession C) point,
      (before.setCall other point).calls caller = before.calls caller := by
    intro before point
    rw [calls_setCall, if_neg apart.symm]
  have quiet : ∀ op, (session.send (.caller other) (.op op)).requestsHanded caller =
      session.requestsHanded caller := by
    intro op
    rw [requestsHanded_send]
    cases op <;> simp [requestBy, apart]
  have kept : drops caller session (.proceed other) = false := by simp [drops, apart]
  unfold PrivateSession.proceed at ran
  split at ran
  · cases ran
  · split at ran
    · cases ran
      exact .begun rfl (by rw [calls]; exact (List.append_nil _).symm) kept
    · cases ran
  · cases ran
    exact .begun rfl (by rw [calls]; exact (List.append_nil _).symm) kept
  · split at ran
    · cases ran
      exact .begun rfl (by rw [calls]; exact (List.append_nil _).symm) kept
    · cases ran
  · cases ran
    exact .begun (quiet _) (by rw [calls]; exact (List.append_nil _).symm) kept

theorem requestStep_proceed (ran : session.proceed caller = some next) :
    RequestStep caller session next (.proceed caller) := by
  have now : ∀ (before : PrivateSession C) point,
      (before.setCall caller point).calls caller = point := by
    intro before point
    rw [calls_setCall, if_pos rfl]
  unfold PrivateSession.proceed at ran
  split at ran
  · cases ran
  · next calls =>
      split at ran
      · cases ran
        exact .begun rfl (by rw [now, calls]; rfl) (by simp [drops, calls, sendsRequest])
      · cases ran
  · next calls =>
      cases ran
      exact .begun rfl (by rw [now, calls]; rfl) (by simp [drops, calls, sendsRequest])
  · next op calls =>
      split at ran
      · cases ran
        exact .begun rfl (by rw [now, calls]; cases op <;> rfl)
          (by simp [drops, calls, sendsRequest])
      · cases ran
  · next op calls =>
      cases ran
      have sent : (session.send (.caller caller) (.op op)).requestsHanded caller = _ :=
        requestsHanded_send ..
      cases op with
      | subscribe sub =>
          refine .begun (sent.trans ?_) (by rw [now, calls]; rfl)
            (by simp [drops, calls, sendsRequest])
          simp [requestBy]
      | request msg =>
          cases isOpen : session.connection with
          | none =>
              refine .dropped rfl (by rw [now]; rfl) (sent.trans ?_) (by rw [calls]; rfl)
                (by simp [drops, calls, sendsRequest, isOpen])
              rw [isOpen]
              exact List.append_nil _
          | some trace =>
              refine .handed rfl (by rw [now]; rfl) (sent.trans ?_)
                (by simp [drops, isOpen])
              simp [isOpen, calls, requestBy, unhanded]

theorem requestStep_call {other : C} {point : CallPoint} {action : SessionAction C}
    (ran : session.call other point = some next)
    (begins : requestsMade caller [action] = if other = caller then unhanded point else [])
    (kept : drops caller session action = false) : RequestStep caller session next action := by
  rw [call] at ran
  split at ran
  · next idle =>
      cases ran
      refine .begun rfl ?_ kept
      rw [calls_setCall, begins]
      by_cases own : other = caller
      · subst own
        rw [if_pos rfl, if_pos rfl, idle]
        rfl
      · rw [if_neg (Ne.symm own), if_neg own, List.append_nil]
  · cases ran

theorem requestStep (inv : SessionInv session) {iterate : String → Option OnDemand.Node}
    {action : SessionAction C} (ran : session.step iterate action = some next) :
    RequestStep caller session next action := by
  cases action with
  | subscribe other sub =>
      exact requestStep_call ran (ite_self []).symm rfl
  | request other msg =>
      refine requestStep_call ran ?_ rfl
      by_cases own : other = caller <;> simp [requestsMade, unhanded, own]
  | proceed other =>
      by_cases own : other = caller
      · subst own
        exact requestStep_proceed ran
      · exact requestStep_proceed_other own ran
  | listen action =>
      obtain ⟨sent, calls⟩ : next.requestsHanded caller = session.requestsHanded caller ∧
          next.calls = session.calls := requestsHanded_listen inv ran
      exact .begun sent (by rw [calls]; exact (List.append_nil _).symm) rfl
  | stop =>
      cases ran
      exact .begun rfl (List.append_nil _).symm rfl

/-- The requests of the caller so far and to come, with `lost` of them dropped. -/
structure Accounted (caller : C) (made : List String) (lost : ℕ) (session : PrivateSession C)
    (rest : List (SessionAction C)) : Prop where
  order : (session.requestsHanded caller ++ unhanded (session.calls caller) ++
    requestsMade caller rest).Sublist made
  count : (session.requestsHanded caller).length + lost + (unhanded (session.calls caller)).length +
    (requestsMade caller rest).length = made.length

theorem requestsMade_cons (action : SessionAction C) (rest : List (SessionAction C)) :
    requestsMade caller (action :: rest) =
      requestsMade caller [action] ++ requestsMade caller rest := by
  rw [requestsMade, requestsMade, requestsMade, ← List.filterMap_append]
  rfl

theorem Accounted.step {made : List String} {lost : ℕ} {action : SessionAction C}
    {rest : List (SessionAction C)}
    (accounted : Accounted caller made lost session (action :: rest))
    (stepped : RequestStep caller session next action) :
    Accounted caller made
      (lost + if drops caller session action = true then 1 else 0) next rest := by
  obtain ⟨order, count⟩ := accounted
  rw [requestsMade_cons] at order count
  rw [List.length_append] at count
  cases stepped with
  | begun sent unhanded kept =>
      rw [kept]
      refine ⟨?_, ?_⟩
      · rw [sent, unhanded]
        simpa only [List.append_assoc] using order
      · rw [sent, unhanded, List.length_append, if_neg (by decide)]
        omega
  | handed silent done sent kept =>
      rw [silent] at order count
      rw [kept]
      refine ⟨?_, ?_⟩
      · rw [done, sent, List.append_nil]
        exact order
      · rw [done, sent, List.length_append, if_neg (by decide)]
        simp only [List.length_nil] at count ⊢
        omega
  | dropped silent done sent one lost =>
      rw [silent] at order count
      rw [lost]
      refine ⟨?_, ?_⟩
      · rw [done, sent, List.append_nil]
        refine List.Sublist.trans ?_ order
        exact (List.sublist_append_left _ _).append_right _
      · rw [done, sent, if_pos rfl]
        simp only [List.length_nil] at count ⊢
        omega

end Accounts

/-- The requests of a caller are handed over in the order of its calls and each at
most once, over all connections together; one is missing only by being handed to
`Send` while there is no connection, and no other is. -/
theorem requests_once_in_order {session first : PrivateSession C}
    {iterate : String → Option OnDemand.Node} {connects : Bool} {response : Option String}
    {actions : List (SessionAction C)}
    (loggedIn : loginPrivate iterate connects response = some first)
    (ran : Runs.run (PrivateSession.step iterate) first actions = some session) :
    (session.requestsHanded caller).Sublist (requestsMade caller actions) ∧
      (session.requestsHanded caller).length +
          Runs.count (PrivateSession.step iterate)
            (fun session action => drops caller session action = true) first actions +
          (unhanded (session.calls caller)).length = (requestsMade caller actions).length := by
  have started : Accounted caller (requestsMade caller actions) 0 first actions := by
    rw [loginPrivate] at loggedIn
    split at loggedIn
    · cases loggedIn
      exact ⟨List.Sublist.refl _, Nat.zero_add _⟩
    · cases loggedIn
  have finished := Runs.total_induction (PrivateSession.step iterate)
    (fun session action => if drops caller session action = true then 1 else 0)
    (fun lost state rest => SessionInv state ∧
      Accounted caller (requestsMade caller actions) lost state rest)
    (fun _ _ _ _ _ held stepped =>
      ⟨held.1.step stepped, held.2.step (requestStep held.1 stepped)⟩)
    ⟨loginPrivate_inv loggedIn, started⟩ ran
  obtain ⟨-, order, count⟩ := finished
  refine ⟨?_, count⟩
  refine List.Sublist.trans ?_ order
  rw [List.append_assoc]
  exact List.sublist_append_left _ _

end Requests

/-! ## A connection lost between the two locks of a subscription -/

def spotOrders : PrivateSub := { channel := okxChannelOrders, instType := "SPOT" }

def readLogin (raw : String) : Option OnDemand.Node :=
  if raw = "in" then some (.object [("event", .text "login"), ("code", .text "0")]) else none

/-- The first attempt to reconnect fails, and a request is lost before the second. -/
def lostOnce : List (SessionAction Bool) :=
  [.subscribe false spotOrders, .proceed false, .proceed false, .listen .next,
    .listen (.read none true), .listen .next, .listen .next, .listen .next, .listen (.connect false),
    .request true "sell", .proceed true, .proceed true, .listen .next, .listen (.read none true),
    .listen .next, .listen .next, .listen .next, .listen (.connect true), .listen .next,
    .listen (.response (some "in")), .listen .next, .listen .next, .proceed false, .proceed false,
    .request true "buy", .proceed true, .proceed true]

def handedTwice : List (ConnectionEvent Bool) :=
  [loginHanded, .accepted, .handed .listener (.op (.subscribe spotOrders)),
    .handed (.caller false) (.op (.subscribe spotOrders)),
    .handed (.caller true) (.op (.request "buy"))]

theorem lostOnce_run : ∃ first final : PrivateSession Bool,
    loginPrivate readLogin true (some "in") = some first ∧
      Runs.run (PrivateSession.step readLogin) first lostOnce = some final ∧
      final.connections = [[loginHanded, .accepted], handedTwice] ∧
      final.connection = some handedTwice ∧ final.subMutex = none :=
  ⟨_, _, rfl, rfl, rfl, rfl, rfl⟩

theorem login_before_anything_lostOnce : WellBegun handedTwice := by
  obtain ⟨first, final, loggedIn, ran, all, -, -⟩ := lostOnce_run
  exact login_before_anything loggedIn ran (by rw [all]; exact .tail _ (.head _))

theorem subscriptions_survive_lostOnce : ∃ final : PrivateSession Bool,
    final.connection = some handedTwice ∧ ∀ sub, sub ∈ final.privateSubscriptions ↔
      Subscribed handedTwice sub ∨ final.Subscribing sub := by
  obtain ⟨first, final, loggedIn, ran, -, isOpen, free⟩ := lostOnce_run
  exact ⟨final, isOpen,
    subscriptions_survive loggedIn ran (by rw [free]; exact fun taken => nomatch taken) isOpen⟩

/-- The request between the two attempts to reconnect is missing. -/
theorem requests_once_in_order_lostOnce : ∃ final : PrivateSession Bool,
    final.connections = [[loginHanded, .accepted], handedTwice] ∧
      final.requestsHanded true = ["buy"] ∧
      (final.requestsHanded true).Sublist ["sell", "buy"] := by
  obtain ⟨first, final, loggedIn, ran, all, -, -⟩ := lostOnce_run
  have handed : final.requestsHanded true = ["buy"] := by
    rw [requestsHanded, all]
    rfl
  exact ⟨final, all, handed, (requests_once_in_order true loggedIn ran).1⟩

end PrivateSession

end CryptoTrading
