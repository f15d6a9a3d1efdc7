import CryptoTrading.TradingEngine.OrderStep
import CryptoTrading.TradingEngine.OrderHistory
import Mathlib.Algebra.Order.BigOperators.Group.Multiset
import Mathlib.Logic.Relation

/-! # The reservation ledger

Any number of spot LIMIT orders of this process, emitted, dispatched and
reported on in any interleaving.  The reserved amount of a currency is at every
moment the sum over the orders that have not been heard of; the proof carries
along that the frozen amount covers what the live orders have locked. -/
set_option autoImplicit false

namespace CryptoTrading

open TradingEngine

/-! ## Runs -/

/-- An order that has left the signal ring. -/
structure Sent where
  order : SpotLimit
  clientOrderId : String
  progress : Progress
  deriving DecidableEq

def Sent.orderId? (sent : Sent) : Option String :=
  match sent.progress with
  | .silent => none
  | .live orderId _ => some orderId
  | .ended orderId => if orderId = "" then none else some orderId

/-- The system with the orders waiting in the ring and those sent. -/
structure World where
  system : TradingSystem
  queue : List SpotLimit
  sent : Multiset Sent

structure ValidOrder (registry : InstrumentRegistry) (order : SpotLimit) : Prop where
  known : ∃ info, registry.get order.instrument = some info
  fits : FitsBuffer order.instrument
  price : 0 < order.price
  volume : 0 < order.volume

/-- An id that neither the starting engine nor another order of the run has. -/
structure Fresh (start : TradingEngine) (world : World) (orderId : String) : Prop where
  nonempty : orderId ≠ ""
  notLive : orderId ∉ start.liveOrderInstruments
  untracked : start.positionManager.spotOrderFillTracker.getD orderId 0 = 0
  unused : ∀ sent ∈ world.sent, sent.orderId? ≠ some orderId

/-- One emit call, one turn of the dispatcher or one `HandleOrderUpdate`. -/
inductive Step (registry : InstrumentRegistry) (start : TradingEngine) : World → World → Prop where
  | emit (world : World) (order : SpotLimit) (after : TradingSystem)
      (valid : ValidOrder registry order)
      (room : world.system.signalRing.length < signalRingCapacity)
      (ran : order.emit registry world.system = some after) :
      Step registry start world { world with system := after, queue := world.queue ++ [order] }
  | idle (world : World) (clientOrderId opId : String) (after : TradingSystem)
      (empty : world.queue = [])
      (ran : world.system.dispatch registry clientOrderId opId = some after) :
      Step registry start world { world with system := after }
  | dispatch (world : World) (order : SpotLimit) (rest : List SpotLimit)
      (clientOrderId opId : String) (after : TradingSystem) (head : world.queue = order :: rest)
      (named : clientOrderId ≠ "") (own : ∀ sent ∈ world.sent, sent.clientOrderId ≠ clientOrderId)
      (ran : world.system.dispatch registry clientOrderId opId = some after) :
      Step registry start world
        { system := after, queue := rest
          sent := { order := order, clientOrderId := clientOrderId, progress := .silent } ::ₘ
            world.sent }
  | report (world : World) (sent : Sent) (others : Multiset Sent) (report : ExecutionReport)
      (info : InstrumentInfo) (after : TradingEngine) (member : world.sent = sent ::ₘ others)
      (known : registry.get sent.order.instrument = some info)
      (next : NextReport info (Fresh start world) sent.order sent.progress report)
      (ran : world.system.engine.handleOrderUpdate registry report sent.clientOrderId =
        some after) :
      Step registry start world
        { world with
          system := { world.system with engine := after }
          sent := { sent with progress := Progress.next report } ::ₘ others }

/-- Nothing emitted, nothing reserved, nothing frozen below zero. -/
structure Start (world : World) : Prop where
  queue : world.queue = []
  sent : world.sent = 0
  ring : world.system.signalRing = []
  reserved : ∀ currency, world.system.positions.reserved currency = 0
  frozen : ∀ currency, 0 ≤ (world.system.positions.spot currency).frozen
  noEmptyId : "" ∉ world.system.engine.liveOrderInstruments

/-! ## The ledger -/

def reservedFor (registry : InstrumentRegistry) (currency : String) (order : SpotLimit)
    (progress : Progress) : ℚ :=
  match registry.get order.instrument with
  | none => 0
  | some info => if currency = order.currency then order.outstanding info progress else 0

def frozenFor (registry : InstrumentRegistry) (currency : String) (order : SpotLimit)
    (progress : Progress) : ℚ :=
  match registry.get order.instrument with
  | none => 0
  | some info => if currency = order.currency then order.held info progress else 0

/-- The reserved amounts of the orders without a report: those still in the ring
and those sent. -/
def World.outstanding (registry : InstrumentRegistry) (world : World) (currency : String) : ℚ :=
  (world.queue.map fun order => reservedFor registry currency order .silent).sum +
    (world.sent.map fun sent => reservedFor registry currency sent.order sent.progress).sum

def World.locked (registry : InstrumentRegistry) (world : World) (currency : String) : ℚ :=
  (world.sent.map fun sent => frozenFor registry currency sent.order sent.progress).sum

def SentKnown (engine : TradingEngine) (sent : Sent) : Prop :=
  match sent.progress with
  | .silent => HoldsLock sent.order.side sent.order.tradeMode →
      sent.clientOrderId ∈ engine.clientOrderIdToReservation
  | .live orderId filled => orderId ≠ "" ∧ filled ≤ sent.order.volume ∧
      (HoldsLock sent.order.side sent.order.tradeMode →
        orderId ∈ engine.liveOrderInstruments ∧
          engine.positionManager.spotOrderFillTracker.getD orderId 0 = filled)
  | .ended _ => True

structure LedgerInv (registry : InstrumentRegistry) (start : TradingEngine) (world : World) :
    Prop where
  ring : world.system.signalRing = world.queue.map SpotLimit.signal
  queued : ∀ order ∈ world.queue, ValidOrder registry order
  valid : ∀ sent ∈ world.sent, ValidOrder registry sent.order
  reserved : ∀ currency, world.system.positions.reserved currency =
    world.outstanding registry currency
  frozen : ∀ currency, world.locked registry currency ≤
    (world.system.positions.spot currency).frozen
  clients : (world.sent.map Sent.clientOrderId).Nodup
  named : ∀ sent ∈ world.sent, sent.clientOrderId ≠ ""
  ids : ∀ first ∈ world.sent, ∀ second ∈ world.sent, ∀ orderId,
    first.orderId? = some orderId → second.orderId? = some orderId →
      first.clientOrderId = second.clientOrderId
  known : ∀ sent ∈ world.sent, SentKnown world.system.engine sent
  liveIds : ∀ orderId ∈ world.system.engine.liveOrderInstruments,
    orderId ∈ start.liveOrderInstruments ∨ ∃ sent ∈ world.sent, sent.orderId? = some orderId
  trackedIds : ∀ orderId, orderId ≠ "" →
    world.system.positions.spotOrderFillTracker.getD orderId 0 ≠ 0 →
      start.positionManager.spotOrderFillTracker.getD orderId 0 ≠ 0 ∨
        ∃ sent ∈ world.sent, sent.orderId? = some orderId
  noEmptyId : "" ∉ world.system.engine.liveOrderInstruments

section Ledger
variable {registry : InstrumentRegistry} {start : TradingEngine} {world : World}

theorem Start.inv (begun : Start world) : LedgerInv registry world.system.engine world where
  ring := by rw [begun.ring, begun.queue]; rfl
  queued := by simp [begun.queue]
  valid := by simp [begun.sent]
  reserved := by simp [begun.reserved, World.outstanding, begun.queue, begun.sent]
  frozen := by simpa [World.locked, begun.sent] using begun.frozen
  clients := by simp [begun.sent]
  named := by simp [begun.sent]
  ids := by simp [begun.sent]
  known := by simp [begun.sent]
  liveIds := fun _ live => Or.inl live
  trackedIds := fun _ _ tracked => Or.inl tracked
  noEmptyId := begun.noEmptyId

/-! ## Amounts are not negative -/

theorem reservedFor_nonneg {order : SpotLimit} (valid : ValidOrder registry order)
    (currency : String) (progress : Progress) :
    0 ≤ reservedFor registry currency order progress := by
  obtain ⟨info, known⟩ := valid.known
  have value : 0 ≤ order.value info :=
    lockValue_nonneg info order.side valid.price.le valid.volume.le
  rw [reservedFor, known]
  dsimp only
  split
  · cases progress with
    | silent =>
        rw [SpotLimit.outstanding, SpotLimit.reserves]
        split
        · exact value
        · exact le_refl 0
    | live orderId filled => exact le_refl 0
    | ended orderId => exact le_refl 0
  · exact le_refl 0

theorem frozenFor_nonneg {engine : TradingEngine} {sent : Sent}
    (valid : ValidOrder registry sent.order) (known : SentKnown engine sent) (currency : String) :
    0 ≤ frozenFor registry currency sent.order sent.progress := by
  obtain ⟨info, found⟩ := valid.known
  rw [frozenFor, found]
  dsimp only
  split
  · cases stage : sent.progress with
    | silent => exact le_refl 0
    | ended orderId => exact le_refl 0
    | live orderId filled =>
        rw [SentKnown, stage] at known
        rw [SpotLimit.held]
        split
        · exact remainder_nonneg info valid.price known.2.1
        · exact le_refl 0
  · exact le_refl 0

theorem LedgerInv.reservedFor_le (inv : LedgerInv registry start world) {sent : Sent}
    (member : sent ∈ world.sent) (currency : String) :
    reservedFor registry currency sent.order sent.progress ≤
      world.system.positions.reserved currency := by
  rw [inv.reserved, World.outstanding]
  have waiting : 0 ≤ (world.queue.map fun order =>
      reservedFor registry currency order .silent).sum := by
    apply List.sum_nonneg
    intro amount listed
    obtain ⟨order, queued, rfl⟩ := List.mem_map.mp listed
    exact reservedFor_nonneg (inv.queued order queued) currency .silent
  have single := Multiset.single_le_sum (s := world.sent.map fun sent =>
      reservedFor registry currency sent.order sent.progress) (fun amount listed => by
    obtain ⟨other, present, rfl⟩ := Multiset.mem_map.mp listed
    exact reservedFor_nonneg (inv.valid other present) currency other.progress) _
    (Multiset.mem_map_of_mem _ member)
  linarith

theorem LedgerInv.frozenFor_le (inv : LedgerInv registry start world) {sent : Sent}
    (member : sent ∈ world.sent) (currency : String) :
    frozenFor registry currency sent.order sent.progress ≤
      (world.system.positions.spot currency).frozen := by
  have single := Multiset.single_le_sum (s := world.sent.map fun sent =>
      frozenFor registry currency sent.order sent.progress) (fun amount listed => by
    obtain ⟨other, present, rfl⟩ := Multiset.mem_map.mp listed
    exact frozenFor_nonneg (inv.valid other present) (inv.known other present) currency) _
    (Multiset.mem_map_of_mem _ member)
  exact single.trans (inv.frozen currency)

theorem LedgerInv.frozen_nonneg (inv : LedgerInv registry start world) (currency : String) :
    0 ≤ (world.system.positions.spot currency).frozen := by
  refine le_trans ?_ (inv.frozen currency)
  rw [World.locked]
  apply Multiset.sum_nonneg
  intro amount listed
  obtain ⟨other, present, rfl⟩ := Multiset.mem_map.mp listed
  exact frozenFor_nonneg (inv.valid other present) (inv.known other present) currency

/-! ## Emitting and dispatching keep the ledger -/

theorem SentKnown.mono {before after : TradingEngine} {sent : Sent}
    (known : SentKnown before sent)
    (live : after.liveOrderInstruments = before.liveOrderInstruments)
    (tracker : after.positionManager.spotOrderFillTracker =
      before.positionManager.spotOrderFillTracker)
    (kept : ∀ clientOrderId ∈ before.clientOrderIdToReservation,
      clientOrderId ∈ after.clientOrderIdToReservation) : SentKnown after sent := by
  cases stage : sent.progress with
  | silent =>
      rw [SentKnown, stage] at known ⊢
      exact fun holds => kept _ (known holds)
  | live orderId filled =>
      rw [SentKnown, stage] at known ⊢
      rw [live, tracker]
      exact known
  | ended orderId =>
      rw [SentKnown, stage]
      trivial

theorem LedgerInv.emit (inv : LedgerInv registry start world) {order : SpotLimit}
    {after : TradingSystem} (valid : ValidOrder registry order)
    (room : world.system.signalRing.length < signalRingCapacity)
    (ran : order.emit registry world.system = some after) :
    LedgerInv registry start { world with system := after, queue := world.queue ++ [order] } := by
  obtain ⟨info, known⟩ := valid.known
  obtain ⟨same, ranSame, effect⟩ := emit_effect known world.system
  obtain rfl := Option.some.inj (ranSame.symm.trans ran)
  refine
    { ring := ?_, queued := fun other member => ?_, valid := inv.valid
      reserved := fun currency => ?_
      frozen := fun currency => ?_, clients := inv.clients, named := inv.named, ids := inv.ids
      known := fun sent member => ?_, liveIds := fun orderId live => ?_
      trackedIds := fun orderId nonempty tracked => ?_, noEmptyId := ?_ }
  · rw [effect.ring room, inv.ring, List.map_append, List.map_cons, List.map_nil]
  · rcases List.mem_append.mp member with earlier | isNew
    · exact inv.queued other earlier
    · rw [List.mem_singleton.mp isNew]
      exact valid
  · have added : reservedFor registry currency order .silent =
        if currency = order.currency then order.reserves info else 0 := by
      rw [reservedFor, known]
      rfl
    rw [effect.reserved, inv.reserved, ← added, World.outstanding, World.outstanding,
      List.map_append, List.sum_append, List.map_cons, List.map_nil, List.sum_singleton]
    ring
  · rw [effect.spot]
    exact inv.frozen currency
  · exact (inv.known sent member).mono effect.live effect.tracker fun _ present => by
      rw [effect.reservations]
      exact present
  · rw [effect.live] at live
    exact inv.liveIds orderId live
  · rw [effect.tracker] at tracked
    exact inv.trackedIds orderId nonempty tracked
  · rw [effect.live]
    exact inv.noEmptyId

theorem LedgerInv.idle (inv : LedgerInv registry start world) {clientOrderId opId : String}
    {after : TradingSystem} (empty : world.queue = [])
    (ran : world.system.dispatch registry clientOrderId opId = some after) :
    LedgerInv registry start { world with system := after } := by
  have ring : world.system.signalRing = [] := by
    rw [inv.ring, empty]
    rfl
  rw [TradingSystem.dispatch, ring] at ran
  rw [← Option.some.inj ran]
  exact inv

theorem LedgerInv.dispatch (inv : LedgerInv registry start world) {order : SpotLimit}
    {rest : List SpotLimit} {clientOrderId opId : String} {after : TradingSystem}
    (head : world.queue = order :: rest) (named : clientOrderId ≠ "")
    (own : ∀ sent ∈ world.sent, sent.clientOrderId ≠ clientOrderId)
    (ran : world.system.dispatch registry clientOrderId opId = some after) :
    LedgerInv registry start
      { system := after, queue := rest
        sent := { order := order, clientOrderId := clientOrderId, progress := .silent } ::ₘ
          world.sent } := by
  have valid : ValidOrder registry order :=
    inv.queued order (by rw [head]; exact List.mem_cons_self)
  obtain ⟨info, known⟩ := valid.known
  have ring : world.system.signalRing = order.signal :: rest.map SpotLimit.signal := by
    rw [inv.ring, head, List.map_cons]
  obtain ⟨same, ranSame, effect, ringAfter⟩ :=
    dispatch_effect known valid.fits ring clientOrderId opId
  obtain rfl := Option.some.inj (ranSame.symm.trans ran)
  have silentId : ∀ {sent : Sent} {orderId : String},
      sent.progress = .silent → sent.orderId? = some orderId → False := by
    intro sent orderId stage hasId
    rw [Sent.orderId?, stage] at hasId
    cases hasId
  refine
    { ring := ringAfter, queued := fun other member => ?_, valid := fun sent member => ?_
      reserved := fun currency => ?_, frozen := fun currency => ?_, clients := ?_
      named := fun sent member => ?_, ids := fun first isFirst second isSecond orderId => ?_
      known := fun sent member => ?_, liveIds := fun orderId live => ?_
      trackedIds := fun orderId nonempty tracked => ?_, noEmptyId := ?_ }
  · exact inv.queued other (by rw [head]; exact List.mem_cons_of_mem _ member)
  · rcases Multiset.mem_cons.mp member with rfl | earlier
    · exact valid
    · exact inv.valid sent earlier
  · rw [effect.positions, inv.reserved, World.outstanding, World.outstanding, head, List.map_cons,
      List.sum_cons, Multiset.map_cons, Multiset.sum_cons]
    ring
  · have nothing : frozenFor registry currency order .silent = 0 := by
      rw [frozenFor, known]
      simp only [SpotLimit.held, ite_self]
    rw [effect.positions, World.locked, Multiset.map_cons, Multiset.sum_cons, nothing, zero_add]
    exact inv.frozen currency
  · rw [Multiset.map_cons, Multiset.nodup_cons]
    refine ⟨fun listed => ?_, inv.clients⟩
    obtain ⟨sent, member, same⟩ := Multiset.mem_map.mp listed
    exact own sent member same
  · rcases Multiset.mem_cons.mp member with rfl | earlier
    · exact named
    · exact inv.named sent earlier
  · intro firstId secondId
    rcases Multiset.mem_cons.mp isFirst with rfl | firstEarlier
    · exact (silentId rfl firstId).elim
    · rcases Multiset.mem_cons.mp isSecond with rfl | secondEarlier
      · exact (silentId rfl secondId).elim
      · exact inv.ids first firstEarlier second secondEarlier orderId firstId secondId
  · rcases Multiset.mem_cons.mp member with rfl | earlier
    · intro holds
      refine (effect.reservations clientOrderId).mpr (Or.inr ⟨rfl, ?_⟩)
      rw [SpotLimit.reserves, if_pos holds]
      exact lockValue_pos info order.side valid.price valid.volume
    · refine (inv.known sent earlier).mono effect.live ?_ fun key present =>
        (effect.reservations key).mpr (Or.inl present)
      exact congrArg PositionManager.spotOrderFillTracker effect.positions
  · rw [effect.live] at live
    rcases inv.liveIds orderId live with before | ⟨sent, member, hasId⟩
    · exact Or.inl before
    · exact Or.inr ⟨sent, Multiset.mem_cons_of_mem member, hasId⟩
  · rw [effect.positions] at tracked
    rcases inv.trackedIds orderId nonempty tracked with before | ⟨sent, member, hasId⟩
    · exact Or.inl before
    · exact Or.inr ⟨sent, Multiset.mem_cons_of_mem member, hasId⟩
  · rw [effect.live]
    exact inv.noEmptyId

/-! ## A report keeps the ledger -/

section Report
variable {sent : Sent} {others : Multiset Sent} {report : ExecutionReport} {info : InstrumentInfo}

theorem LedgerInv.clientsApart (inv : LedgerInv registry start world)
    (member : world.sent = sent ::ₘ others) :
    ∀ other ∈ others, other.clientOrderId ≠ sent.clientOrderId := by
  have distinct := inv.clients
  rw [member, Multiset.map_cons, Multiset.nodup_cons] at distinct
  intro other present same
  exact distinct.1 (Multiset.mem_map.mpr ⟨other, present, same⟩)

/-- Only a refused request reports under the empty id. -/
theorem LedgerInv.refused_of_empty (inv : LedgerInv registry start world)
    (member : world.sent = sent ::ₘ others)
    (next : NextReport info (Fresh start world) sent.order sent.progress report)
    (empty : report.orderId = "") : report.status = .rejected := by
  have known := inv.known sent (by rw [member]; exact Multiset.mem_cons_self _ _)
  have stage := next.stage
  cases progress : sent.progress with
  | silent =>
      rw [progress] at stage
      exact stage.elim (fun fresh => absurd empty fresh.nonempty) And.right
  | live orderId filled =>
      rw [progress] at stage
      rw [SentKnown, progress] at known
      exact absurd (stage.1.symm.trans empty) known.1
  | ended orderId =>
      rw [progress] at stage
      exact stage.elim

theorem LedgerInv.idsApart (inv : LedgerInv registry start world)
    (member : world.sent = sent ::ₘ others)
    (next : NextReport info (Fresh start world) sent.order sent.progress report)
    (nonempty : report.orderId ≠ "") : ∀ other ∈ others, other.orderId? ≠ some report.orderId := by
  intro other present hasId
  have otherMember : other ∈ world.sent := by
    rw [member]
    exact Multiset.mem_cons_of_mem present
  have stage := next.stage
  cases progress : sent.progress with
  | silent =>
      rw [progress] at stage
      rcases stage with fresh | ⟨empty, _⟩
      · exact fresh.unused other otherMember hasId
      · exact nonempty empty
  | live orderId filled =>
      rw [progress] at stage
      have sentId : sent.orderId? = some report.orderId := by
        rw [Sent.orderId?, progress, stage.1]
      exact inv.clientsApart member other present (inv.ids other otherMember sent
        (by rw [member]; exact Multiset.mem_cons_self _ _) report.orderId hasId sentId)
  | ended orderId =>
      rw [progress] at stage
      exact stage.elim

theorem orderId_next (nonempty : report.orderId ≠ "") :
    ({ sent with progress := Progress.next report } : Sent).orderId? = some report.orderId := by
  rw [Sent.orderId?, Progress.next]
  by_cases terminal : isTerminal report.status = true
  · rw [if_pos terminal]
    exact if_neg nonempty
  · rw [if_neg terminal]

theorem orderId_next_some {orderId : String} (rejected : report.orderId = "" →
    report.status = .rejected)
    (hasId : ({ sent with progress := Progress.next report } : Sent).orderId? = some orderId) :
    orderId = report.orderId ∧ report.orderId ≠ "" := by
  by_cases empty : report.orderId = ""
  · rw [Sent.orderId?, Progress.next, rejected empty] at hasId
    simp [isTerminal, empty] at hasId
  · rw [orderId_next empty] at hasId
    exact ⟨(Option.some.inj hasId).symm, empty⟩

theorem LedgerInv.stageKnown (inv : LedgerInv registry start world)
    (member : world.sent = sent ::ₘ others)
    (known : registry.get sent.order.instrument = some info)
    (next : NextReport info (Fresh start world) sent.order sent.progress report)
    (holds : HoldsLock sent.order.side sent.order.tradeMode) :
    StageKnown info sent.order world.system.engine sent.clientOrderId report sent.progress := by
  have present : sent ∈ world.sent := by
    rw [member]
    exact Multiset.mem_cons_self _ _
  have knows := inv.known sent present
  have stage := next.stage
  cases progress : sent.progress with
  | silent =>
      rw [progress] at stage
      rw [SentKnown, progress] at knows
      refine ⟨knows holds, ?_, fun notRejected => ?_, ?_, inv.frozen_nonneg _⟩
      · rcases stage with fresh | ⟨empty, _⟩
        · intro live
          rcases inv.liveIds report.orderId live with before | ⟨other, otherMember, hasId⟩
          · exact fresh.notLive before
          · exact fresh.unused other otherMember hasId
        · rw [empty]
          exact inv.noEmptyId
      · rcases stage with fresh | ⟨_, rejected⟩
        · by_contra tracked
          rcases inv.trackedIds report.orderId fresh.nonempty tracked with
            before | ⟨other, otherMember, hasId⟩
          · exact before fresh.untracked
          · exact fresh.unused other otherMember hasId
        · exact absurd rejected notRejected
      · have covered := inv.reservedFor_le present sent.order.currency
        rw [reservedFor, known, progress] at covered
        simp only [if_true, SpotLimit.outstanding, SpotLimit.reserves, if_pos holds] at covered
        exact covered
  | live orderId filled =>
      rw [SentKnown, progress] at knows
      obtain ⟨live, tracked⟩ := knows.2.2 holds
      refine ⟨live, tracked, ?_⟩
      have covered := inv.frozenFor_le present sent.order.currency
      rw [frozenFor, known, progress] at covered
      simp only [if_true, SpotLimit.held, if_pos holds] at covered
      exact covered
  | ended orderId => trivial

theorem sentKnown_next (valid : ValidOrder registry sent.order)
    (next : NextReport info (Fresh start world) sent.order sent.progress report)
    (rejected : report.orderId = "" → report.status = .rejected) {before after : TradingEngine}
    (effect : OrderEffect info sent.order sent.progress report before after) :
    SentKnown after { sent with progress := Progress.next report } := by
  by_cases terminal : isTerminal report.status = true
  · simp only [SentKnown, Progress.next, terminal, if_true]
  · have goesOn := Bool.eq_false_iff.mpr terminal
    simp only [SentKnown, Progress.next, goesOn, Bool.false_eq_true, if_false]
    refine ⟨fun empty => ?_, ?_, fun holds => ⟨effect.live holds goesOn, ?_⟩⟩
    · rw [rejected empty] at terminal
      exact terminal rfl
    · split
      · exact valid.volume.le
      · exact next.within
    · refine effect.tracker holds _ ?_
      rw [Progress.next, goesOn, if_neg Bool.false_ne_true]

/-- The report of one order leaves what the engine knows of the others. -/
theorem SentKnown.frame {before after : TradingEngine} {other : Sent}
    {orderId clientOrderId : String}
    (known : SentKnown before other) (frame : OrderFrame before after orderId clientOrderId)
    (apart : other.clientOrderId ≠ clientOrderId)
    (idsApart : orderId ≠ "" → other.orderId? ≠ some orderId) : SentKnown after other := by
  cases progress : other.progress with
  | silent =>
      rw [SentKnown, progress] at known ⊢
      exact fun holds => (frame.reservations _ apart).mpr (known holds)
  | live otherId filled =>
      rw [SentKnown, progress] at known ⊢
      refine ⟨known.1, known.2.1, fun holds => ?_⟩
      have different : otherId ≠ orderId := by
        rintro rfl
        exact idsApart known.1 (by rw [Sent.orderId?, progress])
      rw [frame.live _ different, frame.tracker _ different]
      exact known.2.2 holds
  | ended otherId =>
      rw [SentKnown, progress]
      trivial

theorem LedgerInv.handles (inv : LedgerInv registry start world)
    (member : world.sent = sent ::ₘ others)
    (known : registry.get sent.order.instrument = some info)
    (next : NextReport info (Fresh start world) sent.order sent.progress report) :
    ∃ after, world.system.engine.handleOrderUpdate registry report sent.clientOrderId =
        some after ∧
      OrderEffect info sent.order sent.progress report world.system.engine after := by
  have present : sent ∈ world.sent := by
    rw [member]
    exact Multiset.mem_cons_self _ _
  exact handleOrderUpdate_effect known (inv.valid sent present).price next
    (inv.named sent present) (inv.stageKnown member known next)

/-- An id that had an owner keeps it: the order of the report never gives its id up. -/
theorem LedgerInv.stillOwned (inv : LedgerInv registry start world)
    (member : world.sent = sent ::ₘ others)
    (next : NextReport info (Fresh start world) sent.order sent.progress report) {orderId : String}
    (owned : ∃ owner ∈ world.sent, owner.orderId? = some orderId) :
    ∃ owner ∈ ({ sent with progress := Progress.next report } : Sent) ::ₘ others,
      owner.orderId? = some orderId := by
  obtain ⟨owner, owned, hasId⟩ := owned
  have knows := inv.known owner owned
  rw [member] at owned
  rcases Multiset.mem_cons.mp owned with rfl | other
  · have stage := next.stage
    refine ⟨_, Multiset.mem_cons_self _ _, ?_⟩
    cases progress : owner.progress with
    | silent =>
        rw [Sent.orderId?, progress] at hasId
        cases hasId
    | live liveId filled =>
        rw [progress] at stage
        rw [SentKnown, progress] at knows
        rw [Sent.orderId?, progress] at hasId
        rw [orderId_next (by rw [stage.1]; exact knows.1), stage.1]
        exact hasId
    | ended overId =>
        rw [progress] at stage
        exact stage.elim
  · exact ⟨owner, Multiset.mem_cons_of_mem other, hasId⟩

/-- What the order had reserved leaves the sum with its first report. -/
theorem LedgerInv.reserved_next (inv : LedgerInv registry start world)
    (member : world.sent = sent ::ₘ others)
    (known : registry.get sent.order.instrument = some info) {after : TradingEngine}
    (effect : OrderEffect info sent.order sent.progress report world.system.engine after)
    (currency : String) :
    after.positionManager.reserved currency =
      World.outstanding registry
        { world with
          system := { world.system with engine := after }
          sent := { sent with progress := Progress.next report } ::ₘ others } currency := by
  have before := inv.reserved currency
  have released : reservedFor registry currency sent.order sent.progress =
      if currency = sent.order.currency then sent.order.outstanding info sent.progress else 0 := by
    rw [reservedFor, known]
  have heard : reservedFor registry currency sent.order (Progress.next report) = 0 := by
    rw [reservedFor, known]
    dsimp only
    rw [outstanding_next, ite_self]
  rw [World.outstanding, member, Multiset.map_cons, Multiset.sum_cons, released,
    TradingSystem.positions] at before
  rw [World.outstanding, Multiset.map_cons, Multiset.sum_cons, heard, effect.reserved, before]
  ring

/-- What the order has locked changes no more than the frozen amount does. -/
theorem LedgerInv.frozen_next (inv : LedgerInv registry start world)
    (member : world.sent = sent ::ₘ others)
    (known : registry.get sent.order.instrument = some info) {after : TradingEngine}
    (effect : OrderEffect info sent.order sent.progress report world.system.engine after)
    (currency : String) :
    World.locked registry
        { world with
          system := { world.system with engine := after }
          sent := { sent with progress := Progress.next report } ::ₘ others } currency ≤
      (after.positionManager.spot currency).frozen := by
  have before := inv.frozen currency
  have oldLock : frozenFor registry currency sent.order sent.progress =
      if currency = sent.order.currency then sent.order.held info sent.progress else 0 := by
    rw [frozenFor, known]
  have newLock : frozenFor registry currency sent.order (Progress.next report) =
      if currency = sent.order.currency then
        sent.order.held info (Progress.next report) else 0 := by
    rw [frozenFor, known]
  rw [World.locked, member, Multiset.map_cons, Multiset.sum_cons, oldLock,
    TradingSystem.positions] at before
  rw [World.locked, Multiset.map_cons, Multiset.sum_cons, newLock]
  refine le_trans ?_ (effect.frozen currency)
  by_cases here : currency = sent.order.currency
  · rw [if_pos here] at before ⊢
    rw [if_pos here]
    linarith
  · rw [if_neg here] at before ⊢
    rw [if_neg here]
    linarith

theorem LedgerInv.ids_next (inv : LedgerInv registry start world)
    (member : world.sent = sent ::ₘ others)
    (next : NextReport info (Fresh start world) sent.order sent.progress report)
    {first second : Sent}
    (isFirst : first ∈ ({ sent with progress := Progress.next report } : Sent) ::ₘ others)
    (isSecond : second ∈ ({ sent with progress := Progress.next report } : Sent) ::ₘ others)
    {orderId : String} (firstId : first.orderId? = some orderId)
    (secondId : second.orderId? = some orderId) : first.clientOrderId = second.clientOrderId := by
  have apart : ∀ other ∈ others, other.orderId? = some orderId →
      ({ sent with progress := Progress.next report } : Sent).orderId? ≠ some orderId := by
    intro other listed hasId sentId
    obtain ⟨rfl, nonempty⟩ := orderId_next_some (inv.refused_of_empty member next) sentId
    exact inv.idsApart member next nonempty other listed hasId
  have sentBefore : ∀ other ∈ others, other ∈ world.sent := by
    intro other listed
    rw [member]
    exact Multiset.mem_cons_of_mem listed
  rcases Multiset.mem_cons.mp isFirst with rfl | firstOther
  · rcases Multiset.mem_cons.mp isSecond with rfl | secondOther
    · rfl
    · exact absurd firstId (apart second secondOther secondId)
  · rcases Multiset.mem_cons.mp isSecond with rfl | secondOther
    · exact absurd secondId (apart first firstOther firstId)
    · exact inv.ids first (sentBefore _ firstOther) second (sentBefore _ secondOther) orderId
        firstId secondId

theorem LedgerInv.handle (inv : LedgerInv registry start world)
    (member : world.sent = sent ::ₘ others)
    (known : registry.get sent.order.instrument = some info)
    (next : NextReport info (Fresh start world) sent.order sent.progress report)
    {after : TradingEngine}
    (ran : world.system.engine.handleOrderUpdate registry report sent.clientOrderId = some after) :
    LedgerInv registry start
      { world with
        system := { world.system with engine := after }
        sent := { sent with progress := Progress.next report } ::ₘ others } := by
  have present : sent ∈ world.sent := by
    rw [member]
    exact Multiset.mem_cons_self _ _
  have othersIn : ∀ other ∈ others, other ∈ world.sent := by
    intro other listed
    rw [member]
    exact Multiset.mem_cons_of_mem listed
  have valid := inv.valid sent present
  have rejected := inv.refused_of_empty member next
  obtain ⟨same, ranSame, effect⟩ := inv.handles member known next
  obtain rfl := Option.some.inj (ranSame.symm.trans ran)
  have frame := frame_handleOrderUpdate ran
  have ownsReport : report.orderId ≠ "" →
      ∃ owner ∈ ({ sent with progress := Progress.next report } : Sent) ::ₘ others,
        owner.orderId? = some report.orderId := by
    intro nonempty
    exact ⟨_, Multiset.mem_cons_self _ _, orderId_next nonempty⟩
  have notEmptyLive : report.orderId = "" →
      report.orderId ∉ same.liveOrderInstruments := by
    intro empty
    have refused := rejected empty
    exact effect.gone (by rw [refused]; rfl) (next.noMarginRejection refused)
  refine
    { ring := inv.ring, queued := inv.queued, valid := fun other listed => ?_
      reserved := inv.reserved_next member known effect
      frozen := inv.frozen_next member known effect, clients := ?_
      named := fun other listed => ?_
      ids := fun first isFirst second isSecond orderId firstId secondId =>
        inv.ids_next member next isFirst isSecond firstId secondId
      known := fun other listed => ?_, liveIds := fun orderId live => ?_
      trackedIds := fun orderId nonempty tracked => ?_, noEmptyId := fun live => ?_ }
  · rcases Multiset.mem_cons.mp listed with rfl | other
    · exact valid
    · exact inv.valid _ (othersIn _ other)
  · have distinct := inv.clients
    rw [member] at distinct
    rw [Multiset.map_cons] at distinct ⊢
    exact distinct
  · rcases Multiset.mem_cons.mp listed with rfl | other
    · exact inv.named sent present
    · exact inv.named _ (othersIn _ other)
  · rcases Multiset.mem_cons.mp listed with rfl | isOther
    · exact sentKnown_next valid next rejected effect
    · exact (inv.known other (othersIn _ isOther)).frame frame
        (inv.clientsApart member other isOther) fun nonempty =>
          inv.idsApart member next nonempty other isOther
  · by_cases isReport : orderId = report.orderId
    · subst isReport
      exact Or.inr (ownsReport fun empty => notEmptyLive empty live)
    · exact (inv.liveIds orderId ((frame.live orderId isReport).mp live)).imp id
        (inv.stillOwned member next)
  · by_cases isReport : orderId = report.orderId
    · subst isReport
      exact Or.inr (ownsReport nonempty)
    · have unchanged := frame.tracker orderId isReport
      exact (inv.trackedIds orderId nonempty fun zero => tracked (unchanged.trans zero)).imp id
        (inv.stillOwned member next)
  · by_cases isReport : report.orderId = ""
    · refine notEmptyLive isReport ?_
      rw [isReport]
      exact live
    · exact inv.noEmptyId ((frame.live "" (Ne.symm isReport)).mp live)

end Report

/-! ## Every run keeps the ledger -/

theorem LedgerInv.step {after : World} (inv : LedgerInv registry start world)
    (stepped : Step registry start world after) : LedgerInv registry start after := by
  cases stepped with
  | emit order after valid room ran => exact inv.emit valid room ran
  | idle clientOrderId opId after empty ran => exact inv.idle empty ran
  | dispatch order rest clientOrderId opId after head named own ran =>
      exact inv.dispatch head named own ran
  | report sent others report info after member known next ran =>
      exact inv.handle member known next ran

theorem LedgerInv.run {first : World} (begun : Start first)
    (ran : Relation.ReflTransGen (Step registry first.system.engine) first world) :
    LedgerInv registry first.system.engine world := by
  induction ran with
  | refl => exact begun.inv
  | tail _ stepped ih => exact ih.step stepped

/-- In every reachable state the reserved amount of a currency is the sum of
what was reserved for the orders that no report has reached. -/
theorem reserved_eq_outstanding {first : World} (begun : Start first)
    (ran : Relation.ReflTransGen (Step registry first.system.engine) first world)
    (currency : String) :
    world.system.positions.reserved currency = world.outstanding registry currency :=
  (LedgerInv.run begun ran).reserved currency

end Ledger

/-! ## A buy whose NEW is missed -/

def limitBuy : SpotLimit :=
  { instrument := "BTC-USDT", side := .buy, tradeMode := .cash, positionSide := .net,
    price := 300, volume := 2 }

def emptyWorld : World := { system := {}, queue := [], sent := 0 }

theorem emptyWorld_start : Start emptyWorld :=
  ⟨rfl, rfl, rfl, fun _ => rfl, fun _ => le_refl _, Finmap.notMem_empty⟩

theorem limitBuy_valid : ValidOrder btcUsdtRegistry limitBuy :=
  ⟨⟨btcUsdt, by decide⟩, by decide, by decide, by decide⟩

/-- One of two units filled at 200. -/
def firstHeard : ExecutionReport :=
  { orderId := "31", instrument := "BTC-USDT", status := .partiallyFilled, price := 300,
    totalVolume := 2, filledVolume := 1, avgFillPrice := 200 }

def sentBuy (progress : Progress) : Sent :=
  { order := limitBuy, clientOrderId := "cts7", progress := progress }

theorem firstHeard_next (world : World) (sent : world.sent = {sentBuy .silent}) :
    NextReport btcUsdt (Fresh {} world) limitBuy .silent firstHeard := by
  refine ⟨⟨rfl, rfl, rfl, rfl, rfl, fun sells => nomatch sells⟩, by decide, by decide, by decide,
    fun _ _ => ?_, fun _ => Or.inl rfl, Or.inl ⟨by decide, Finmap.notMem_empty, rfl, ?_⟩⟩
  · norm_num [firstHeard, limitBuy, btcUsdt, decode, kPow10]
  · intro other member
    rw [sent] at member
    rw [Multiset.mem_singleton.mp member]
    decide

theorem reserved_eq_outstanding_missedNew : ∃ world,
    Relation.ReflTransGen (Step btcUsdtRegistry {}) emptyWorld world ∧
      world.sent = {sentBuy (.live "31" 1)} ∧
      world.system.positions.reserved "USDT" = world.outstanding btcUsdtRegistry "USDT" := by
  have known : btcUsdtRegistry.get limitBuy.instrument = some btcUsdt := by decide
  obtain ⟨emitted, ranEmit, effect⟩ := emit_effect known emptyWorld.system
  have emits : Step btcUsdtRegistry {} emptyWorld (World.mk emitted [limitBuy] 0) :=
    .emit emptyWorld limitBuy emitted limitBuy_valid (by decide) ranEmit
  have ring : emitted.signalRing = limitBuy.signal :: [] := effect.ring (by decide)
  obtain ⟨dispatched, ranDispatch, _, _⟩ := dispatch_effect known limitBuy_valid.fits ring "cts7"
    "op7"
  have dispatches : Step btcUsdtRegistry {} (World.mk emitted [limitBuy] 0)
      (World.mk dispatched [] {sentBuy .silent}) :=
    .dispatch _ limitBuy [] "cts7" "op7" dispatched rfl (by decide) (by simp) ranDispatch
  have ranBoth := (Relation.ReflTransGen.single emits).tail dispatches
  have next := firstHeard_next (World.mk dispatched [] {sentBuy .silent}) rfl
  obtain ⟨reported, ranReport, _⟩ :=
    (LedgerInv.run emptyWorld_start ranBoth).handles
      (Multiset.cons_zero (sentBuy .silent)).symm known next
  have reports : Step btcUsdtRegistry {} (World.mk dispatched [] {sentBuy .silent})
      (World.mk { dispatched with engine := reported } [] {sentBuy (.live "31" 1)}) :=
    .report _ (sentBuy .silent) 0 firstHeard btcUsdt reported rfl known next ranReport
  have ran := ranBoth.tail reports
  exact ⟨_, ran, rfl, reserved_eq_outstanding emptyWorld_start ran "USDT"⟩

end CryptoTrading
