import CryptoTrading.Lib.KeyedTable
import CryptoTrading.TradingEngine.EngineSpec

/-! # A pass of `ReconcileOrders`

With true and complete answers, and nothing else running, the first loop takes
exactly the ended orders out of the live table and the second one puts in the
pending orders that still have a recorded reservation. -/
set_option autoImplicit false

namespace CryptoTrading

abbrev Exchange : Type := UnorderedMap String PendingOrderInfo

namespace Exchange

def PendingOn (exchange : Exchange) (orderId : String) : Prop :=
  ∃ entry, exchange.lookup orderId = some entry ∧
    TradingEngine.isPending entry.report.status = true

/-- What the exchange keeps: reports filed under their own id, with a state that
`OkxParseOrderState` can produce, for instruments that were fetched at startup. -/
structure WellFormed (registry : InstrumentRegistry) (exchange : Exchange) : Prop where
  keyed : ∀ {orderId entry}, exchange.lookup orderId = some entry →
    entry.report.orderId = orderId
  parsed : ∀ {orderId entry}, exchange.lookup orderId = some entry →
    entry.report.status ≠ .cancelFailed
  registered : ∀ {orderId entry}, exchange.lookup orderId = some entry →
    ∃ info, registry.get entry.report.instrument = some info

/-- Prices and volumes of real orders are not negative. -/
def NonnegAmounts (exchange : Exchange) : Prop :=
  ∀ {orderId entry}, exchange.lookup orderId = some entry →
    0 ≤ entry.report.price ∧ 0 ≤ entry.report.totalVolume

/-- The order with client order id `clientOrderId` has no namesake. -/
def NamesOne (exchange : Exchange) (clientOrderId : String) : Prop :=
  ∀ {first second firstEntry secondEntry}, exchange.lookup first = some firstEntry →
    exchange.lookup second = some secondEntry →
    firstEntry.clientOrderId = clientOrderId → secondEntry.clientOrderId = clientOrderId →
    first = second

end Exchange

/-- Both pending lists and every `QueryOrderById` of a live id tell the whole truth. -/
structure TrueAnswers (exchange : Exchange) (engine : TradingEngine)
    (remoteSpot remoteSwap : List PendingOrderInfo)
    (queryOrderById : String → String → Option PendingOrderInfo) : Prop where
  spot : ∀ entry, entry ∈ remoteSpot ↔ exchange.lookup entry.report.orderId = some entry ∧
    TradingEngine.isPending entry.report.status = true ∧ entry.report.marketType = .spot
  swap : ∀ entry, entry ∈ remoteSwap ↔ exchange.lookup entry.report.orderId = some entry ∧
    TradingEngine.isPending entry.report.status = true ∧ entry.report.marketType = .swap
  byId : ∀ {orderId instrument}, engine.liveOrderInstruments.lookup orderId = some instrument →
    ∃ entry, exchange.lookup orderId = some entry ∧
      queryOrderById instrument orderId = some entry

namespace TradingEngine

theorem isTerminal_of_not_pending {status : OrderStatus} (ended : isPending status = false)
    (parsed : status ≠ .cancelFailed) : isTerminal status = true := by
  cases status <;> simp_all [isPending, isTerminal]

theorem endsReservation_of_terminal {status : OrderStatus} (terminal : isTerminal status = true) :
    endsReservation status = true := by
  cases status <;> simp_all [isTerminal, endsReservation]

/-! ## The first loop -/

section Loops
variable {registry : InstrumentRegistry}

structure EndedOrphan (registry : InstrumentRegistry)
    (queryOrderById : String → String → Option PendingOrderInfo) (orphan : String × String)
    (entry : PendingOrderInfo) : Prop where
  answer : queryOrderById orphan.2 orphan.1 = some entry
  orderId : entry.report.orderId = orphan.1
  ended : isPending entry.report.status = false
  terminal : isTerminal entry.report.status = true
  registered : ∃ info, registry.get entry.report.instrument = some info

variable {queryOrderById : String → String → Option PendingOrderInfo}

theorem replayTerminal_step {engine : TradingEngine} {orphan : String × String}
    {entry : PendingOrderInfo} (ended : EndedOrphan registry queryOrderById orphan entry)
    (live : orphan.1 ∈ engine.liveOrderInstruments) :
    ∃ after, replayTerminal registry queryOrderById engine orphan = some after ∧
      (∀ id, id ∈ after.liveOrderInstruments ↔
        id ∈ engine.liveOrderInstruments ∧ id ≠ orphan.1) ∧
      (∀ other, other ∈ after.clientOrderIdToReservation ↔
        other ∈ engine.clientOrderIdToReservation ∧
          ¬ (other ≠ "" ∧ other = entry.clientOrderId)) ∧
      (0 ≤ entry.report.price → 0 ≤ entry.report.totalVolume →
        (∀ currency, 0 ≤ engine.positionManager.reserved currency) →
        ReservedShrinks engine.positionManager after.positionManager) := by
  obtain ⟨info, known⟩ := ended.registered
  obtain ⟨pm, applied, shrinks⟩ := applyReport_registered known engine.positionManager
  rw [← ended.orderId] at live
  obtain ⟨after, ran, effect⟩ := handleOrderUpdate_live entry.clientOrderId live applied
  refine ⟨after, ?_, fun id => ?_, fun other => ?_, ?_⟩
  · rw [replayTerminal, ended.answer]
    simp only [ended.ended, Bool.false_eq_true, if_false]
    exact ran
  · have notNew : entry.report.status ≠ .new := by
      intro isNew
      have terminal := ended.terminal
      rw [isNew] at terminal
      exact absurd terminal (by decide)
    rw [effect.live, mem_updateLiveOrders, ended.orderId]
    simp [notNew, ended.terminal, and_comm]
  · rw [effect.reservations, mem_eraseReservation]
    have ends := endsReservation_of_terminal ended.terminal
    constructor
    · rintro ⟨present, kept⟩
      exact ⟨present, fun ⟨named, same⟩ => kept ⟨same ▸ named, ends, same⟩⟩
    · rintro ⟨present, kept⟩
      exact ⟨present, fun ⟨named, _, same⟩ => kept ⟨same ▸ named, same⟩⟩
  · rw [effect.positions]
    exact shrinks

theorem replayTerminal_run (registry : InstrumentRegistry)
    (queryOrderById : String → String → Option PendingOrderInfo)
    (orphanList : List (String × String)) :
    ∀ engine : TradingEngine, (orphanList.map Prod.fst).Nodup →
      (∀ orphan ∈ orphanList, orphan.1 ∈ engine.liveOrderInstruments ∧
        ∃ entry, EndedOrphan registry queryOrderById orphan entry) →
      ∃ after, Runs.run (replayTerminal registry queryOrderById) engine orphanList = some after ∧
        (∀ id, id ∈ after.liveOrderInstruments ↔
          id ∈ engine.liveOrderInstruments ∧ id ∉ orphanList.map Prod.fst) ∧
        (∀ other, other ∈ after.clientOrderIdToReservation ↔
          other ∈ engine.clientOrderIdToReservation ∧ ¬ ∃ orphan ∈ orphanList, ∃ entry,
            queryOrderById orphan.2 orphan.1 = some entry ∧
              other ≠ "" ∧ other = entry.clientOrderId) ∧
        ((∀ orphan ∈ orphanList, ∀ entry, queryOrderById orphan.2 orphan.1 = some entry →
            0 ≤ entry.report.price ∧ 0 ≤ entry.report.totalVolume) →
          (∀ currency, 0 ≤ engine.positionManager.reserved currency) →
          ReservedShrinks engine.positionManager after.positionManager) := by
  induction orphanList with
  | nil =>
      intro engine _ _
      refine ⟨engine, rfl, fun id => ?_, fun other => ?_, fun _ nonneg => ?_⟩
      · simp
      · simp
      · exact reservedShrinks_of_eq (fun _ => rfl) nonneg
  | cons orphan rest ih =>
      intro engine distinct endedAll
      rw [List.map_cons, List.nodup_cons] at distinct
      obtain ⟨live, entry, ended⟩ := endedAll orphan List.mem_cons_self
      obtain ⟨next, stepped, liveNext, reservationsNext, shrinksNext⟩ :=
        replayTerminal_step ended live
      obtain ⟨after, ran, liveAfter, reservationsAfter, shrinksAfter⟩ := ih next distinct.2
        fun other member => by
          obtain ⟨otherLive, otherEnded⟩ := endedAll other (List.mem_cons_of_mem _ member)
          refine ⟨(liveNext other.1).mpr ⟨otherLive, fun same => distinct.1 ?_⟩, otherEnded⟩
          rw [← same]
          exact List.mem_map_of_mem member
      refine ⟨after, ?_, fun id => ?_, fun other => ?_, fun amounts nonneg => ?_⟩
      · rw [Runs.run_cons, stepped]
        exact ran
      · rw [liveAfter, liveNext, List.map_cons, List.mem_cons, not_or, and_assoc]
      · rw [reservationsAfter, reservationsNext, and_assoc, ← not_or]
        refine and_congr_right fun _ => not_congr ?_
        simp only [List.mem_cons, exists_eq_or_imp, ended.answer, Option.some.injEq,
          exists_eq_left']
      · obtain ⟨price, volume⟩ := amounts orphan List.mem_cons_self entry ended.answer
        have first := shrinksNext price volume nonneg
        exact first.trans (shrinksAfter
          (fun other member => amounts other (List.mem_cons_of_mem _ member))
          fun currency => (first currency).1)

/-! ## The second loop -/

theorem replayMissedNew_step {remoteById : UnorderedMap String ExecutionReport}
    (registered : ∀ {clientOrderId report}, remoteById.lookup clientOrderId = some report →
      ∃ info, registry.get report.instrument = some info)
    (engine : TradingEngine) (clientOrderId : String) :
    ∃ after, replayMissedNew registry remoteById engine clientOrderId = some after ∧
      (∀ id, id ∈ after.liveOrderInstruments ↔ id ∈ engine.liveOrderInstruments ∨
        ∃ report, remoteById.lookup clientOrderId = some report ∧ report.orderId = id) ∧
      (∀ other, other ∈ after.clientOrderIdToReservation →
        other ∈ engine.clientOrderIdToReservation) ∧
      (∀ other, remoteById.lookup other = none →
        (other ∈ after.clientOrderIdToReservation ↔
          other ∈ engine.clientOrderIdToReservation)) ∧
      ((∀ report, remoteById.lookup clientOrderId = some report →
          0 ≤ report.price ∧ 0 ≤ report.totalVolume) →
        (∀ currency, 0 ≤ engine.positionManager.reserved currency) →
        ReservedShrinks engine.positionManager after.positionManager) := by
  rw [replayMissedNew]
  cases found : remoteById.lookup clientOrderId with
  | none =>
      refine ⟨engine, rfl, fun id => ?_, fun _ present => present, fun _ _ => Iff.rfl,
        fun _ nonneg => reservedShrinks_of_eq (fun _ => rfl) nonneg⟩
      simp
  | some report =>
      by_cases live : report.orderId ∈ engine.liveOrderInstruments
      · refine ⟨engine, if_pos live, fun id => ?_, fun _ present => present, fun _ _ => Iff.rfl,
          fun _ nonneg => reservedShrinks_of_eq (fun _ => rfl) nonneg⟩
        constructor
        · exact Or.inl
        · rintro (already | ⟨other, same, rfl⟩)
          · exact already
          · rw [← Option.some.inj same]
            exact live
      · obtain ⟨info, known⟩ := registered found
        have knownNew : registry.get (asNew report).instrument = some info := known
        obtain ⟨pm, applied, shrinks⟩ := applyReport_registered knownNew engine.positionManager
        obtain ⟨after, ran, effect⟩ := handleOrderUpdate_new clientOrderId rfl applied
        refine ⟨after, (if_neg live).trans ran, fun id => ?_, fun other present => ?_,
          fun other absent => ?_, fun amounts nonneg => ?_⟩
        · have isNew : (asNew report).status = .new := rfl
          have sameId : (asNew report).orderId = report.orderId := rfl
          rw [effect.live, mem_updateLiveOrders, isNew, sameId]
          by_cases same : id = report.orderId
          · simp [same]
          · simp [same, Ne.symm same]
        · rw [effect.reservations, mem_eraseReservation] at present
          exact present.1
        · rw [effect.reservations, mem_eraseReservation]
          constructor
          · exact And.left
          · refine fun present => ⟨present, fun erased => ?_⟩
            rw [erased.2.2, found] at absent
            cases absent
        · obtain ⟨price, volume⟩ := amounts report rfl
          rw [effect.positions]
          exact shrinks price volume nonneg

theorem replayMissedNew_run (registry : InstrumentRegistry)
    (remoteById : UnorderedMap String ExecutionReport)
    (registered : ∀ {clientOrderId report}, remoteById.lookup clientOrderId = some report →
      ∃ info, registry.get report.instrument = some info) (recorded : List String) :
    ∀ engine : TradingEngine,
      ∃ after, Runs.run (replayMissedNew registry remoteById) engine recorded = some after ∧
        (∀ id, id ∈ after.liveOrderInstruments ↔ id ∈ engine.liveOrderInstruments ∨
          ∃ clientOrderId ∈ recorded, ∃ report,
            remoteById.lookup clientOrderId = some report ∧ report.orderId = id) ∧
        (∀ other, other ∈ after.clientOrderIdToReservation →
          other ∈ engine.clientOrderIdToReservation) ∧
        (∀ other, remoteById.lookup other = none →
          (other ∈ after.clientOrderIdToReservation ↔
            other ∈ engine.clientOrderIdToReservation)) ∧
        ((∀ clientOrderId report, remoteById.lookup clientOrderId = some report →
            0 ≤ report.price ∧ 0 ≤ report.totalVolume) →
          (∀ currency, 0 ≤ engine.positionManager.reserved currency) →
          ReservedShrinks engine.positionManager after.positionManager) := by
  induction recorded with
  | nil =>
      intro engine
      refine ⟨engine, rfl, fun id => ?_, fun _ present => present, fun _ _ => Iff.rfl,
        fun _ nonneg => reservedShrinks_of_eq (fun _ => rfl) nonneg⟩
      simp
  | cons clientOrderId rest ih =>
      intro engine
      obtain ⟨next, stepped, liveNext, keptNext, othersNext, shrinksNext⟩ :=
        replayMissedNew_step registered engine clientOrderId
      obtain ⟨after, ran, liveAfter, keptAfter, othersAfter, shrinksAfter⟩ := ih next
      refine ⟨after, ?_, fun id => ?_,
        fun other present => keptNext other (keptAfter other present),
        fun other absent => (othersAfter other absent).trans (othersNext other absent),
        fun amounts nonneg => ?_⟩
      · rw [Runs.run_cons, stepped]
        exact ran
      · rw [liveAfter, liveNext, or_assoc]
        simp only [List.mem_cons, exists_eq_or_imp]
      · have first := shrinksNext (amounts clientOrderId) nonneg
        exact first.trans (shrinksAfter amounts fun currency => (first currency).1)

end Loops

/-! ## The lists the loops run over -/

/-- What the pass files of a pending order: its report, if it has a client order id. -/
def namedReport (info : PendingOrderInfo) : Option (String × ExecutionReport) :=
  if info.clientOrderId ≠ "" then some (info.clientOrderId, info.report) else none

theorem namedReport_eq_some {info : PendingOrderInfo} {clientOrderId : String}
    {report : ExecutionReport} : namedReport info = some (clientOrderId, report) ↔
      info.clientOrderId ≠ "" ∧ info.clientOrderId = clientOrderId ∧ info.report = report := by
  simp [namedReport]

theorem remoteByClientOrderId_eq_collect (remote : List PendingOrderInfo) :
    remoteByClientOrderId remote = UnorderedMap.collect namedReport remote := by
  rw [remoteByClientOrderId, UnorderedMap.collect]
  congr 1
  funext table info
  rw [UnorderedMap.fileRecord, namedReport]
  split <;> rfl

/-- Every entry of the table comes from the pending lists, under its own client
order id, and every named pending order has an entry. -/
theorem lookup_remoteByClientOrderId (remote : List PendingOrderInfo) (clientOrderId : String) :
    (∀ report, (remoteByClientOrderId remote).lookup clientOrderId = some report →
      ∃ entry ∈ remote, entry.clientOrderId = clientOrderId ∧ clientOrderId ≠ "" ∧
        entry.report = report) ∧
      ((∃ entry ∈ remote, entry.clientOrderId = clientOrderId ∧ clientOrderId ≠ "") →
        ∃ report, (remoteByClientOrderId remote).lookup clientOrderId = some report) := by
  rw [remoteByClientOrderId_eq_collect]
  constructor
  · intro report found
    obtain ⟨entry, member, filed⟩ := UnorderedMap.exists_of_lookup_collect found
    obtain ⟨named, same, rfl⟩ := namedReport_eq_some.mp filed
    exact ⟨entry, member, same, same ▸ named, rfl⟩
  · rintro ⟨entry, member, same, named⟩
    exact UnorderedMap.lookup_collect_isSome member
      (namedReport_eq_some.mpr ⟨same.symm ▸ named, same, rfl⟩)

theorem mem_orphans {engine : TradingEngine} {remote : List PendingOrderInfo} {ids : List String}
    {orphan : String × String} : orphan ∈ engine.orphans remote ids ↔
      orphan.1 ∈ ids ∧ orphan.1 ∉ remoteActive remote ∧
        engine.liveOrderInstruments.lookup orphan.1 = some orphan.2 := by
  rw [orphans, List.mem_filterMap]
  constructor
  · rintro ⟨id, member, found⟩
    split at found
    · cases found
    · next unseen =>
        obtain ⟨instrument, present, rfl⟩ := Option.map_eq_some_iff.mp found
        exact ⟨member, unseen, present⟩
  · rintro ⟨member, unseen, present⟩
    exact ⟨orphan.1, member, by rw [if_neg unseen, present]; rfl⟩

theorem orphans_sublist (engine : TradingEngine) (remote : List PendingOrderInfo)
    (ids : List String) : ((engine.orphans remote ids).map Prod.fst).Sublist ids := by
  induction ids with
  | nil => exact List.Sublist.refl []
  | cons id rest ih =>
      rw [orphans, List.filterMap_cons]
      by_cases active : id ∈ remoteActive remote
      · rw [if_pos active]
        exact ih.cons id
      · rw [if_neg active]
        cases engine.liveOrderInstruments.lookup id with
        | none => exact ih.cons id
        | some instrument => exact ih.cons_cons id

section Pass
variable {registry : InstrumentRegistry} {exchange : Exchange} {engine : TradingEngine}
  {remoteSpot remoteSwap : List PendingOrderInfo}
  {queryOrderById : String → String → Option PendingOrderInfo}

theorem mem_remote
    (answers : TrueAnswers exchange engine remoteSpot remoteSwap queryOrderById)
    (entry : PendingOrderInfo) : entry ∈ remoteSpot ++ remoteSwap ↔
      exchange.lookup entry.report.orderId = some entry ∧
        isPending entry.report.status = true := by
  rw [List.mem_append, answers.spot, answers.swap]
  cases entry.report.marketType <;> simp

theorem mem_remoteActive
    (answers : TrueAnswers exchange engine remoteSpot remoteSwap queryOrderById)
    (wellFormed : exchange.WellFormed registry) (orderId : String) :
    orderId ∈ remoteActive (remoteSpot ++ remoteSwap) ↔ exchange.PendingOn orderId := by
  rw [remoteActive, List.mem_map]
  constructor
  · rintro ⟨entry, member, rfl⟩
    obtain ⟨known, pending⟩ := (mem_remote answers entry).mp member
    exact ⟨entry, known, pending⟩
  · rintro ⟨entry, known, pending⟩
    have keyed := wellFormed.keyed known
    exact ⟨entry, (mem_remote answers entry).mpr ⟨keyed ▸ known, pending⟩, keyed⟩

/-- A live id whose order has ended under the client order id `clientOrderId`. -/
def ReplayedAway (exchange : Exchange) (engine : TradingEngine) (clientOrderId : String) : Prop :=
  ∃ id ∈ engine.liveOrderInstruments, ∃ entry, exchange.lookup id = some entry ∧
    isPending entry.report.status = false ∧ entry.clientOrderId = clientOrderId

structure PassEffect (exchange : Exchange) (engine after : TradingEngine)
    (remoteById : UnorderedMap String ExecutionReport) : Prop where
  live : ∀ id, id ∈ after.liveOrderInstruments ↔
    (id ∈ engine.liveOrderInstruments ∧ exchange.PendingOn id) ∨
      ∃ clientOrderId ∈ engine.clientOrderIdToReservation,
        ¬ (clientOrderId ≠ "" ∧ ReplayedAway exchange engine clientOrderId) ∧
          ∃ report, remoteById.lookup clientOrderId = some report ∧ report.orderId = id
  reservations : ∀ clientOrderId, remoteById.lookup clientOrderId = none →
    (clientOrderId ∈ after.clientOrderIdToReservation ↔
      clientOrderId ∈ engine.clientOrderIdToReservation ∧
        ¬ (clientOrderId ≠ "" ∧ ReplayedAway exchange engine clientOrderId))
  reserved : exchange.NonnegAmounts →
    (∀ currency, 0 ≤ engine.positionManager.reserved currency) →
    ReservedShrinks engine.positionManager after.positionManager

/-- The orphans of a pass are the live ids of the orders that have ended. -/
theorem orphans_ended (answers : TrueAnswers exchange engine remoteSpot remoteSwap queryOrderById)
    (wellFormed : exchange.WellFormed registry) {ids : List String}
    (complete : ∀ id, id ∈ ids ↔ id ∈ engine.liveOrderInstruments) (orphan : String × String) :
    orphan ∈ engine.orphans (remoteSpot ++ remoteSwap) ids ↔
      engine.liveOrderInstruments.lookup orphan.1 = some orphan.2 ∧
        ∃ entry, exchange.lookup orphan.1 = some entry ∧
          EndedOrphan registry queryOrderById orphan entry := by
  rw [mem_orphans, mem_remoteActive answers wellFormed, complete]
  constructor
  · rintro ⟨_, notPending, present⟩
    obtain ⟨entry, known, answer⟩ := answers.byId present
    have ended : isPending entry.report.status = false :=
      Bool.eq_false_iff.mpr fun pending => notPending ⟨entry, known, pending⟩
    exact ⟨present, entry, known, answer, wellFormed.keyed known, ended,
      isTerminal_of_not_pending ended (wellFormed.parsed known), wellFormed.registered known⟩
  · rintro ⟨present, entry, known, ended⟩
    refine ⟨Finmap.mem_of_lookup_eq_some present, ?_, present⟩
    rintro ⟨other, otherKnown, pending⟩
    rw [known] at otherKnown
    rw [← Option.some.inj otherKnown, ended.ended] at pending
    cases pending

theorem ended_orphan (answers : TrueAnswers exchange engine remoteSpot remoteSwap queryOrderById)
    (wellFormed : exchange.WellFormed registry) {ids : List String}
    (complete : ∀ id, id ∈ ids ↔ id ∈ engine.liveOrderInstruments) {id : String}
    (live : id ∈ engine.liveOrderInstruments) {entry : PendingOrderInfo}
    (known : exchange.lookup id = some entry) (ended : isPending entry.report.status = false) :
    ∃ instrument, (id, instrument) ∈ engine.orphans (remoteSpot ++ remoteSwap) ids ∧
      queryOrderById instrument id = some entry := by
  obtain ⟨instrument, present⟩ := Finmap.mem_iff.mp live
  obtain ⟨other, otherKnown, answer⟩ := answers.byId present
  obtain rfl := Option.some.inj (otherKnown.symm.trans known)
  refine ⟨instrument, ?_, answer⟩
  rw [mem_orphans, mem_remoteActive answers wellFormed, complete]
  refine ⟨live, ?_, present⟩
  rintro ⟨other, otherKnown, pending⟩
  rw [Option.some.inj (otherKnown.symm.trans known), ended] at pending
  cases pending

/-- The first loop leaves the live ids of the pending orders, and a record unless
an ended live order carries its client order id. -/
theorem replayTerminal_effect
    (answers : TrueAnswers exchange engine remoteSpot remoteSwap queryOrderById)
    (wellFormed : exchange.WellFormed registry) {ids : List String} (distinct : ids.Nodup)
    (complete : ∀ id, id ∈ ids ↔ id ∈ engine.liveOrderInstruments) :
    ∃ middle, Runs.run (replayTerminal registry queryOrderById) engine
        (engine.orphans (remoteSpot ++ remoteSwap) ids) = some middle ∧
      (∀ id, id ∈ middle.liveOrderInstruments ↔
        id ∈ engine.liveOrderInstruments ∧ exchange.PendingOn id) ∧
      (∀ clientOrderId, clientOrderId ∈ middle.clientOrderIdToReservation ↔
        clientOrderId ∈ engine.clientOrderIdToReservation ∧
          ¬ (clientOrderId ≠ "" ∧ ReplayedAway exchange engine clientOrderId)) ∧
      (exchange.NonnegAmounts → (∀ currency, 0 ≤ engine.positionManager.reserved currency) →
        ReservedShrinks engine.positionManager middle.positionManager) := by
  have isOrphan := orphans_ended answers wellFormed complete
  obtain ⟨middle, ran, live, reservations, shrinks⟩ := replayTerminal_run registry queryOrderById _
    engine ((orphans_sublist ..).nodup distinct) fun orphan member => by
      obtain ⟨present, entry, _, ended⟩ := (isOrphan orphan).mp member
      exact ⟨Finmap.mem_of_lookup_eq_some present, entry, ended⟩
  refine ⟨middle, ran, fun id => ?_, fun clientOrderId => ?_, fun amounts nonneg => ?_⟩
  · rw [live]
    refine and_congr_right fun live => ?_
    obtain ⟨instrument, present⟩ := Finmap.mem_iff.mp live
    rw [← not_iff_not, not_not, ← mem_remoteActive answers wellFormed, List.mem_map]
    constructor
    · rintro ⟨orphan, member, rfl⟩
      exact (mem_orphans.mp member).2.1
    · intro unseen
      exact ⟨(id, instrument), mem_orphans.mpr ⟨(complete id).mpr live, unseen, present⟩, rfl⟩
  · rw [reservations]
    refine and_congr_right fun _ => not_congr ⟨?_, ?_⟩
    · rintro ⟨orphan, member, entry, answer, named, same⟩
      obtain ⟨present, other, known, ended⟩ := (isOrphan orphan).mp member
      obtain rfl := Option.some.inj (ended.answer.symm.trans answer)
      exact ⟨named, orphan.1, Finmap.mem_of_lookup_eq_some present, _, known, ended.ended,
        same.symm⟩
    · rintro ⟨named, id, live, entry, known, ended, same⟩
      obtain ⟨instrument, member, answer⟩ :=
        ended_orphan answers wellFormed complete live known ended
      exact ⟨_, member, entry, answer, named, same.symm⟩
  · refine shrinks (fun orphan member entry answer => ?_) nonneg
    obtain ⟨_, other, known, ended⟩ := (isOrphan orphan).mp member
    rw [← Option.some.inj (ended.answer.symm.trans answer)]
    exact amounts known

theorem reconcileOrders_effect (iteration : UnorderedMap.IterationOrder String)
    (answers : TrueAnswers exchange engine remoteSpot remoteSwap queryOrderById)
    (wellFormed : exchange.WellFormed registry) :
    ∃ after, engine.reconcileOrders registry iteration remoteSpot remoteSwap queryOrderById =
        some after ∧
      PassEffect exchange engine after (remoteByClientOrderId (remoteSpot ++ remoteSwap)) := by
  obtain ⟨middle, ranFirst, stillLive, recordLeft, shrinksFirst⟩ :=
    replayTerminal_effect answers wellFormed (iteration.nodup engine.liveOrderInstruments.keys)
      fun id => (iteration.mem_iff _ id).trans Finmap.mem_keys
  have fromRemote : ∀ {clientOrderId report},
      (remoteByClientOrderId (remoteSpot ++ remoteSwap)).lookup clientOrderId = some report →
      ∃ entry, exchange.lookup report.orderId = some entry ∧ entry.report = report := by
    intro clientOrderId report found
    obtain ⟨entry, member, _, _, rfl⟩ := (lookup_remoteByClientOrderId _ _).1 report found
    exact ⟨entry, ((mem_remote answers entry).mp member).1, rfl⟩
  obtain ⟨after, ranSecond, liveSecond, _, reservationsSecond, shrinksSecond⟩ :=
    replayMissedNew_run registry (remoteByClientOrderId (remoteSpot ++ remoteSwap))
      (fun found => by
        obtain ⟨entry, known, rfl⟩ := fromRemote found
        exact wellFormed.registered known)
      (iteration.enumerate middle.clientOrderIdToReservation.keys) middle
  have ranBoth : engine.reconcileOrders registry iteration remoteSpot remoteSwap queryOrderById =
      some after := by
    rw [reconcileOrders]
    simp only [ranFirst, Option.bind_eq_bind, Option.bind_some]
    exact ranSecond
  refine ⟨after, ranBoth, ⟨fun id => ?_, fun clientOrderId absent => ?_, fun amounts nonneg => ?_⟩⟩
  · rw [liveSecond, stillLive]
    refine or_congr_right ⟨?_, ?_⟩
    · rintro ⟨clientOrderId, member, found⟩
      have recorded := (recordLeft clientOrderId).mp
        (Finmap.mem_keys.mp ((iteration.mem_iff _ _).mp member))
      exact ⟨clientOrderId, recorded.1, recorded.2, found⟩
    · rintro ⟨clientOrderId, recorded, kept, found⟩
      exact ⟨clientOrderId, (iteration.mem_iff _ _).mpr
        (Finmap.mem_keys.mpr ((recordLeft clientOrderId).mpr ⟨recorded, kept⟩)), found⟩
  · rw [reservationsSecond clientOrderId absent, recordLeft]
  · have first := shrinksFirst amounts nonneg
    refine first.trans (shrinksSecond (fun clientOrderId report found => ?_)
      fun currency => (first currency).1)
    obtain ⟨entry, known, rfl⟩ := fromRemote found
    exact amounts known

end Pass

end TradingEngine

end CryptoTrading
