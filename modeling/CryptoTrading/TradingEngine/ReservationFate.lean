import CryptoTrading.TradingEngine.Reconcile
import CryptoTrading.TradingEngine.OrderHistory

/-! # The reservation of an order whose NEW was missed

A pass erases the record of an order only when it replays the end of it, which
takes a live id, and it releases nothing for an order that was filled or
cancelled.  Whether `spot_reserved_` still counts the amount after the pass is
therefore decided by the recovery that the first report of the order ran. -/
set_option autoImplicit false

namespace CryptoTrading

open TradingEngine

/-- A report of the order was handled before the pass: its id is live. -/
def KnownLive (exchange : Exchange) (engine : TradingEngine) (clientOrderId : String) : Prop :=
  ∃ id ∈ engine.liveOrderInstruments, ∃ entry, exchange.lookup id = some entry ∧
    entry.clientOrderId = clientOrderId

def released (before after : TradingEngine) (currency : String) : ℚ :=
  before.positionManager.reserved currency - after.positionManager.reserved currency

/-- A spot report that carries the client order id of its order. -/
structure OwnReport (exchange : Exchange) (clientOrderId : String) (report : ExecutionReport) :
    Prop where
  placed : ∃ entry, exchange.lookup report.orderId = some entry ∧
    entry.clientOrderId = clientOrderId
  spot : report.marketType = .spot

/-- The life of a reservation before the pass: the report its order was first
heard by, the engine, and how much of the amount `spot_reserved_` still counts.
The NEW was never received, and a terminal report would have erased the record. -/
inductive Unacknowledged (registry : InstrumentRegistry) (exchange : Exchange)
    (clientOrderId : String) (info : ReservationInfo) :
    Option ExecutionReport → TradingEngine → ℚ → Prop where
  | unheard (engine : TradingEngine)
      (recorded : engine.clientOrderIdToReservation.lookup clientOrderId = some info)
      (unknown : ¬ KnownLive exchange engine clientOrderId)
      (counts : info.amount ≤ engine.positionManager.reserved info.currency) :
      Unacknowledged registry exchange clientOrderId info none engine info.amount
  | heard {first : Option ExecutionReport} {engine : TradingEngine} {counted : ℚ}
      (before : Unacknowledged registry exchange clientOrderId info first engine counted)
      (report : ExecutionReport) (after : TradingEngine)
      (own : OwnReport exchange clientOrderId report)
      (partly : report.status = .partiallyFilled)
      (ran : engine.handleOrderUpdate registry report clientOrderId = some after) :
      Unacknowledged registry exchange clientOrderId info (some (first.getD report)) after
        (counted - released engine after info.currency)
  -- whatever else happens leaves the record, the id and the amount of this order alone
  | others {first : Option ExecutionReport} {engine : TradingEngine} {counted : ℚ}
      (before : Unacknowledged registry exchange clientOrderId info first engine counted)
      (after : TradingEngine)
      (recorded : after.clientOrderIdToReservation.lookup clientOrderId =
        engine.clientOrderIdToReservation.lookup clientOrderId)
      (known : KnownLive exchange after clientOrderId ↔ KnownLive exchange engine clientOrderId)
      (counts : counted ≤ after.positionManager.reserved info.currency) :
      Unacknowledged registry exchange clientOrderId info first after counted

/-- What the NEW of `report`, received or recovered, takes out of the reserved amount. -/
def newReleases (registry : InstrumentRegistry) (report : ExecutionReport) (currency : String) : ℚ :=
  match registry.get report.instrument with
  | none => 0
  | some info =>
      if HoldsLock report.side report.tradeMode ∧
          currency = lockedCurrencyOf report.instrument report.side then
        lockValue info report.side report.price report.totalVolume
      else 0

/-! ## The first report -/

section Recovery
variable {registry : InstrumentRegistry} {exchange : Exchange} {engine after : TradingEngine}
  {report : ExecutionReport} {clientOrderId : String} {info : ReservationInfo}

theorem KnownLive.of_own (own : OwnReport exchange clientOrderId report)
    (live : report.orderId ∈ engine.liveOrderInstruments) :
    KnownLive exchange engine clientOrderId := by
  obtain ⟨entry, found, named⟩ := own.placed
  exact ⟨report.orderId, live, entry, found, named⟩

theorem finishUpdate_partly (partly : report.status = .partiallyFilled)
    (ran : engine.finishUpdate registry report clientOrderId = some after) :
    after.liveOrderInstruments = engine.liveOrderInstruments ∧
      after.clientOrderIdToReservation = engine.clientOrderIdToReservation ∧
      ∀ currency, after.positionManager.reserved currency =
        engine.positionManager.reserved currency := by
  have fresh : engine.isDuplicateCancel report = false := by
    simp [isDuplicateCancel, partly]
  have updated : engine.updateLiveOrders report = engine := by
    rw [updateLiveOrders, partly]
  have kept : engine.eraseReservation report clientOrderId = engine := by
    rw [eraseReservation, partly]
    exact if_neg fun ends => Bool.false_ne_true ends.2
  rw [finishUpdate, fresh, updated, kept] at ran
  obtain ⟨pm, applied, rfl⟩ := Option.map_eq_some_iff.mp ran
  obtain ⟨instrument, known⟩ := registered_of_fill (Or.inr partly) applied
  obtain ⟨same, appliedSame, reserved⟩ := applyReport_fill_registered known
    engine.positionManager (Or.inr partly)
  obtain rfl := Option.some.inj (appliedSame.symm.trans applied)
  exact ⟨by rw [live_pushReport, live_setPositions],
    by rw [reservations_pushReport, reservations_setPositions],
    fun currency => by rw [positionManager_pushReport, positionManager_setPositions, reserved]⟩

theorem recovered_partly (spot : report.marketType = .spot)
    (partly : report.status = .partiallyFilled)
    (needed : engine.needsRecovery report clientOrderId = true)
    (ran : engine.handleOrderUpdate registry report clientOrderId = some after) :
    report.orderId ∈ after.liveOrderInstruments ∧
      after.clientOrderIdToReservation = engine.clientOrderIdToReservation ∧
      ∀ currency, after.positionManager.reserved currency =
        if HoldsLock report.side report.tradeMode ∧
            currency = lockedCurrencyOf report.instrument report.side then
          max 0 (engine.positionManager.reserved currency - newReleases registry report currency)
        else engine.positionManager.reserved currency := by
  rw [handleOrderUpdate_of_recovery needed, recoverPositions, if_pos spot,
    PositionManager.updateSpotOnNew_eq] at ran
  cases known : registry.get report.instrument with
  | none =>
      rw [known] at ran
      cases ran
  | some instrument =>
      rw [known] at ran
      obtain ⟨live, records, reserved⟩ := finishUpdate_partly partly ran
      refine ⟨?_, ?_, fun currency => ?_⟩
      · rw [live]
        exact Finmap.mem_insert.mpr (Or.inl rfl)
      · rw [records, reservations_insertLive, reservations_setPositions]
      · rw [reserved, newReleases, known]
        dsimp only
        rw [positionManager_insertLive, positionManager_setPositions]
        by_cases holds : HoldsLock report.side report.tradeMode
        · rw [if_pos holds, PositionManager.reserved_lock]
          by_cases same : currency = lockedCurrencyOf report.instrument report.side
          · rw [if_pos same, if_pos ⟨holds, same⟩, if_pos ⟨holds, same⟩, same]
          · rw [if_neg same, if_neg fun both => same both.2]
        · rw [if_neg holds, if_neg fun both => holds both.1]

end Recovery

/-! ## What is still counted before the pass -/

/-- The record and the amount that is left, with the report the order was heard by. -/
structure Stands (registry : InstrumentRegistry) (exchange : Exchange) (clientOrderId : String)
    (info : ReservationInfo) (first : Option ExecutionReport) (engine : TradingEngine)
    (counted : ℚ) : Prop where
  recorded : engine.clientOrderIdToReservation.lookup clientOrderId = some info
  counts : counted ≤ engine.positionManager.reserved info.currency
  unheard : first = none → ¬ KnownLive exchange engine clientOrderId ∧ counted = info.amount
  heard : ∀ report, first = some report → KnownLive exchange engine clientOrderId ∧
    (counted ≤ 0 ↔ info.amount ≤ newReleases registry report info.currency)

section Standing
variable {registry : InstrumentRegistry} {exchange : Exchange} {engine after : TradingEngine}
  {report : ExecutionReport} {clientOrderId : String} {info : ReservationInfo}
  {first : Option ExecutionReport} {counted : ℚ}

/-- The first report of the order releases what its NEW would have released. -/
theorem Stands.recover (stands : Stands registry exchange clientOrderId info none engine counted)
    (named : clientOrderId ≠ "") (positive : 0 < info.amount)
    (own : OwnReport exchange clientOrderId report) (partly : report.status = .partiallyFilled)
    (ran : engine.handleOrderUpdate registry report clientOrderId = some after) :
    Stands registry exchange clientOrderId info (some report) after
      (counted - released engine after info.currency) := by
  obtain ⟨unknown, whole⟩ := stands.unheard rfl
  have enough := stands.counts
  have notLive : report.orderId ∉ engine.liveOrderInstruments :=
    fun live => unknown (KnownLive.of_own own live)
  have needed := needsRecovery_iff.mpr ⟨by rw [partly]; decide, named, notLive,
    Finmap.mem_of_lookup_eq_some stands.recorded⟩
  obtain ⟨live, records, reserved⟩ := recovered_partly own.spot partly needed ran
  refine ⟨by rw [records, stands.recorded], ?_, fun absurdity => (by cases absurdity), ?_⟩
  · rw [released]
    linarith
  · rintro same ⟨⟩
    refine ⟨KnownLive.of_own own live, ?_⟩
    rw [whole] at enough ⊢
    rw [released, reserved]
    split
    · rcases le_total (engine.positionManager.reserved info.currency)
        (newReleases registry report info.currency) with covers | short
      · rw [max_eq_left (sub_nonpos.mpr covers)]
        constructor <;> intro <;> linarith
      · rw [max_eq_right (sub_nonneg.mpr short)]
        constructor <;> intro <;> linarith
    · next other =>
        have nothing : newReleases registry report info.currency = 0 := by
          rw [newReleases]
          cases registry.get report.instrument with
          | none => rfl
          | some instrument => exact if_neg other
        rw [nothing]
        constructor <;> intro <;> linarith

/-- Its later ones release nothing. -/
theorem Stands.again (stands : Stands registry exchange clientOrderId info (some report) engine
      counted) (unique : exchange.NamesOne clientOrderId) {later : ExecutionReport}
    (own : OwnReport exchange clientOrderId later) (partly : later.status = .partiallyFilled)
    (ran : engine.handleOrderUpdate registry later clientOrderId = some after) :
    Stands registry exchange clientOrderId info (some report) after
      (counted - released engine after info.currency) := by
  obtain ⟨⟨id, live, entry, found, same⟩, covers⟩ := stands.heard report rfl
  obtain ⟨other, foundOther, sameOther⟩ := own.placed
  obtain rfl := unique foundOther found sameOther same
  rw [handleOrderUpdate_of_noRecovery (noRecovery_of_live live clientOrderId)] at ran
  obtain ⟨liveAfter, records, reserved⟩ := finishUpdate_partly partly ran
  have nothing : released engine after info.currency = 0 := by
    rw [released, reserved, sub_self]
  rw [nothing, sub_zero]
  refine ⟨by rw [records, stands.recorded], by rw [reserved]; exact stands.counts,
    fun absurdity => (by cases absurdity), ?_⟩
  rintro heard ⟨⟩
  exact ⟨⟨later.orderId, liveAfter ▸ live, entry, found, same⟩, covers⟩

theorem Unacknowledged.stands
    (history : Unacknowledged registry exchange clientOrderId info first engine counted)
    (named : clientOrderId ≠ "") (positive : 0 < info.amount)
    (unique : exchange.NamesOne clientOrderId) :
    Stands registry exchange clientOrderId info first engine counted := by
  induction history with
  | unheard engine recorded unknown counts =>
      exact ⟨recorded, counts, fun _ => ⟨unknown, rfl⟩, fun report absurdity => by cases absurdity⟩
  | heard before report after own partly ran ih =>
      rename_i first engine counted
      cases first with
      | none => exact ih.recover named positive own partly ran
      | some earlier => exact ih.again unique own partly ran
  | others before after recorded known counts ih =>
      refine ⟨recorded.trans ih.recorded, counts, fun none => ?_, fun report same => ?_⟩
      · rw [known]
        exact ih.unheard none
      · rw [known]
        exact ih.heard report same

end Standing

/-! ## What the pass releases -/

def terminalReleases (registry : InstrumentRegistry)
    (queryOrderById : String → String → Option PendingOrderInfo) (clientOrderId currency : String)
    (engine : TradingEngine) (orphan : String × String) : ℚ :=
  match queryOrderById orphan.2 orphan.1,
      replayTerminal registry queryOrderById engine orphan with
  | some answer, some next =>
      if answer.clientOrderId = clientOrderId then released engine next currency else 0
  | _, _ => 0

def missedNewReleases (registry : InstrumentRegistry)
    (remoteById : UnorderedMap String ExecutionReport) (clientOrderId currency : String)
    (engine : TradingEngine) (turn : String) : ℚ :=
  match replayMissedNew registry remoteById engine turn with
  | none => 0
  | some next => if turn = clientOrderId then released engine next currency else 0

/-- What a pass of `ReconcileOrders` takes out of the reserved amount for the order. -/
def passReleases (registry : InstrumentRegistry) (iteration : UnorderedMap.IterationOrder String)
    (remoteSpot remoteSwap : List PendingOrderInfo)
    (queryOrderById : String → String → Option PendingOrderInfo) (clientOrderId currency : String)
    (engine : TradingEngine) : ℚ :=
  let remote := remoteSpot ++ remoteSwap
  let orphans := engine.orphans remote (iteration.enumerate engine.liveOrderInstruments.keys)
  let remoteById := remoteByClientOrderId remote
  Runs.total (replayTerminal registry queryOrderById)
      (terminalReleases registry queryOrderById clientOrderId currency) engine orphans +
    match Runs.run (replayTerminal registry queryOrderById) engine orphans with
    | none => 0
    | some middle =>
        Runs.total (replayMissedNew registry remoteById)
          (missedNewReleases registry remoteById clientOrderId currency) middle
          (iteration.enumerate middle.clientOrderIdToReservation.keys)

/-- The record is gone, and of the amount that was still counted before the pass
nothing is left. -/
structure ReservationDropped (after : TradingEngine) (clientOrderId : String)
    (counted passReleased : ℚ) : Prop where
  record : clientOrderId ∉ after.clientOrderIdToReservation
  uncounted : counted - passReleased ≤ 0

section Pass
variable {registry : InstrumentRegistry} {exchange : Exchange} {engine : TradingEngine}
  {remoteSpot remoteSwap : List PendingOrderInfo}
  {queryOrderById : String → String → Option PendingOrderInfo} {clientOrderId : String}

/-- The fates of an order that is not pending any more and was not refused. -/
def FilledOrCancelled (exchange : Exchange) (clientOrderId : String) : Prop :=
  ∀ id entry, exchange.lookup id = some entry → entry.clientOrderId = clientOrderId →
    entry.report.status = .filled ∨ entry.report.status = .cancelled

theorem FilledOrCancelled.not_pending (ended : FilledOrCancelled exchange clientOrderId)
    {id : String} {entry : PendingOrderInfo} (found : exchange.lookup id = some entry)
    (same : entry.clientOrderId = clientOrderId) : isPending entry.report.status = false := by
  rcases ended id entry found same with filled | cancelled
  · rw [filled]
    rfl
  · rw [cancelled]
    rfl

theorem applyReport_ended_reserved {report : ExecutionReport} {info : InstrumentInfo}
    (known : registry.get report.instrument = some info) (pm : PositionManager)
    (ended : report.status = .filled ∨ report.status = .cancelled) :
    ∃ after, applyReport registry pm report = some after ∧
      ∀ currency, after.reserved currency = pm.reserved currency := by
  rcases ended with filled | cancelled
  · exact applyReport_fill_registered known pm (Or.inl filled)
  · cases market : report.marketType with
    | spot =>
        rw [applyReport_spotCancel market cancelled known,
          PositionManager.updateSpotOnCancel_eq _ _ _ _ cancelled, known]
        split
        · refine ⟨_, rfl, fun currency => ?_⟩
          rw [PositionManager.reserved_untrackSpot]
          split <;> rfl
        · exact ⟨_, rfl, fun _ => rfl⟩
    | swap =>
        rw [applyReport, cancelled]
        simp only [market, if_true]
        exact ⟨_, rfl, fun _ => rfl⟩

/-- The first loop releases nothing for an order that was filled or cancelled. -/
theorem terminalReleases_total (currency : String) (orphanList : List (String × String)) :
    ∀ engine : TradingEngine, (orphanList.map Prod.fst).Nodup →
      (∀ orphan ∈ orphanList, orphan.1 ∈ engine.liveOrderInstruments ∧ ∃ entry,
        EndedOrphan registry queryOrderById orphan entry ∧
          (entry.clientOrderId = clientOrderId →
            entry.report.status = .filled ∨ entry.report.status = .cancelled)) →
      Runs.total (replayTerminal registry queryOrderById)
        (terminalReleases registry queryOrderById clientOrderId currency) engine orphanList = 0 := by
  induction orphanList with
  | nil => exact fun _ _ _ => rfl
  | cons orphan rest ih =>
      intro engine distinct endedAll
      rw [List.map_cons, List.nodup_cons] at distinct
      obtain ⟨live, entry, ended, fate⟩ := endedAll orphan List.mem_cons_self
      obtain ⟨next, stepped, liveNext, _⟩ := replayTerminal_step ended live
      have later := ih next distinct.2 fun other member => by
        obtain ⟨otherLive, otherEnded⟩ := endedAll other (List.mem_cons_of_mem _ member)
        refine ⟨(liveNext other.1).mpr ⟨otherLive, fun same => distinct.1 ?_⟩, otherEnded⟩
        rw [← same]
        exact List.mem_map_of_mem member
      rw [Runs.total_cons _ _ rest stepped, later, add_zero, terminalReleases, ended.answer, stepped]
      dsimp only
      split
      · next own =>
          obtain ⟨info, known⟩ := ended.registered
          obtain ⟨pm, applied, reserved⟩ := applyReport_ended_reserved known
            engine.positionManager (fate own)
          rw [← ended.orderId] at live
          obtain ⟨after, ran, effect⟩ := handleOrderUpdate_live entry.clientOrderId live applied
          rw [replayTerminal, ended.answer] at stepped
          simp only [ended.ended, Bool.false_eq_true, if_false] at stepped
          obtain rfl := Option.some.inj (ran.symm.trans stepped)
          rw [released, effect.positions, reserved, sub_self]
      · rfl

theorem absent_of_ended
    (answers : TrueAnswers exchange engine remoteSpot remoteSwap queryOrderById)
    (ended : FilledOrCancelled exchange clientOrderId) :
    (remoteByClientOrderId (remoteSpot ++ remoteSwap)).lookup clientOrderId = none := by
  rw [Option.eq_none_iff_forall_ne_some]
  intro report found
  obtain ⟨entry, member, sameClient, _⟩ := (lookup_remoteByClientOrderId _ _).1 report found
  obtain ⟨known, pending⟩ := (mem_remote answers entry).mp member
  rw [ended.not_pending known sameClient] at pending
  cases pending

theorem passReleases_eq_zero (iteration : UnorderedMap.IterationOrder String)
    (answers : TrueAnswers exchange engine remoteSpot remoteSwap queryOrderById)
    (wellFormed : exchange.WellFormed registry) (ended : FilledOrCancelled exchange clientOrderId)
    (currency : String) : passReleases registry iteration remoteSpot remoteSwap queryOrderById
      clientOrderId currency engine = 0 := by
  have isOrphan := orphans_ended answers wellFormed
    (fun id => (iteration.mem_iff engine.liveOrderInstruments.keys id).trans Finmap.mem_keys)
  have first := @terminalReleases_total registry queryOrderById clientOrderId currency _ engine
    ((orphans_sublist engine (remoteSpot ++ remoteSwap) _).nodup
      (iteration.nodup engine.liveOrderInstruments.keys)) fun orphan member => by
      obtain ⟨present, entry, known, orphaned⟩ := (isOrphan orphan).mp member
      exact ⟨Finmap.mem_of_lookup_eq_some present, entry, orphaned, ended orphan.1 entry known⟩
  rw [passReleases, first, zero_add]
  split
  · rfl
  · refine Runs.total_eq_zero _ _ (fun state turn next stepped => ?_) _ _
    rw [missedNewReleases, stepped]
    dsimp only
    split
    · next own =>
        rw [replayMissedNew, own, absent_of_ended answers ended] at stepped
        cases stepped
        exact sub_self _
    · rfl

theorem record_kept_iff {after : TradingEngine}
    (answers : TrueAnswers exchange engine remoteSpot remoteSwap queryOrderById)
    (effect : PassEffect exchange engine after
      (remoteByClientOrderId (remoteSpot ++ remoteSwap))) (named : clientOrderId ≠ "")
    (recorded : clientOrderId ∈ engine.clientOrderIdToReservation)
    (ended : FilledOrCancelled exchange clientOrderId) :
    clientOrderId ∈ after.clientOrderIdToReservation ↔
      ¬ KnownLive exchange engine clientOrderId := by
  rw [effect.reservations clientOrderId (absent_of_ended answers ended)]
  constructor
  · rintro ⟨_, kept⟩ ⟨id, live, entry, known, sameClient⟩
    exact kept ⟨named, id, live, entry, known, ended.not_pending known sameClient, sameClient⟩
  · refine fun unknown => ⟨recorded, ?_⟩
    rintro ⟨_, id, live, entry, known, _, sameClient⟩
    exact unknown ⟨id, live, entry, known, sameClient⟩

/-- The pass drops the reservation of an order that was never sent, or was filled
or cancelled, exactly when a partial fill of it had been handled before and its
recovery has released at least the recorded amount. -/
theorem reservation_dropped_iff (iteration : UnorderedMap.IterationOrder String)
    (answers : TrueAnswers exchange engine remoteSpot remoteSwap queryOrderById)
    (wellFormed : exchange.WellFormed registry) {info : ReservationInfo}
    {first : Option ExecutionReport} {counted : ℚ}
    (history : Unacknowledged registry exchange clientOrderId info first engine counted)
    (named : clientOrderId ≠ "") (unique : exchange.NamesOne clientOrderId)
    (positive : 0 < info.amount) (ended : FilledOrCancelled exchange clientOrderId) :
    ∃ after, engine.reconcileOrders registry iteration remoteSpot remoteSwap queryOrderById =
        some after ∧
      (ReservationDropped after clientOrderId counted (passReleases registry iteration remoteSpot
          remoteSwap queryOrderById clientOrderId info.currency engine) ↔
        ∃ report, first = some report ∧
          info.amount ≤ newReleases registry report info.currency) := by
  obtain ⟨after, ran, effect⟩ := reconcileOrders_effect iteration answers wellFormed
  have stands := history.stands named positive unique
  have kept := record_kept_iff answers effect named
    (Finmap.mem_of_lookup_eq_some stands.recorded) ended
  refine ⟨after, ran, ?_⟩
  rw [passReleases_eq_zero iteration answers wellFormed ended]
  constructor
  · rintro ⟨gone, uncounted⟩
    rw [sub_zero] at uncounted
    cases first with
    | none => exact absurd (kept.mpr (stands.unheard rfl).1) gone
    | some report => exact ⟨report, rfl, (stands.heard report rfl).2.mp uncounted⟩
  · rintro ⟨report, heard, covers⟩
    obtain ⟨known, counts⟩ := stands.heard report heard
    refine ⟨fun present => kept.mp present known, ?_⟩
    rw [sub_zero]
    exact counts.mpr covers

end Pass

/-! ## Filled while the connection was down -/

def dispatchedBuy : TradingEngine :=
  { positionManager := { spotReserved := Finmap.insert "USDT" 300 ∅ }
    clientOrderIdToReservation := Finmap.insert "cts6"
      { instrument := "BTC-USDT", currency := "USDT", amount := 300, side := .buy,
        tradeMode := .cash } ∅ }

/-- The first unit of three is filled: the one report that came through. -/
def firstOfThree : ExecutionReport :=
  { orderId := "31", instrument := "BTC-USDT", status := .partiallyFilled, price := 100,
    totalVolume := 3, filledVolume := 1, avgFillPrice := 100 }

def filledUnseen : PendingOrderInfo :=
  { report := { firstOfThree with status := .filled, filledVolume := 3 }, clientOrderId := "cts6" }

def filledUnseenExchange : Exchange := Finmap.insert "31" filledUnseen ∅

theorem filledUnseenExchange_lookup {orderId : String} {entry : PendingOrderInfo}
    (known : filledUnseenExchange.lookup orderId = some entry) :
    orderId = "31" ∧ entry = filledUnseen := by
  rw [filledUnseenExchange, UnorderedMap.lookup_insert_ite] at known
  split at known
  · next same => exact ⟨same, (Option.some.inj known).symm⟩
  · cases known

theorem filledUnseenExchange_wellFormed : filledUnseenExchange.WellFormed btcUsdtRegistry := by
  refine ⟨fun known => ?_, fun known => ?_, fun known => ?_⟩
  · rw [(filledUnseenExchange_lookup known).1, (filledUnseenExchange_lookup known).2]
    rfl
  · rw [(filledUnseenExchange_lookup known).2]
    decide
  · rw [(filledUnseenExchange_lookup known).2]
    exact ⟨btcUsdt, by decide⟩

theorem dispatchedBuy_unheard (exchange : Exchange) :
    Unacknowledged btcUsdtRegistry exchange "cts6"
      { instrument := "BTC-USDT", currency := "USDT", amount := 300, side := .buy,
        tradeMode := .cash } none dispatchedBuy 300 :=
  Unacknowledged.unheard dispatchedBuy (by decide +kernel) (fun ⟨_, live, _⟩ => nomatch live)
    (by decide +kernel)

theorem filledUnseen_answers {engine : TradingEngine}
    (live : engine.liveOrderInstruments = Finmap.insert "31" "BTC-USDT" ∅) :
    TrueAnswers filledUnseenExchange engine [] [] fun _ _ => some filledUnseen := by
  have ended : ∀ entry : PendingOrderInfo,
      filledUnseenExchange.lookup entry.report.orderId = some entry →
        isPending entry.report.status = false := by
    intro entry known
    rw [(filledUnseenExchange_lookup known).2]
    rfl
  refine ⟨fun entry => iff_of_false (by simp) ?_, fun entry => iff_of_false (by simp) ?_,
    fun asked => ?_⟩
  · rintro ⟨known, pending, _⟩
    rw [ended entry known] at pending
    cases pending
  · rintro ⟨known, pending, _⟩
    rw [ended entry known] at pending
    cases pending
  · rw [live, UnorderedMap.lookup_insert_ite] at asked
    split at asked
    · next same => exact ⟨filledUnseen, by rw [same]; decide +kernel, rfl⟩
    · cases asked

/-- The recovery of the partial fill releases the 300, and the pass drops the record. -/
theorem reservation_dropped_iff_partlyHeard : ∃ heard after,
    dispatchedBuy.handleOrderUpdate btcUsdtRegistry firstOfThree "cts6" = some heard ∧
      heard.reconcileOrders btcUsdtRegistry UnorderedMap.IterationOrder.ofToList [] []
        (fun _ _ => some filledUnseen) = some after ∧
      ReservationDropped after "cts6" (300 - released dispatchedBuy heard "USDT")
        (passReleases btcUsdtRegistry UnorderedMap.IterationOrder.ofToList [] []
          (fun _ _ => some filledUnseen) "cts6" "USDT" heard) := by
  obtain ⟨heard, ran⟩ := Option.isSome_iff_exists.mp (by decide +kernel :
    (dispatchedBuy.handleOrderUpdate btcUsdtRegistry firstOfThree "cts6").isSome = true)
  have observed : (dispatchedBuy.handleOrderUpdate btcUsdtRegistry firstOfThree "cts6").map
      (·.liveOrderInstruments) = some (Finmap.insert "31" "BTC-USDT" ∅) := by decide +kernel
  rw [ran, Option.map_some, Option.some.injEq] at observed
  have own : OwnReport filledUnseenExchange "cts6" firstOfThree :=
    ⟨⟨filledUnseen, by decide +kernel, rfl⟩, rfl⟩
  obtain ⟨after, passed, dropped⟩ := reservation_dropped_iff UnorderedMap.IterationOrder.ofToList
    (filledUnseen_answers observed) filledUnseenExchange_wellFormed
    ((dispatchedBuy_unheard filledUnseenExchange).heard firstOfThree heard own rfl ran)
    (by decide)
    (fun first second _ _ => by
      rw [(filledUnseenExchange_lookup first).1, (filledUnseenExchange_lookup second).1])
    (by decide +kernel)
    (fun id entry known _ => Or.inl (by rw [(filledUnseenExchange_lookup known).2]; rfl))
  exact ⟨heard, after, ran, passed, dropped.mpr ⟨firstOfThree, rfl, by decide +kernel⟩⟩

/-- The record of an order that was never sent survives the pass. -/
theorem reservation_outlives_order :
    ¬ ∀ (registry : InstrumentRegistry) (iteration : UnorderedMap.IterationOrder String)
        (exchange : Exchange) (engine : TradingEngine)
        (remoteSpot remoteSwap : List PendingOrderInfo)
        (queryOrderById : String → String → Option PendingOrderInfo) (clientOrderId : String)
        (info : ReservationInfo) (first : Option ExecutionReport) (counted : ℚ),
      TrueAnswers exchange engine remoteSpot remoteSwap queryOrderById →
      exchange.WellFormed registry →
      Unacknowledged registry exchange clientOrderId info first engine counted →
      clientOrderId ≠ "" → exchange.NamesOne clientOrderId → 0 < info.amount →
      FilledOrCancelled exchange clientOrderId →
      ∃ after, engine.reconcileOrders registry iteration remoteSpot remoteSwap queryOrderById =
          some after ∧
        ReservationDropped after clientOrderId counted (passReleases registry iteration remoteSpot
          remoteSwap queryOrderById clientOrderId info.currency engine) := by
  intro claim
  have answers : TrueAnswers ∅ dispatchedBuy [] [] fun _ _ => none :=
    ⟨fun _ => by simp, fun _ => by simp, fun live => nomatch live⟩
  have wellFormed : Exchange.WellFormed btcUsdtRegistry ∅ :=
    ⟨(fun known => nomatch known), (fun known => nomatch known), (fun known => nomatch known)⟩
  obtain ⟨after, ran, dropped⟩ := claim btcUsdtRegistry UnorderedMap.IterationOrder.ofToList ∅
    dispatchedBuy [] [] (fun _ _ => none) "cts6" _ none 300 answers wellFormed
    (dispatchedBuy_unheard ∅) (by decide) (fun known _ _ _ => nomatch known) (by decide +kernel)
    (fun _ _ known => nomatch known)
  obtain ⟨same, ranSame, effect⟩ := reconcileOrders_effect UnorderedMap.IterationOrder.ofToList
    answers wellFormed
  obtain rfl := Option.some.inj (ranSame.symm.trans ran)
  refine dropped.record ((effect.reservations "cts6" rfl).mpr ⟨by decide, ?_⟩)
  rintro ⟨_, _, live, _⟩
  exact Finmap.notMem_empty live

end CryptoTrading
