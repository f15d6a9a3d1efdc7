import CryptoTrading.TradingEngine.Ledger

/-! # No overdraft

What `GetEffectiveAvailableSpot` is for.  When no order is emitted for more than
the effective available amount of its currency, and the exchange takes its fees
out of what a fill brings in, then the reserved amount of a currency is at every
moment covered by what is available of it, whatever the interleaving of orders,
dispatcher and reports. -/
set_option autoImplicit false

namespace CryptoTrading

open TradingEngine

namespace PositionManager

/-- No currency has less to spend than before. -/
def Affords (pm after : PositionManager) : Prop :=
  ∀ currency, pm.getEffectiveAvailableSpot currency ≤ after.getEffectiveAvailableSpot currency

/-- The currency that a fill brings in, and how much of it. -/
def receivedCurrency (report : ExecutionReport) : String :=
  match report.side with
  | .buy => extractCurrency .base report.instrument
  | .sell => extractCurrency .quote report.instrument

def received (report : ExecutionReport) (incremental : ℚ) : ℚ :=
  match report.side with
  | .buy => incremental
  | .sell => report.avgFillPrice * incremental

/-- A fee that is charged is taken out of what the fill brings in. -/
structure FairFill (report : ExecutionReport) (incremental : ℚ) : Prop where
  priced : 0 ≤ report.avgFillPrice
  fee : report.fee < 0 →
    report.feeCurrency = receivedCurrency report ∧ -report.fee ≤ received report incremental

section Affords
variable {registry : InstrumentRegistry} {report : ExecutionReport} {info : InstrumentInfo}
  {pm middle after : PositionManager}

theorem affords_of_eq (available : ∀ currency,
    (after.spot currency).available = (pm.spot currency).available)
    (reserved : ∀ currency, after.reserved currency = pm.reserved currency) :
    Affords pm after := by
  intro currency
  rw [getEffectiveAvailableSpot, getEffectiveAvailableSpot, available, reserved]

theorem Affords.trans (first : Affords pm middle) (second : Affords middle after) :
    Affords pm after := fun currency => (first currency).trans (second currency)

theorem fillCredit_eq (incremental : ℚ) (currency : String) :
    fillCredit report incremental currency =
      if currency = receivedCurrency report then received report incremental else 0 := by
  rw [fillCredit, receivedCurrency, received]
  cases report.side <;> rfl

theorem received_nonneg {incremental : ℚ} (fair : FairFill report incremental)
    (added : 0 ≤ incremental) : 0 ≤ received report incremental := by
  rw [received]
  cases report.side with
  | buy => exact added
  | sell => exact mul_nonneg fair.priced added

/-- What a fair fill adds to a currency pays for its fee. -/
theorem credit_nonneg {incremental : ℚ} (fair : FairFill report incremental)
    (added : 0 ≤ incremental) (currency : String) :
    0 ≤ fillCredit report incremental currency + feeCredit report currency := by
  have brings := received_nonneg fair added
  rw [fillCredit_eq, feeCredit]
  by_cases charged : report.fee < 0
  · obtain ⟨taken, bounded⟩ := fair.fee charged
    rw [taken]
    by_cases here : currency = receivedCurrency report
    · rw [if_pos here]
      split <;> linarith
    · rw [if_neg here, if_neg fun both => here both.1]
      exact (add_zero _).ge
  · have credited : 0 ≤ report.fee := not_lt.mp charged
    split <;> split <;> linarith

theorem affords_lock {currency : String} {amount : ℚ}
    (reserved : amount ≤ pm.reserved currency) : Affords pm (pm.lock currency amount) := by
  intro other
  rw [getEffectiveAvailableSpot, getEffectiveAvailableSpot, available_lock, reserved_lock]
  split
  · next here =>
      rw [here, max_eq_right (sub_nonneg.mpr reserved)]
      linarith
  · linarith

theorem affords_release {currency : String} {amount : ℚ} (nonneg : 0 ≤ amount)
    (orderId : String) : Affords pm ((pm.release currency amount).untrackSpot orderId) := by
  intro other
  rw [getEffectiveAvailableSpot, getEffectiveAvailableSpot, spot_untrackSpot, available_release,
    reserved_untrackSpot, reserved_release]
  split <;> linarith

theorem affords_releaseRejected {currency : String} {amount : ℚ} (nonneg : 0 ≤ amount)
    (reserved : 0 ≤ pm.reserved currency) :
    Affords pm (pm.releaseRejected currency amount) := by
  intro other
  rw [getEffectiveAvailableSpot, getEffectiveAvailableSpot]
  by_cases covers : pm.FrozenCovers currency amount
  · obtain ⟨available, -, same⟩ := releaseRejected_frozen covers other
    rw [available, same]
    split <;> linarith
  · obtain ⟨same, released⟩ := releaseRejected_reserved covers other
    rw [same, released]
    split
    · next here =>
        have shrinks : max 0 (pm.reserved currency - amount) ≤ pm.reserved currency :=
          max_le reserved (sub_le_self _ nonneg)
        rw [here]
        linarith
    · exact le_refl _

theorem affords_fill {tradeMode : TradeMode} (known : registry.get report.instrument = some info)
    (fills : report.status = .filled ∨ report.status = .partiallyFilled)
    (fair : FairFill report (decode (pm.spotApplied report) info.volumePrecision))
    (ran : pm.updateSpotOnFill registry report tradeMode = some after) : Affords pm after := by
  obtain ⟨same, ranSame, effect⟩ := updateSpotOnFill_applied pm tradeMode known fills
  obtain rfl := Option.some.inj (ranSame.symm.trans ran)
  have added : 0 ≤ decode (pm.spotApplied report) info.volumePrecision :=
    (decode_nonneg _).mpr (le_max_left _ _)
  intro currency
  rw [getEffectiveAvailableSpot, getEffectiveAvailableSpot, effect.available, effect.reserved]
  have credit := credit_nonneg fair added currency
  split
  · linarith
  · next idle =>
      rw [le_antisymm (not_lt.mp idle) added, fillCredit_zero]
      linarith

/-- Whether the reserved amount of its currency covers the lock of a report. -/
def LockReserved (info : InstrumentInfo) (pm : PositionManager) (report : ExecutionReport) :
    Prop :=
  HoldsLock report.side report.tradeMode →
    lockValue info report.side report.price report.totalVolume ≤
      pm.reserved (lockedCurrencyOf report.instrument report.side)

theorem affords_new (known : registry.get report.instrument = some info)
    (reserved : LockReserved info pm report)
    (ran : pm.updateSpotOnNew registry report report.tradeMode = some after) :
    Affords pm after := by
  rw [updateSpotOnNew_eq, known, Option.map_some] at ran
  cases ran
  split
  · next holds => exact affords_lock (reserved holds)
  · exact affords_of_eq (fun _ => rfl) fun _ => rfl

theorem affords_applyReport (spot : report.marketType = .spot)
    (known : registry.get report.instrument = some info) (price : 0 ≤ report.price)
    (volume : 0 ≤ report.totalVolume) (reserved : ∀ currency, 0 ≤ pm.reserved currency)
    (isNew : report.status = .new → LockReserved info pm report)
    (fair : report.status = .filled ∨ report.status = .partiallyFilled →
      FairFill report (decode (pm.spotApplied report) info.volumePrecision))
    (ran : applyReport registry pm report = some after) : Affords pm after := by
  have applied := applyReport_spot spot ran
  cases statusCase : report.status with
  | new =>
      rw [statusCase] at applied
      exact affords_new known (isNew statusCase) applied
  | filled =>
      rw [statusCase] at applied
      exact affords_fill known (.inl statusCase) (fair (.inl statusCase)) applied
  | partiallyFilled =>
      rw [statusCase] at applied
      exact affords_fill known (.inr statusCase) (fair (.inr statusCase)) applied
  | cancelled =>
      rw [statusCase] at applied
      dsimp only at applied
      rw [updateSpotOnCancel_eq _ _ _ _ statusCase, known, Option.map_some] at applied
      split at applied
      · next remains =>
          cases applied
          split
          · exact affords_release (lockValue_nonneg info report.side price remains.le) _
          · exact affords_of_eq (fun _ => rfl) fun _ => rfl
      · cases applied
        exact affords_of_eq (fun _ => rfl) fun _ => rfl
  | rejected =>
      rw [statusCase] at applied
      dsimp only at applied
      rw [updateSpotOnRejected_eq, known, Option.map_some] at applied
      cases applied
      split
      · exact affords_releaseRejected (lockValue_nonneg info report.side price volume) (reserved _)
      · exact affords_of_eq (fun _ => rfl) fun _ => rfl
  | cancelFailed =>
      rw [statusCase] at applied
      subst applied
      exact affords_of_eq (fun _ => rfl) fun _ => rfl

end Affords

end PositionManager

open PositionManager

/-! ## A report of an own order -/

section Update
variable {registry : InstrumentRegistry} {report : ExecutionReport} {info : InstrumentInfo}
  {engine after : TradingEngine} {clientOrderId : String}

theorem affords_recoverMissedNew (spot : report.marketType = .spot)
    (known : registry.get report.instrument = some info)
    (reserved : ∀ currency, 0 ≤ engine.positionManager.reserved currency)
    (lock : engine.needsRecovery report clientOrderId = true →
      LockReserved info engine.positionManager report)
    (ran : engine.recoverMissedNew registry report clientOrderId = some after) :
    Affords engine.positionManager after.positionManager ∧
      (∀ currency, 0 ≤ after.positionManager.reserved currency) ∧
      after.positionManager.spotApplied report = engine.positionManager.spotApplied report := by
  rw [recoverMissedNew] at ran
  split at ran
  · next needed =>
      obtain ⟨recovered, positions, rfl⟩ := Option.map_eq_some_iff.mp ran
      rw [recoverPositions, if_pos spot] at positions
      obtain ⟨pm, locked, rfl⟩ := Option.map_eq_some_iff.mp positions
      rw [positionManager_insertLive, positionManager_setPositions]
      refine ⟨affords_new known (lock needed) locked, fun currency => ?_, ?_⟩
      · rw [updateSpotOnNew_eq, known, Option.map_some] at locked
        cases locked
        split
        · rw [reserved_lock]
          split
          · exact le_max_left _ _
          · exact reserved currency
        · exact reserved currency
      · rw [spotApplied, spotApplied, spotIncrement, spotIncrement,
          (updateSpotOnNew_sameFills locked).spotTracker]
  · cases ran
    exact ⟨affords_of_eq (fun _ => rfl) fun _ => rfl, reserved, rfl⟩

theorem affords_finishUpdate (spot : report.marketType = .spot)
    (known : registry.get report.instrument = some info) (price : 0 ≤ report.price)
    (volume : 0 ≤ report.totalVolume)
    (reserved : ∀ currency, 0 ≤ engine.positionManager.reserved currency)
    (isNew : report.status = .new → LockReserved info engine.positionManager report)
    (fair : report.status = .filled ∨ report.status = .partiallyFilled →
      FairFill report (decode (engine.positionManager.spotApplied report) info.volumePrecision))
    (ran : engine.finishUpdate registry report clientOrderId = some after) :
    Affords engine.positionManager after.positionManager := by
  rw [finishUpdate] at ran
  split at ran
  · cases ran
    exact affords_of_eq (fun _ => rfl) fun _ => rfl
  · obtain ⟨pm, applied, rfl⟩ := Option.map_eq_some_iff.mp ran
    rw [positionManager_pushReport, positionManager_setPositions]
    exact affords_applyReport spot known price volume reserved isNew fair applied

theorem affords_handleOrderUpdate (spot : report.marketType = .spot)
    (known : registry.get report.instrument = some info) (price : 0 ≤ report.price)
    (volume : 0 ≤ report.totalVolume)
    (reserved : ∀ currency, 0 ≤ engine.positionManager.reserved currency)
    (lock : report.status = .new ∨ engine.needsRecovery report clientOrderId = true →
      LockReserved info engine.positionManager report)
    (fair : report.status = .filled ∨ report.status = .partiallyFilled →
      FairFill report (decode (engine.positionManager.spotApplied report) info.volumePrecision))
    (ran : engine.handleOrderUpdate registry report clientOrderId = some after) :
    Affords engine.positionManager after.positionManager := by
  rw [handleOrderUpdate_eq] at ran
  obtain ⟨recovered, recovery, finished⟩ := Option.bind_eq_some_iff.mp ran
  obtain ⟨locks, stillReserved, sameApplied⟩ :=
    affords_recoverMissedNew spot known reserved (fun needed => lock (.inr needed)) recovery
  refine locks.trans (affords_finishUpdate spot known price volume stillReserved
    (fun isNew => ?_) (fun fills => ?_) finished)
  · rw [recoverMissedNew, noRecovery_of_new isNew] at recovery
    cases recovery
    exact lock (.inl isNew)
  · rw [sameApplied]
    exact fair fills

end Update

/-! ## Runs within the means -/

/-- A step that emits no order for more than is effectively available, and whose
fills pay their fees. -/
inductive CarefulStep (registry : InstrumentRegistry) (start : TradingEngine) :
    World → World → Prop where
  | emit (world : World) (order : SpotLimit) (info : InstrumentInfo) (after : TradingSystem)
      (valid : ValidOrder registry order)
      (room : world.system.signalRing.length < signalRingCapacity)
      (known : registry.get order.instrument = some info)
      (affordable : order.reserves info ≤
        world.system.positions.getEffectiveAvailableSpot order.currency)
      (ran : order.emit registry world.system = some after) :
      CarefulStep registry start world
        { world with system := after, queue := world.queue ++ [order] }
  | idle (world : World) (clientOrderId opId : String) (after : TradingSystem)
      (empty : world.queue = [])
      (ran : world.system.dispatch registry clientOrderId opId = some after) :
      CarefulStep registry start world { world with system := after }
  | dispatch (world : World) (order : SpotLimit) (rest : List SpotLimit)
      (clientOrderId opId : String) (after : TradingSystem) (head : world.queue = order :: rest)
      (named : clientOrderId ≠ "") (own : ∀ sent ∈ world.sent, sent.clientOrderId ≠ clientOrderId)
      (ran : world.system.dispatch registry clientOrderId opId = some after) :
      CarefulStep registry start world
        { system := after, queue := rest
          sent := { order := order, clientOrderId := clientOrderId, progress := .silent } ::ₘ
            world.sent }
  | report (world : World) (sent : Sent) (others : Multiset Sent) (report : ExecutionReport)
      (info : InstrumentInfo) (after : TradingEngine) (member : world.sent = sent ::ₘ others)
      (known : registry.get sent.order.instrument = some info)
      (next : NextReport info (Fresh start world) sent.order sent.progress report)
      (fair : report.status = .filled ∨ report.status = .partiallyFilled →
        FairFill report
          (decode (world.system.positions.spotApplied report) info.volumePrecision))
      (ran : world.system.engine.handleOrderUpdate registry report sent.clientOrderId =
        some after) :
      CarefulStep registry start world
        { world with
          system := { world.system with engine := after }
          sent := { sent with progress := Progress.next report } ::ₘ others }

section Careful
variable {registry : InstrumentRegistry} {start : TradingEngine} {world after : World}

theorem CarefulStep.step (careful : CarefulStep registry start world after) :
    Step registry start world after := by
  cases careful with
  | emit order info after valid room known affordable ran =>
      exact .emit world order after valid room ran
  | idle clientOrderId opId after empty ran =>
      exact .idle world clientOrderId opId after empty ran
  | dispatch order rest clientOrderId opId after head named own ran =>
      exact .dispatch world order rest clientOrderId opId after head named own ran
  | report sent others report info after member known next fair ran =>
      exact .report world sent others report info after member known next ran

theorem LedgerInv.reserved_nonneg (inv : LedgerInv registry start world) (currency : String) :
    0 ≤ world.system.positions.reserved currency := by
  rw [inv.reserved, World.outstanding]
  refine add_nonneg (List.sum_nonneg fun amount listed => ?_)
    (Multiset.sum_nonneg fun amount listed => ?_)
  · obtain ⟨order, queued, rfl⟩ := List.mem_map.mp listed
    exact reservedFor_nonneg (inv.queued order queued) currency .silent
  · obtain ⟨sent, present, rfl⟩ := Multiset.mem_map.mp listed
    exact reservedFor_nonneg (inv.valid sent present) currency sent.progress

theorem LedgerInv.lockReserved (inv : LedgerInv registry start world) {sent : Sent}
    (present : sent ∈ world.sent) {info : InstrumentInfo} {report : ExecutionReport}
    (known : registry.get sent.order.instrument = some info)
    (next : NextReport info (Fresh start world) sent.order sent.progress report)
    (first : report.status = .new ∨
      world.system.engine.needsRecovery report sent.clientOrderId = true) :
    LockReserved info world.system.positions report := by
  intro holds
  have own := next.echo.holds.mp holds
  have silent : sent.progress = .silent := by
    have stage := next.stage
    have knows := inv.known sent present
    cases progress : sent.progress with
    | silent => rfl
    | live orderId filled =>
        rw [progress] at stage
        rw [SentKnown, progress] at knows
        rcases first with isNew | needed
        · exact absurd isNew stage.2.1
        · refine absurd ?_ (needsRecovery_iff.mp needed).2.2.1
          rw [stage.1]
          exact (knows.2.2 own).1
    | ended orderId =>
        rw [progress] at stage
        exact stage.elim
  have covered := inv.reservedFor_le present sent.order.currency
  rw [reservedFor, known, silent] at covered
  dsimp only at covered
  rw [if_pos rfl, SpotLimit.outstanding, SpotLimit.reserves, if_pos own] at covered
  rw [next.echo.side, next.echo.price, next.echo.totalVolume, next.echo.instrument]
  exact covered

theorem CarefulStep.funded (careful : CarefulStep registry start world after)
    (inv : LedgerInv registry start world)
    (funded : ∀ currency, 0 ≤ world.system.positions.getEffectiveAvailableSpot currency)
    (currency : String) : 0 ≤ after.system.positions.getEffectiveAvailableSpot currency := by
  cases careful with
  | emit order info after valid room known affordable ran =>
      obtain ⟨same, ranSame, effect⟩ := emit_effect known world.system
      obtain rfl := Option.some.inj (ranSame.symm.trans ran)
      have before := funded currency
      rw [getEffectiveAvailableSpot] at before affordable ⊢
      rw [effect.spot, effect.reserved]
      split
      · next here =>
          rw [here]
          linarith
      · linarith
  | idle clientOrderId opId after empty ran =>
      have ring : world.system.signalRing = [] := by
        rw [inv.ring, empty]
        rfl
      rw [TradingSystem.dispatch, ring] at ran
      rw [← Option.some.inj ran]
      exact funded currency
  | dispatch order rest clientOrderId opId after head named own ran =>
      have valid := inv.queued order (by rw [head]; exact List.mem_cons_self)
      obtain ⟨info, known⟩ := valid.known
      have ring : world.system.signalRing = order.signal :: rest.map SpotLimit.signal := by
        rw [inv.ring, head, List.map_cons]
      obtain ⟨same, ranSame, effect, -⟩ :=
        dispatch_effect known valid.fits ring clientOrderId opId
      obtain rfl := Option.some.inj (ranSame.symm.trans ran)
      rw [effect.positions]
      exact funded currency
  | report sent others report info after member known next fair ran =>
      have present : sent ∈ world.sent := by
        rw [member]
        exact Multiset.mem_cons_self _ _
      have valid := inv.valid sent present
      refine (funded currency).trans (affords_handleOrderUpdate next.echo.marketType
        (next.echo.known known) ?_ ?_ inv.reserved_nonneg
        (inv.lockReserved present known next) fair ran currency)
      · rw [next.echo.price]
        exact valid.price.le
      · rw [next.echo.totalVolume]
        exact valid.volume.le

/-- In a run that keeps within its means, the reserved amount of a currency,
which is that of the orders not heard of yet, never exceeds what is available. -/
theorem never_overdrawn {first : World} (begun : Start first)
    (funded : ∀ currency, 0 ≤ first.system.positions.getEffectiveAvailableSpot currency)
    (ran : Relation.ReflTransGen (CarefulStep registry first.system.engine) first world)
    (currency : String) :
    0 ≤ world.outstanding registry currency ∧
      world.system.positions.reserved currency = world.outstanding registry currency ∧
      world.outstanding registry currency ≤
        (world.system.positions.spot currency).available := by
  have kept : LedgerInv registry first.system.engine world ∧
      ∀ currency, 0 ≤ world.system.positions.getEffectiveAvailableSpot currency := by
    induction ran with
    | refl => exact ⟨begun.inv, funded⟩
    | tail _ careful ih => exact ⟨ih.1.step careful.step, careful.funded ih.1 ih.2⟩
  obtain ⟨inv, still⟩ := kept
  rw [← inv.reserved currency]
  exact ⟨inv.reserved_nonneg currency, rfl, sub_nonneg.mp (still currency)⟩

end Careful

/-! ## A buy with all there is -/

def fundedWorld : World :=
  { system := { engine := { positionManager := ({} : PositionManager).addAvailable "USDT" 600 } }
    queue := []
    sent := 0 }

theorem effective_fundedWorld (currency : String) :
    fundedWorld.system.positions.getEffectiveAvailableSpot currency =
      if currency = "USDT" then 600 else 0 := by
  have nothing : (({} : PositionManager).spot currency).available = 0 := rfl
  have unreserved : fundedWorld.system.positions.reserved currency = 0 := rfl
  have funds : (fundedWorld.system.positions.spot currency).available =
      (({} : PositionManager).spot currency).available + if currency = "USDT" then 600 else 0 :=
    available_addAvailable ..
  rw [getEffectiveAvailableSpot, unreserved, sub_zero, funds, nothing, zero_add]

theorem fundedWorld_start : Start fundedWorld where
  queue := rfl
  sent := rfl
  ring := rfl
  reserved := fun _ => rfl
  frozen := fun currency => by
    have frozen : (fundedWorld.system.positions.spot currency).frozen = 0 := frozen_addAvailable ..
    rw [frozen]
  noEmptyId := Finmap.notMem_empty

theorem never_overdrawn_allIn : ∃ world,
    Relation.ReflTransGen (CarefulStep btcUsdtRegistry fundedWorld.system.engine) fundedWorld
        world ∧
      world.sent = {sentBuy (.live "31" 1)} ∧
      world.outstanding btcUsdtRegistry "USDT" ≤
        (world.system.positions.spot "USDT").available := by
  have known : btcUsdtRegistry.get limitBuy.instrument = some btcUsdt := by decide
  have affordable : limitBuy.reserves btcUsdt ≤
      fundedWorld.system.positions.getEffectiveAvailableSpot limitBuy.currency := by
    have currency : limitBuy.currency = "USDT" := by decide
    have holds : HoldsLock limitBuy.side limitBuy.tradeMode := holdsLock_buy _
    rw [currency, effective_fundedWorld, SpotLimit.reserves, SpotLimit.value, if_pos holds]
    norm_num [lockValue, limitBuy, btcUsdt, decode, kPow10]
  obtain ⟨emitted, ranEmit, effect⟩ := emit_effect known fundedWorld.system
  have emits : CarefulStep btcUsdtRegistry fundedWorld.system.engine fundedWorld
      (World.mk emitted [limitBuy] 0) :=
    .emit fundedWorld limitBuy btcUsdt emitted limitBuy_valid (by decide) known affordable ranEmit
  have ring : emitted.signalRing = limitBuy.signal :: [] := effect.ring (by decide)
  obtain ⟨dispatched, ranDispatch, _, _⟩ := dispatch_effect known limitBuy_valid.fits ring "cts7"
    "op7"
  have dispatches : CarefulStep btcUsdtRegistry fundedWorld.system.engine
      (World.mk emitted [limitBuy] 0) (World.mk dispatched [] {sentBuy .silent}) :=
    .dispatch _ limitBuy [] "cts7" "op7" dispatched rfl (by decide) (by simp) ranDispatch
  have careful := (Relation.ReflTransGen.single emits).tail dispatches
  have ranBoth : Relation.ReflTransGen (Step btcUsdtRegistry fundedWorld.system.engine)
      fundedWorld (World.mk dispatched [] {sentBuy .silent}) :=
    Relation.ReflTransGen.mono (fun _ _ step => CarefulStep.step step) _ _ careful
  have heard := firstHeard_next (World.mk dispatched [] {sentBuy .silent}) rfl
  have next : NextReport btcUsdt
      (Fresh fundedWorld.system.engine (World.mk dispatched [] {sentBuy .silent})) limitBuy
      .silent firstHeard :=
    { heard with
      stage := heard.stage.imp (fun fresh => ⟨fresh.nonempty, fresh.notLive, rfl, fresh.unused⟩)
        id }
  obtain ⟨reported, ranReport, _⟩ := (LedgerInv.run fundedWorld_start ranBoth).handles
    (Multiset.cons_zero (sentBuy .silent)).symm known next
  have reports : CarefulStep btcUsdtRegistry fundedWorld.system.engine
      (World.mk dispatched [] {sentBuy .silent})
      (World.mk { dispatched with engine := reported } [] {sentBuy (.live "31" 1)}) :=
    .report _ (sentBuy .silent) 0 firstHeard btcUsdt reported rfl known next
      (fun _ => ⟨by decide, fun charged => absurd charged (by decide)⟩) ranReport
  have ran := careful.tail reports
  refine ⟨_, ran, rfl, (never_overdrawn fundedWorld_start (fun currency => ?_) ran "USDT").2.2⟩
  rw [effective_fundedWorld]
  split <;> norm_num

end CryptoTrading
