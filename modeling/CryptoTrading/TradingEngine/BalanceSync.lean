import CryptoTrading.TradingEngine.AccountSync
import CryptoTrading.TradingEngine.OrderHistory

/-! # Balance snapshots

A snapshot says what the exchange has, an order report what has changed.  They
reach `spot_positions_` over two channels, so a snapshot can already contain an
order whose NEW is still to come; and a query only brings back currencies with
something in them. -/
set_option autoImplicit false

namespace CryptoTrading

open UnorderedMap (IterationOrder)

namespace PositionManager

/-! ## A NEW and the snapshot taken after it -/

def Shows (pm : PositionManager) (currency : String) (available frozen : ℚ) : Prop :=
  (pm.spot currency).available = available ∧ (pm.spot currency).frozen = frozen

/-- Both orders of the two deliveries end at the snapshot. -/
def SnapshotCommutes (registry : InstrumentRegistry) (pm : PositionManager)
    (report : ExecutionReport) (tradeMode : TradeMode) (currency : String)
    (available frozen borrowed : ℚ) : Prop :=
  (∃ after, ((pm.updateSpotOnNew registry report tradeMode).map fun pm =>
      pm.syncSpotFromExchange currency available frozen borrowed) = some after ∧
    Shows after currency available frozen) ∧
  ∃ after, (pm.syncSpotFromExchange currency available frozen borrowed).updateSpotOnNew registry
      report tradeMode = some after ∧
    Shows after currency available frozen

/-- A sync that finds the snapshot's amounts leaves them, whatever it does about
the debt. -/
theorem shows_sync_of_shows {pm : PositionManager} {currency : String} {available frozen : ℚ}
    (known : currency ∈ pm.spotPositions) (shows : Shows pm currency available frozen)
    (borrowed : ℚ) :
    Shows (pm.syncSpotFromExchange currency available frozen borrowed) currency available
      frozen := by
  obtain ⟨position, found⟩ := Option.isSome_iff_exists.mp (Finmap.lookup_isSome.mpr known)
  have held : pm.spot currency = position := UnorderedMap.getD_of_lookup found _
  rw [Shows, held] at shows
  rw [Shows, spot_syncSpotFromExchange, if_pos rfl, found, syncedSpot]
  split
  · exact shows
  · exact ⟨rfl, rfl⟩

theorem shows_lock (pm : PositionManager) (currency : String) (amount available frozen : ℚ) :
    Shows (pm.lock currency amount) currency available frozen ↔
      (pm.spot currency).available - amount = available ∧
        (pm.spot currency).frozen + amount = frozen := by
  rw [Shows, available_lock, frozen_lock, if_pos rfl]

theorem mem_lock (pm : PositionManager) (currency : String) (amount : ℚ) :
    currency ∈ (pm.lock currency amount).spotPositions := by
  rw [lock, modifySpot, Finmap.mem_insert]
  exact Or.inl rfl

theorem shows_newFirst (pm : PositionManager) (currency : String) (amount borrowed : ℚ) :
    Shows ((pm.lock currency amount).syncSpotFromExchange currency
        ((pm.spot currency).available - amount) ((pm.spot currency).frozen + amount) borrowed)
      currency ((pm.spot currency).available - amount) ((pm.spot currency).frozen + amount) :=
  shows_sync_of_shows (mem_lock pm currency amount)
    ((shows_lock pm currency amount _ _).mpr ⟨rfl, rfl⟩) borrowed

/-- The snapshot is within the tolerance of what is there before the NEW. -/
def SnapshotIgnored (pm : PositionManager) (currency : String) (amount borrowed : ℚ) : Prop :=
  currency ∈ pm.spotPositions ∧ |amount| ≤ syncTolerance ∧
    |(pm.spot currency).borrowed - borrowed| ≤ syncTolerance

theorem shows_snapshotFirst_iff (pm : PositionManager) (currency : String)
    (amount borrowed : ℚ) :
    Shows ((pm.syncSpotFromExchange currency ((pm.spot currency).available - amount)
        ((pm.spot currency).frozen + amount) borrowed).lock currency amount) currency
      ((pm.spot currency).available - amount) ((pm.spot currency).frozen + amount) ↔
    amount = 0 ∨ SnapshotIgnored pm currency amount borrowed := by
  rw [shows_lock, spot_syncSpotFromExchange, if_pos rfl, SnapshotIgnored]
  have counted : ∀ available frozen : ℚ,
      (available - amount - amount = available - amount ∧
        frozen + amount + amount = frozen + amount) ↔ amount = 0 := by
    intro available frozen
    constructor
    · rintro ⟨same, _⟩
      linarith
    · rintro rfl
      simp
  cases found : pm.spotPositions.lookup currency with
  | none =>
      have unknown : currency ∉ pm.spotPositions := Finmap.lookup_eq_none.mp found
      rw [syncedSpot]
      simp only [unknown, false_and, or_false]
      exact counted _ _
  | some position =>
      have known : currency ∈ pm.spotPositions := Finmap.mem_of_lookup_eq_some found
      have held : pm.spot currency = position := UnorderedMap.getD_of_lookup found _
      have agrees : Agrees position
          (position.available - amount, position.frozen + amount, borrowed) ↔
          |amount| ≤ syncTolerance ∧ |position.borrowed - borrowed| ≤ syncTolerance := by
        have frozenDiff : position.frozen - (position.frozen + amount) = -amount := by ring
        rw [Agrees, sub_sub_cancel, frozenDiff, abs_neg, ← and_assoc, and_self]
      rw [held, syncedSpot]
      simp only [known, true_and, ← agrees]
      by_cases within : Agrees position
          (position.available - amount, position.frozen + amount, borrowed)
      · simp [within]
      · rw [if_neg within]
        simp only [within, or_false]
        exact counted _ _

end PositionManager

open PositionManager

/-- The two orders agree exactly when the snapshot, coming first, changes
nothing: the order locks nothing, or less than the tolerance of a known currency. -/
theorem snapshotCommutes_iff {registry : InstrumentRegistry} {report : ExecutionReport}
    {tradeMode : TradeMode} {info : InstrumentInfo} (pm : PositionManager) (borrowed : ℚ)
    (known : registry.get report.instrument = some info)
    (holds : HoldsLock report.side tradeMode) :
    let currency := lockedCurrencyOf report.instrument report.side
    let amount := lockValue info report.side report.price report.totalVolume
    SnapshotCommutes registry pm report tradeMode currency
        ((pm.spot currency).available - amount) ((pm.spot currency).frozen + amount) borrowed ↔
      amount = 0 ∨ SnapshotIgnored pm currency amount borrowed := by
  intro currency amount
  rw [SnapshotCommutes, updateSpotOnNew_eq, updateSpotOnNew_eq, known]
  simp only [holds, if_true, Option.map_some, Option.some.injEq, exists_eq_left']
  rw [← shows_snapshotFirst_iff]
  exact and_iff_right (shows_newFirst pm currency amount borrowed)

/-- A BUY of two at 100 that found 1000 USDT. -/
def lockingNew : ExecutionReport :=
  { instrument := "BTC-USDT", orderId := "1", price := 100, totalVolume := 2 }

def thousandUsdt : PositionManager :=
  { spotPositions := Finmap.insert "USDT" { currency := "USDT", available := 1000 } ∅ }

theorem snapshotCommutes_iff_lockingNew :
    SnapshotCommutes btcUsdtRegistry thousandUsdt lockingNew .cash "USDT" (1000 - 200) (0 + 200)
        0 ↔
      (200 : ℚ) = 0 ∨ SnapshotIgnored thousandUsdt "USDT" 200 0 := by
  have commutes := snapshotCommutes_iff thousandUsdt 0
    (show btcUsdtRegistry.get lockingNew.instrument = some btcUsdt by decide)
    (holdsLock_buy .cash : HoldsLock lockingNew.side .cash)
  have currency : lockedCurrencyOf lockingNew.instrument lockingNew.side = "USDT" := by decide
  have amount :
      lockValue btcUsdt lockingNew.side lockingNew.price lockingNew.totalVolume = 200 := by
    decide +kernel
  have available : (thousandUsdt.spot "USDT").available = 1000 := rfl
  have frozen : (thousandUsdt.spot "USDT").frozen = 0 := rfl
  simp only [currency, amount, available, frozen] at commutes
  exact commutes

/-- The snapshot shows 800 and 200; the NEW after it makes that 600 and 400. -/
theorem snapshot_counted_twice :
    ¬ ∀ (registry : InstrumentRegistry) (info : InstrumentInfo) (pm : PositionManager)
        (report : ExecutionReport) (tradeMode : TradeMode) (borrowed : ℚ),
      registry.get report.instrument = some info → HoldsLock report.side tradeMode →
      let currency := lockedCurrencyOf report.instrument report.side
      let amount := lockValue info report.side report.price report.totalVolume
      SnapshotCommutes registry pm report tradeMode currency
        ((pm.spot currency).available - amount) ((pm.spot currency).frozen + amount) borrowed := by
  intro claim
  obtain ⟨-, after, ran, available, -⟩ := claim btcUsdtRegistry btcUsdt thousandUsdt lockingNew
    .cash 0 (by decide) (holdsLock_buy .cash)
  have counted : ((thousandUsdt.syncSpotFromExchange "USDT" 800 200 0).updateSpotOnNew
      btcUsdtRegistry lockingNew .cash).map (fun after => (after.spot "USDT").available) =
        some 600 := by decide +kernel
  have shown : lockedCurrencyOf lockingNew.instrument lockingNew.side = "USDT" ∧
      (thousandUsdt.spot "USDT").available -
          lockValue btcUsdt lockingNew.side lockingNew.price lockingNew.totalVolume = 800 ∧
      (thousandUsdt.spot "USDT").frozen +
          lockValue btcUsdt lockingNew.side lockingNew.price lockingNew.totalVolume = 200 := by
    decide +kernel
  obtain ⟨currency, snapshot, frozen⟩ := shown
  rw [currency, snapshot, frozen] at ran
  rw [currency, snapshot] at available
  rw [ran, Option.map_some, available] at counted
  exact absurd counted (by decide +kernel)

/-! ## A whole balance response -/

/-- What the exchange has: a currency that is not in the response counts as zero. -/
def exchangeBalance (details : List BalanceDetail) (currency : String) : Balance :=
  match details.find? fun detail => detail.ccy = currency ∧ detail.ccy ≠ "" with
  | none => (0, 0, 0)
  | some detail => detail.balance

def Listed (details : List BalanceDetail) (currency : String) : Prop :=
  ∃ detail ∈ details, detail.ccy = currency ∧ detail.ccy ≠ ""

/-- The currency gets through the filter of `QueryBalances`. -/
def Kept (details : List BalanceDetail) (currency : String) : Prop :=
  ∃ detail ∈ details, (detail.ccy = currency ∧ detail.ccy ≠ "") ∧ detail.HasAmount

def Concerned (engine : TradingEngine) (details : List BalanceDetail) (currency : String) : Prop :=
  currency ∈ engine.positionManager.spotPositions ∨ Listed details currency

section Response
variable {details : List BalanceDetail} {currency : String}

theorem exchangeBalance_of_mem (distinct : (details.map BalanceDetail.ccy).Nodup)
    {detail : BalanceDetail} (member : detail ∈ details) (named : detail.ccy ≠ "") :
    exchangeBalance details detail.ccy = detail.balance := by
  have found : details.find? (fun other => other.ccy = detail.ccy ∧ other.ccy ≠ "") =
      some detail := by
    refine UnorderedMap.find?_of_mem distinct member (by simp [named]) fun other wanted => ?_
    exact (of_decide_eq_true wanted).1
  rw [exchangeBalance, found]

/-- A kept currency comes back with the exchange's amounts. -/
theorem lookup_queryBalances_of_kept (distinct : (details.map BalanceDetail.ccy).Nodup)
    (kept : Kept details currency) :
    Finmap.lookup currency (queryBalances details) = some (exchangeBalance details currency) := by
  obtain ⟨detail, member, ⟨rfl, named⟩, amount⟩ := kept
  rw [lookup_queryBalances distinct member named, if_pos amount,
    exchangeBalance_of_mem distinct member named]

theorem lookup_queryBalances_of_not_kept (distinct : (details.map BalanceDetail.ccy).Nodup)
    (dropped : ¬ Kept details currency) :
    Finmap.lookup currency (queryBalances details) = none := by
  by_cases listed : Listed details currency
  · obtain ⟨detail, member, rfl, named⟩ := listed
    rw [lookup_queryBalances distinct member named, if_neg]
    exact fun amount => dropped ⟨detail, member, ⟨rfl, named⟩, amount⟩
  · apply lookup_queryBalances_of_unlisted
    intro detail member same
    by_contra named
    exact listed ⟨detail, member, same, named⟩

end Response

/-- Every concerned currency ends near the exchange's amounts, and what the
strategy has reserved is as before. -/
def BalancesConverge (engine after : TradingEngine) (details : List BalanceDetail) : Prop :=
  (∀ currency, Concerned engine details currency →
    Agrees (after.positionManager.spot currency) (exchangeBalance details currency)) ∧
  after.positionManager.spotReserved = engine.positionManager.spotReserved

theorem spot_reconcileBalances_of_not_kept (iteration : IterationOrder String)
    (engine : TradingEngine) {details : List BalanceDetail} {currency : String}
    (distinct : (details.map BalanceDetail.ccy).Nodup) (dropped : ¬ Kept details currency) :
    (engine.reconcileBalances iteration (queryBalances details)).positionManager.spot currency =
      engine.positionManager.spot currency := by
  rw [TradingEngine.spot_reconcileBalances, lookup_queryBalances_of_not_kept distinct dropped]

theorem agrees_reconcileBalances_of_kept (iteration : IterationOrder String)
    (engine : TradingEngine) {details : List BalanceDetail} {currency : String}
    (distinct : (details.map BalanceDetail.ccy).Nodup) (kept : Kept details currency) :
    Agrees ((engine.reconcileBalances iteration (queryBalances details)).positionManager.spot
      currency) (exchangeBalance details currency) := by
  rw [TradingEngine.spot_reconcileBalances, lookup_queryBalances_of_kept distinct kept]
  exact agrees_syncedSpot _ _ _

/-- A pass over a response converges exactly when whatever the query filters out
is right already. -/
theorem balancesConverge_iff (iteration : IterationOrder String) (engine : TradingEngine)
    {details : List BalanceDetail} (distinct : (details.map BalanceDetail.ccy).Nodup) :
    BalancesConverge engine (engine.reconcileBalances iteration (queryBalances details)) details ↔
      ∀ currency, Concerned engine details currency → Kept details currency ∨
        Agrees (engine.positionManager.spot currency) (exchangeBalance details currency) := by
  have reserved : (engine.reconcileBalances iteration
      (queryBalances details)).positionManager.spotReserved =
        engine.positionManager.spotReserved := by
    rw [TradingEngine.positionManager_reconcileBalances]
  constructor
  · rintro ⟨converged, -⟩ currency concerned
    by_cases kept : Kept details currency
    · exact Or.inl kept
    · right
      rw [← spot_reconcileBalances_of_not_kept iteration engine distinct kept]
      exact converged currency concerned
  · intro right
    refine ⟨fun currency concerned => ?_, reserved⟩
    by_cases kept : Kept details currency
    · exact agrees_reconcileBalances_of_kept iteration engine distinct kept
    · rw [spot_reconcileBalances_of_not_kept iteration engine distinct kept]
      exact (right currency concerned).resolve_left kept

def fiveUsdt : TradingEngine :=
  { positionManager :=
      { spotPositions := Finmap.insert "USDT" { currency := "USDT", available := 5 } ∅ } }

def usdtDetail (available : ℚ) : BalanceDetail :=
  { ccy := "USDT", availBal := some available, frozenBal := some 0, liab := some 0 }

theorem balancesConverge_iff_seven :
    BalancesConverge fiveUsdt
        (fiveUsdt.reconcileBalances IterationOrder.ofToList (queryBalances [usdtDetail 7]))
        [usdtDetail 7] ↔
      ∀ currency, Concerned fiveUsdt [usdtDetail 7] currency → Kept [usdtDetail 7] currency ∨
        Agrees (fiveUsdt.positionManager.spot currency)
          (exchangeBalance [usdtDetail 7] currency) :=
  balancesConverge_iff IterationOrder.ofToList fiveUsdt (List.nodup_singleton _)

/-- The exchange says zero, the query drops it, and the five stay. -/
theorem emptied_balance_stays :
    ¬ ∀ (iteration : IterationOrder String) (engine : TradingEngine)
        (details : List BalanceDetail), (details.map BalanceDetail.ccy).Nodup →
      BalancesConverge engine (engine.reconcileBalances iteration (queryBalances details))
        details := by
  intro claim
  have distinct : ([usdtDetail 0].map BalanceDetail.ccy).Nodup := List.nodup_singleton _
  have dropped : ¬ Kept [usdtDetail 0] "USDT" := by
    rintro ⟨detail, member, -, amount⟩
    rw [List.mem_singleton.mp member] at amount
    exact absurd amount (by decide +kernel)
  have converged := (claim IterationOrder.ofToList fiveUsdt [usdtDetail 0] distinct).1 "USDT"
    (Or.inl (by decide))
  rw [spot_reconcileBalances_of_not_kept _ _ distinct dropped] at converged
  exact absurd converged (by decide +kernel)

end CryptoTrading
