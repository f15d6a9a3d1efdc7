import CryptoTrading.Clients.OkxAccount
import CryptoTrading.TradingEngine.EngineSpec

/-! # The account half of a reconciler turn

`ReconcileBalances` and `ReconcileSwapPositions` sync every entry that their
query brings back.  Each sync reads and writes the entry of its own key, so the
loops are merges of one table into another. -/
set_option autoImplicit false

namespace CryptoTrading

open UnorderedMap (IterationOrder entriesIn mergeAll)

/-! ## The loops -/

namespace TradingEngine

def reconcileBalances (iteration : IterationOrder String)
    (balances : UnorderedMap String PositionManager.Balance) (engine : TradingEngine) :
    TradingEngine :=
  (entriesIn iteration balances).foldl (fun engine entry =>
    engine.setPositions (engine.positionManager.syncSpotFromExchange entry.1 entry.2.1 entry.2.2.1
      entry.2.2.2)) engine

def reconcileSwapPositions (iteration : IterationOrder (String × PosSide))
    (swapPositions : UnorderedMap (String × PosSide) SwapPosition) (engine : TradingEngine) :
    TradingEngine :=
  (entriesIn iteration swapPositions).foldl (fun engine entry =>
    engine.setPositions (engine.positionManager.syncSwapFromExchange entry.1.1 entry.1.2
      entry.2.contracts entry.2.averageOpeningPrice)) engine

end TradingEngine

namespace PositionManager

/-! ## One currency -/

/-- The amounts are off by no more than the tolerance. -/
def Agrees (position : SpotPosition) (balance : Balance) : Prop :=
  |position.available - balance.1| ≤ syncTolerance ∧
    |position.frozen - balance.2.1| ≤ syncTolerance ∧
    |position.borrowed - balance.2.2| ≤ syncTolerance

instance (position : SpotPosition) (balance : Balance) : Decidable (Agrees position balance) :=
  inferInstanceAs (Decidable (_ ∧ _))

def syncedSpot (currency : String) (held : Option SpotPosition) (balance : Balance) :
    SpotPosition :=
  match held with
  | none =>
      { currency := currency, available := balance.1, frozen := balance.2.1,
        borrowed := balance.2.2 }
  | some position =>
      if Agrees position balance then position
      else
        { position with
          available := balance.1
          frozen := balance.2.1
          borrowed := balance.2.2 }

theorem syncTolerance_nonneg : 0 ≤ syncTolerance := by
  rw [syncTolerance]
  positivity

theorem agrees_of_eq {position : SpotPosition} {balance : Balance}
    (available : position.available = balance.1) (frozen : position.frozen = balance.2.1)
    (borrowed : position.borrowed = balance.2.2) : Agrees position balance := by
  simp [Agrees, available, frozen, borrowed, syncTolerance_nonneg]

theorem agrees_syncedSpot (currency : String) (held : Option SpotPosition) (balance : Balance) :
    Agrees (syncedSpot currency held balance) balance := by
  cases held with
  | none => exact agrees_of_eq rfl rfl rfl
  | some position =>
      rw [syncedSpot]
      split
      · assumption
      · exact agrees_of_eq rfl rfl rfl

theorem syncSpotFromExchange_eq (pm : PositionManager) (currency : String)
    (available frozen borrowed : ℚ) :
    pm.syncSpotFromExchange currency available frozen borrowed =
      { pm with
        spotPositions := pm.spotPositions.insert currency
          (syncedSpot currency (pm.spotPositions.lookup currency)
            (available, frozen, borrowed)) } := by
  rw [syncSpotFromExchange]
  cases found : pm.spotPositions.lookup currency with
  | none => rfl
  | some position =>
      dsimp only [syncedSpot]
      by_cases agrees : Agrees position (available, frozen, borrowed)
      · rw [if_pos agrees, if_neg]
        · rw [UnorderedMap.insert_lookup_self found]
        · simp only [not_or, not_lt, gt_iff_lt]
          exact agrees
      · rw [if_neg agrees, if_pos]
        by_contra within
        simp only [not_or, not_lt, gt_iff_lt] at within
        exact agrees within

/-! ## One swap position -/

def syncedSwap (key : String × PosSide) (held : Option SwapPosition) (exchange : SwapPosition) :
    SwapPosition :=
  match held with
  | none =>
      { instrument := key.1, positionSide := key.2, contracts := exchange.contracts,
        averageOpeningPrice := exchange.averageOpeningPrice }
  | some position =>
      if |position.contracts - exchange.contracts| > syncTolerance then
        { position with
          instrument := key.1
          positionSide := key.2
          contracts := exchange.contracts
          averageOpeningPrice := exchange.averageOpeningPrice }
      else position

theorem syncSwapFromExchange_eq (pm : PositionManager) (key : String × PosSide)
    (exchange : SwapPosition) :
    pm.syncSwapFromExchange key.1 key.2 exchange.contracts exchange.averageOpeningPrice =
      { pm with
        swapPositions := pm.swapPositions.insert key
          (syncedSwap key (pm.swapPositions.lookup key) exchange) } := by
  rw [syncSwapFromExchange]
  cases found : pm.swapPositions.lookup key with
  | none => rfl
  | some position =>
      dsimp only [syncedSwap]
      split
      · rfl
      · rw [UnorderedMap.insert_lookup_self found]

theorem spot_syncSpotFromExchange (pm : PositionManager) (currency other : String)
    (available frozen borrowed : ℚ) :
    (pm.syncSpotFromExchange currency available frozen borrowed).spot other =
      if other = currency then
        syncedSpot currency (pm.spotPositions.lookup currency) (available, frozen, borrowed)
      else pm.spot other := by
  rw [syncSpotFromExchange_eq]
  exact UnorderedMap.getD_insert ..

end PositionManager

/-! ## Whole loops -/

namespace TradingEngine

open PositionManager

theorem positionManager_reconcileBalances (iteration : IterationOrder String)
    (balances : UnorderedMap String Balance) (engine : TradingEngine) :
    (engine.reconcileBalances iteration balances).positionManager =
      { engine.positionManager with
        spotPositions := mergeAll syncedSpot engine.positionManager.spotPositions
          (entriesIn iteration balances) } := by
  rw [reconcileBalances, mergeAll]
  generalize entriesIn iteration balances = entries
  induction entries generalizing engine with
  | nil => rfl
  | cons entry rest ih =>
      rw [List.foldl_cons, ih, positionManager_setPositions, syncSpotFromExchange_eq]
      rfl

theorem positionManager_reconcileSwapPositions (iteration : IterationOrder (String × PosSide))
    (swapPositions : UnorderedMap (String × PosSide) SwapPosition) (engine : TradingEngine) :
    (engine.reconcileSwapPositions iteration swapPositions).positionManager =
      { engine.positionManager with
        swapPositions := mergeAll syncedSwap engine.positionManager.swapPositions
          (entriesIn iteration swapPositions) } := by
  rw [reconcileSwapPositions, mergeAll]
  generalize entriesIn iteration swapPositions = entries
  induction entries generalizing engine with
  | nil => rfl
  | cons entry rest ih =>
      rw [List.foldl_cons, ih, positionManager_setPositions, syncSwapFromExchange_eq]
      rfl

/-- A currency that the query brings back is synced, another one is not read. -/
theorem spot_reconcileBalances (iteration : IterationOrder String)
    (balances : UnorderedMap String Balance) (engine : TradingEngine) (currency : String) :
    (engine.reconcileBalances iteration balances).positionManager.spot currency =
      match balances.lookup currency with
      | none => engine.positionManager.spot currency
      | some balance =>
          syncedSpot currency (engine.positionManager.spotPositions.lookup currency) balance := by
  rw [positionManager_reconcileBalances, spot, UnorderedMap.getD,
    UnorderedMap.lookup_mergeAll_entriesIn]
  cases balances.lookup currency <;> rfl

theorem swap_reconcileSwapPositions (iteration : IterationOrder (String × PosSide))
    (swapPositions : UnorderedMap (String × PosSide) SwapPosition) (engine : TradingEngine)
    (key : String × PosSide) :
    (engine.reconcileSwapPositions iteration swapPositions).positionManager.swap key.1 key.2 =
      match swapPositions.lookup key with
      | none => engine.positionManager.swap key.1 key.2
      | some exchange =>
          syncedSwap key (engine.positionManager.swapPositions.lookup key) exchange := by
  rw [positionManager_reconcileSwapPositions, swap, UnorderedMap.getD,
    UnorderedMap.lookup_mergeAll_entriesIn]
  cases swapPositions.lookup key <;> rfl

end TradingEngine

end CryptoTrading
