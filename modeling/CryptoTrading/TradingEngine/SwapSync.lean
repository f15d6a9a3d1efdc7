import CryptoTrading.TradingEngine.AccountSync

/-! # Position snapshots

A positions response is synced entry by entry: an entry with no positive
contracts is dropped before the sync, and the sync compares contracts only, so
an average price that went stale while the contracts stayed right is kept. -/
set_option autoImplicit false

namespace CryptoTrading

open PositionManager
open UnorderedMap (IterationOrder)

/-- Contracts and average opening price on the exchange; zero when not listed. -/
def exchangePosition (records : List PositionRecord) (key : String × PosSide) : ℚ × ℚ :=
  match records.find? fun record => record.key = key with
  | none => (0, 0)
  | some record => (record.contracts, record.averageOpeningPrice)

/-- Contracts within the tolerance, and the average price of an open position. -/
def PositionMatches (position : SwapPosition) (exchange : ℚ × ℚ) : Prop :=
  |position.contracts - exchange.1| ≤ syncTolerance ∧
    (exchange.1 ≠ 0 → position.averageOpeningPrice = exchange.2)

instance (position : SwapPosition) (exchange : ℚ × ℚ) :
    Decidable (PositionMatches position exchange) :=
  inferInstanceAs (Decidable (_ ∧ _))

def PositionConcerned (engine : TradingEngine) (records : List PositionRecord)
    (key : String × PosSide) : Prop :=
  key ∈ engine.positionManager.swapPositions ∨ ∃ record ∈ records, record.key = key

def PositionsConverge (engine after : TradingEngine) (records : List PositionRecord) : Prop :=
  ∀ key, PositionConcerned engine records key →
    PositionMatches (after.positionManager.swap key.1 key.2) (exchangePosition records key)

def Overwritten (engine : TradingEngine) (records : List PositionRecord)
    (key : String × PosSide) : Prop :=
  0 < (exchangePosition records key).1 ∧
    (key ∉ engine.positionManager.swapPositions ∨
      syncTolerance < |(engine.positionManager.swap key.1 key.2).contracts -
        (exchangePosition records key).1|)

section Response
variable {records : List PositionRecord} {key : String × PosSide}

theorem exchangePosition_of_mem (distinct : (records.map PositionRecord.key).Nodup)
    {record : PositionRecord} (member : record ∈ records) :
    exchangePosition records record.key = (record.contracts, record.averageOpeningPrice) := by
  have found : records.find? (fun other => other.key = record.key) = some record :=
    UnorderedMap.find?_of_mem distinct member (by simp) fun other wanted => by simpa using wanted
  rw [exchangePosition, found]

theorem exchangePosition_of_unlisted (unlisted : ∀ record ∈ records, record.key ≠ key) :
    exchangePosition records key = (0, 0) := by
  have missed : records.find? (fun record => record.key = key) = none := by
    rw [List.find?_eq_none]
    intro record member
    simpa using unlisted record member
  rw [exchangePosition, missed]

/-- The query brings back exactly the positions with positive contracts. -/
theorem querySwapPositions_cases (distinct : (records.map PositionRecord.key).Nodup) :
    (0 < (exchangePosition records key).1 ∧
      ∃ exchange, Finmap.lookup key (querySwapPositions records) = some exchange ∧
        (exchange.contracts, exchange.averageOpeningPrice) = exchangePosition records key) ∨
    (¬ 0 < (exchangePosition records key).1 ∧
      Finmap.lookup key (querySwapPositions records) = none) := by
  by_cases listed : ∃ record ∈ records, record.key = key
  · obtain ⟨record, member, rfl⟩ := listed
    rw [exchangePosition_of_mem distinct member, lookup_querySwapPositions distinct member]
    by_cases positive : 0 < record.contracts
    · rw [if_pos positive]
      exact Or.inl ⟨positive, _, rfl, rfl⟩
    · rw [if_neg positive]
      exact Or.inr ⟨positive, rfl⟩
  · have unlisted : ∀ record ∈ records, record.key ≠ key :=
      fun record member same => listed ⟨record, member, same⟩
    rw [exchangePosition_of_unlisted unlisted]
    exact Or.inr ⟨lt_irrefl 0, lookup_querySwapPositions_of_unlisted unlisted⟩

end Response

/-- A position the sync sees is right afterwards, unless the contracts were
right and the average price was not. -/
theorem positionMatches_syncedSwap {pm : PositionManager} {key : String × PosSide}
    {exchange : SwapPosition} :
    PositionMatches (syncedSwap key (pm.swapPositions.lookup key) exchange)
        (exchange.contracts, exchange.averageOpeningPrice) ↔
      (key ∉ pm.swapPositions ∨
        syncTolerance < |(pm.swap key.1 key.2).contracts - exchange.contracts|) ∨
      PositionMatches (pm.swap key.1 key.2)
        (exchange.contracts, exchange.averageOpeningPrice) := by
  have corrected : ∀ position : SwapPosition, position.contracts = exchange.contracts →
      position.averageOpeningPrice = exchange.averageOpeningPrice →
      PositionMatches position (exchange.contracts, exchange.averageOpeningPrice) := by
    intro position contracts average
    refine ⟨?_, fun _ => average⟩
    rw [contracts, sub_self, abs_zero]
    exact syncTolerance_nonneg
  cases found : pm.swapPositions.lookup key with
  | none =>
      have unknown : key ∉ pm.swapPositions := Finmap.lookup_eq_none.mp found
      exact ⟨fun _ => Or.inl (Or.inl unknown), fun _ => corrected _ rfl rfl⟩
  | some position =>
      have known : key ∈ pm.swapPositions := Finmap.mem_of_lookup_eq_some found
      have held : pm.swap key.1 key.2 = position := UnorderedMap.getD_of_lookup found _
      rw [held, syncedSwap]
      by_cases off : |position.contracts - exchange.contracts| > syncTolerance
      · rw [if_pos off]
        exact ⟨fun _ => Or.inl (Or.inr off), fun _ => corrected _ rfl rfl⟩
      · rw [if_neg off]
        have kept : ¬ (key ∉ pm.swapPositions ∨
            syncTolerance < |position.contracts - exchange.contracts|) :=
          fun either => either.elim (fun unknown => unknown known) off
        exact ⟨Or.inr, fun right => right.resolve_left kept⟩

/-- A pass over a response converges exactly when every position is right
already or gets overwritten. -/
theorem positionsConverge_iff (iteration : IterationOrder (String × PosSide))
    (engine : TradingEngine) {records : List PositionRecord}
    (distinct : (records.map PositionRecord.key).Nodup) :
    PositionsConverge engine
        (engine.reconcileSwapPositions iteration (querySwapPositions records)) records ↔
      ∀ key, PositionConcerned engine records key → Overwritten engine records key ∨
        PositionMatches (engine.positionManager.swap key.1 key.2)
          (exchangePosition records key) := by
  refine forall_congr' fun key => imp_congr_right fun _ => ?_
  rw [TradingEngine.swap_reconcileSwapPositions, Overwritten]
  rcases @querySwapPositions_cases records key distinct with
    ⟨positive, exchange, found, same⟩ | ⟨notPositive, missed⟩
  · rw [found, ← same]
    simp only [← same] at positive
    simp only [positive, true_and]
    exact positionMatches_syncedSwap
  · rw [missed]
    simp only [notPositive, false_and, false_or]

def longTwo : TradingEngine :=
  { positionManager :=
      { swapPositions := Finmap.insert ("BTC-USDT-SWAP", PosSide.long)
          { instrument := "BTC-USDT-SWAP", positionSide := .long, contracts := 2,
            averageOpeningPrice := 100 } ∅ } }

def longRecord (contracts averageOpeningPrice : ℚ) : PositionRecord :=
  { instId := "BTC-USDT-SWAP", posSide := "long", pos := some contracts,
    avgPx := some averageOpeningPrice, upl := none }

theorem positionsConverge_iff_longThree :
    PositionsConverge longTwo
        (longTwo.reconcileSwapPositions IterationOrder.ofToList
          (querySwapPositions [longRecord 3 110])) [longRecord 3 110] ↔
      ∀ key, PositionConcerned longTwo [longRecord 3 110] key →
        Overwritten longTwo [longRecord 3 110] key ∨
          PositionMatches (longTwo.positionManager.swap key.1 key.2)
            (exchangePosition [longRecord 3 110] key) :=
  positionsConverge_iff IterationOrder.ofToList longTwo (List.nodup_singleton _)

/-- The exchange has closed the position, and the two contracts stay. -/
theorem closed_position_stays :
    ¬ ∀ (iteration : IterationOrder (String × PosSide)) (engine : TradingEngine)
        (records : List PositionRecord), (records.map PositionRecord.key).Nodup →
      PositionsConverge engine
        (engine.reconcileSwapPositions iteration (querySwapPositions records)) records := by
  intro claim
  have converged := claim IterationOrder.ofToList longTwo [] List.nodup_nil
    ("BTC-USDT-SWAP", .long) (Or.inl (by decide))
  rw [TradingEngine.swap_reconcileSwapPositions] at converged
  have unlisted : Finmap.lookup ("BTC-USDT-SWAP", PosSide.long) (querySwapPositions []) = none :=
    rfl
  rw [unlisted] at converged
  exact absurd converged (by decide +kernel)

end CryptoTrading
