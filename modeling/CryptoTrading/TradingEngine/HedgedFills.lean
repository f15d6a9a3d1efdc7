import CryptoTrading.TradingEngine.SwapFills

/-! # Long and short positions

With separate long and short positions no position ever has to be negative, so
cutting off at zero changes nothing and the contracts are exact. -/
set_option autoImplicit false

namespace CryptoTrading

open Histories (history overall)

/-- An order that adds to the position: LONG/BUY or SHORT/SELL. -/
def OpensOn (key : String × PosSide) (order : ExecutionReport) : Prop :=
  order.swapKey = key ∧ (order.positionSide = .long ∧ order.side = .buy ∨
    order.positionSide = .short ∧ order.side = .sell)

/-- An order that takes from the position: LONG/SELL or SHORT/BUY. -/
def ReducesOn (key : String × PosSide) (order : ExecutionReport) : Prop :=
  order.swapKey = key ∧ (order.positionSide = .long ∧ order.side = .sell ∨
    order.positionSide = .short ∧ order.side = .buy)

instance (key : String × PosSide) : DecidablePred (OpensOn key) :=
  fun _ => inferInstanceAs (Decidable (_ ∧ _))

instance (key : String × PosSide) : DecidablePred (ReducesOn key) :=
  fun _ => inferInstanceAs (Decidable (_ ∧ _))

/-- What a position should have: what it had, and what its orders have filled. -/
def expectedContracts (registry : InstrumentRegistry) (orders : String → ExecutionReport)
    (pm : PositionManager) (key : String × PosSide) (reports : List ExecutionReport) : ℚ :=
  (pm.swap key.1 key.2).contracts + filledBy registry orders (OpensOn key) reports -
    filledBy registry orders (ReducesOn key) reports

section Orders
variable {registry : InstrumentRegistry} {orders : String → ExecutionReport}
  {pm : PositionManager} {reports : List ExecutionReport}

theorem opensOn_iff {key : String × PosSide} {order : ExecutionReport}
    (hedged : order.positionSide ≠ .net) :
    OpensOn key order ↔
      order.swapKey = key ∧ PositionManager.isOpening order.positionSide order.side = true := by
  rw [OpensOn]
  cases position : order.positionSide <;> cases side : order.side <;>
    simp_all [PositionManager.isOpening]

theorem reducesOn_iff {key : String × PosSide} {order : ExecutionReport}
    (hedged : order.positionSide ≠ .net) :
    ReducesOn key order ↔
      order.swapKey = key ∧ PositionManager.isOpening order.positionSide order.side = false := by
  rw [ReducesOn]
  cases position : order.positionSide <;> cases side : order.side <;>
    simp_all [PositionManager.isOpening]

theorem expectedContracts_eq (histories : FillHistories orders reports)
    (hedged : ∀ report ∈ reports, report.positionSide ≠ .net) (key : String × PosSide) :
    expectedContracts registry orders pm key reports =
      (pm.swap key.1 key.2).contracts + netFills registry orders key reports := by
  have sides : ∀ report ∈ reports, (orders report.orderId).positionSide ≠ .net := by
    intro report member
    rw [← (histories.same member).positionSide]
    exact hedged report member
  rw [expectedContracts, add_sub_assoc, filledBy_sub_filledBy key]
  · exact fun report member => opensOn_iff (sides report member)
  · exact fun report member => reducesOn_iff (sides report member)

theorem mem_tracker_iff (tracks : Tracks pm reports) (orderId : String) :
    orderId ∈ pm.swapOrderFillTracker ↔
      ∃ last, (reportsOf orderId reports).getLast? = some last ∧ last.status ≠ .filled := by
  rw [← Finmap.lookup_isSome, tracks orderId, openVolume]
  cases (reportsOf orderId reports).getLast? with
  | none => simp
  | some last => by_cases filled : last.status = .filled <;> simp [filled]

end Orders

/-- As long as no position would become negative, every position ends with what
its orders have filled, and the tracker with the orders that are still open. -/
theorem hedgedFills_exact {registry : InstrumentRegistry} {orders : String → ExecutionReport}
    {pm : PositionManager} {reports : List ExecutionReport}
    (untracked : pm.swapOrderFillTracker = ∅) (histories : FillHistories orders reports)
    (hedged : ∀ report ∈ reports, report.positionSide ≠ .net)
    (covered : ∀ front, front <+: reports → ∀ key,
      0 ≤ expectedContracts registry orders pm key front) :
    ((∀ report ∈ reports, (registry.get report.instrument).isSome) →
      ∃ after, swapFills registry pm reports = some after) ∧
    ∀ after, swapFills registry pm reports = some after →
      (∀ key, (after.swap key.1 key.2).contracts =
        expectedContracts registry orders pm key reports) ∧
      ∀ orderId, orderId ∈ after.swapOrderFillTracker ↔
        ∃ last, (reportsOf orderId reports).getLast? = some last ∧ last.status ≠ .filled := by
  have nonneg : pm.ContractsNonneg := by
    intro instrument positionSide
    have start := covered [] List.nil_prefix (instrument, positionSide)
    rw [expectedContracts_eq (histories.of_prefix List.nil_prefix) (by simp), netFills,
      Histories.overall_nil, add_zero] at start
    exact start
  refine ⟨swapFills_runs pm, fun after ran => ⟨fun key => ?_, ?_⟩⟩
  · have follows := contracts_follow untracked nonneg histories key
      (max_eq_right (nonneg key.1 key.2)).symm ran
    have exactly := follows.level_eq_iff.mpr fun front first => by
      rw [← expectedContracts_eq (histories.of_prefix first)
        fun report member => hedged report (first.subset member)]
      exact covered front first key
    rw [expectedContracts_eq histories hedged, ← exactly, levelAfter, ran]
    rfl
  · exact mem_tracker_iff (swapFills_invariant untracked nonneg reports after ran).1

/-- A long position of one contract, which order "1" opens further and order "2" closes. -/
def hedgedOrders (orderId : String) : ExecutionReport :=
  { instrument := "BTC-USDT", orderId := orderId, marketType := .swap, positionSide := .long,
    side := if orderId = "1" then .buy else .sell }

def hedgedReports : List ExecutionReport :=
  [{ hedgedOrders "1" with status := .partiallyFilled, filledVolume := 2 },
    { hedgedOrders "2" with status := .partiallyFilled, filledVolume := 1 },
    { hedgedOrders "1" with status := .filled, filledVolume := 3 },
    { hedgedOrders "2" with status := .partiallyFilled, filledVolume := 4 }]

def oneLong : PositionManager :=
  { swapPositions := Finmap.insert ("BTC-USDT", PosSide.long)
      { instrument := "BTC-USDT", positionSide := .long, contracts := 1 } ∅ }

theorem hedgedReports_histories : FillHistories hedgedOrders hedgedReports := by
  intro orderId
  by_cases first : orderId = "1"
  · subst first
    exact ⟨⟨rfl, rfl, rfl, rfl, rfl⟩, by decide, Or.inl rfl, ⟨rfl, rfl, rfl, rfl, rfl⟩, by decide,
      Or.inr ⟨rfl, rfl⟩, trivial⟩
  · by_cases second : orderId = "2"
    · subst second
      exact ⟨⟨rfl, rfl, rfl, rfl, rfl⟩, by decide, Or.inl rfl, ⟨rfl, rfl, rfl, rfl, rfl⟩,
        by decide, Or.inl rfl, trivial⟩
    · have none : reportsOf orderId hedgedReports = [] := by
        simp [reportsOf, history, hedgedReports, hedgedOrders, Ne.symm first, Ne.symm second]
      rw [none]
      trivial

theorem hedgedReports_covered : ∀ front, front <+: hedgedReports → ∀ key,
    0 ≤ expectedContracts btcUsdtRegistry hedgedOrders oneLong key front := by
  intro front first key
  by_cases own : key = ("BTC-USDT", .long)
  · subst own
    have every : ∀ front ∈ hedgedReports.inits, 0 ≤ expectedContracts btcUsdtRegistry hedgedOrders
        oneLong ("BTC-USDT", .long) front := by decide +kernel
    exact every front ((List.mem_inits front hedgedReports).mpr first)
  · have elsewhere : ∀ orderId, (hedgedOrders orderId).swapKey ≠ key := fun _ => Ne.symm own
    have empty : (oneLong.swap key.1 key.2).contracts = 0 := by
      rw [PositionManager.swap, oneLong, UnorderedMap.getD_insert, if_neg own]
      rfl
    rw [expectedContracts, empty, filledBy, filledBy, overall, overall]
    simp [OpensOn, ReducesOn, elsewhere]

theorem hedgedFills_exact_interleaved :
    ((∀ report ∈ hedgedReports, (btcUsdtRegistry.get report.instrument).isSome) →
      ∃ after, swapFills btcUsdtRegistry oneLong hedgedReports = some after) ∧
    ∀ after, swapFills btcUsdtRegistry oneLong hedgedReports = some after →
      (∀ key, (after.swap key.1 key.2).contracts =
        expectedContracts btcUsdtRegistry hedgedOrders oneLong key hedgedReports) ∧
      ∀ orderId, orderId ∈ after.swapOrderFillTracker ↔
        ∃ last, (reportsOf orderId hedgedReports).getLast? = some last ∧ last.status ≠ .filled :=
  hedgedFills_exact rfl hedgedReports_histories (by decide) hedgedReports_covered

end CryptoTrading
