import CryptoTrading.TradingEngine.FillMeasure
import CryptoTrading.TradingEngine.OrderHistory

/-! # Orders that were partially filled before a restart

`Init` loads the pending orders into the live table but leaves the fill trackers
empty, while the balances it loads already contain what those orders filled.
The first report after it is therefore applied with its whole cumulative volume. -/
set_option autoImplicit false

namespace CryptoTrading

structure SameOrder (pending report : ExecutionReport) : Prop where
  orderId : report.orderId = pending.orderId
  instrument : report.instrument = pending.instrument
  side : report.side = pending.side
  marketType : report.marketType = pending.marketType
  positionSide : report.positionSide = pending.positionSide

structure SameTrade (pending report : ExecutionReport) : Prop
    extends SameOrder pending report where
  tradeMode : report.tradeMode = pending.tradeMode

/-- Later fill reports of the pending order, `seen` units being filled already;
the only FILLED one is the last. -/
def LaterFills (pending : ExecutionReport) : Int → List ExecutionReport → Prop
  | _, [] => True
  | seen, report :: rest =>
      SameOrder pending report ∧ seen ≤ report.filledVolume ∧
        (report.status = .partiallyFilled ∨ report.status = .filled ∧ rest = []) ∧
        LaterFills pending report.filledVolume rest

def finalVolume : Int → List ExecutionReport → Int
  | seen, [] => seen
  | _, report :: rest => finalVolume report.filledVolume rest

/-- What one call of the handler moves for the order of its report. -/
def handledMoves (registry : InstrumentRegistry) (clientOrderId : String) (engine : TradingEngine)
    (report : ExecutionReport) : ℚ :=
  match engine.handleOrderUpdate registry report clientOrderId with
  | none => 0
  | some after => engine.positionManager.fillMoved after.positionManager report

def movedOver (registry : InstrumentRegistry) (clientOrderId : String) :
    TradingEngine → List ExecutionReport → ℚ :=
  Runs.total (fun engine report => engine.handleOrderUpdate registry report clientOrderId)
    (handledMoves registry clientOrderId)

section Reports
variable {registry : InstrumentRegistry} {info : InstrumentInfo} {pending report : ExecutionReport}

theorem SameOrder.contractsOf (same : SameOrder pending report) (pm : PositionManager) :
    pm.contractsOf report = pm.contractsOf pending := by
  rw [PositionManager.contractsOf, PositionManager.contractsOf, same.instrument, same.positionSide]

theorem SameOrder.fillTracker (same : SameOrder pending report) (pm : PositionManager) :
    pm.fillTracker report = pm.fillTracker pending := by
  rw [PositionManager.fillTracker, PositionManager.fillTracker, same.marketType, same.orderId]

theorem SameTrade.marginSell (same : SameTrade pending report) :
    MarginSell report ↔ MarginSell pending := by
  rw [MarginSell, MarginSell, same.marketType, same.side, same.tradeMode]

theorem SameTrade.movable (same : SameTrade pending report) (pm : PositionManager) (volume : ℚ) :
    pm.movable report volume = pm.movable pending volume := by
  have closes : Closes report ↔ Closes pending := by
    rw [Closes, Closes, same.marketType, same.positionSide, same.side]
  rw [PositionManager.movable, PositionManager.movable, same.toSameOrder.contractsOf]
  exact if_congr closes rfl (if_congr same.marginSell rfl rfl)

theorem le_finalVolume (reports : List ExecutionReport) :
    ∀ seen, LaterFills pending seen reports → seen ≤ finalVolume seen reports := by
  induction reports with
  | nil => exact fun seen _ => le_refl seen
  | cons report rest ih =>
      intro seen fills
      exact fills.2.1.trans (ih report.filledVolume fills.2.2.2)

/-- Over its later reports an order moves what it fills beyond the tracker, as
far as its position allows. -/
theorem movedOver_laterFills (known : registry.get pending.instrument = some info)
    (clientOrderId : String) (reports : List ExecutionReport) :
    ∀ (engine : TradingEngine) (seen : Int),
      pending.orderId ∈ engine.liveOrderInstruments →
      engine.positionManager.fillTracker pending = seen →
      (pending.marketType = .swap → 0 ≤ engine.positionManager.contractsOf pending) →
      LaterFills pending seen reports →
      (∀ report ∈ reports, report.tradeMode = pending.tradeMode) →
      (∃ after, handleReports registry clientOrderId engine reports = some after) ∧
        movedOver registry clientOrderId engine reports = engine.positionManager.movable pending
          (decode (finalVolume seen reports - seen) info.volumePrecision) := by
  induction reports with
  | nil =>
      intro engine seen _ _ nonneg _ _
      refine ⟨⟨engine, rfl⟩, ?_⟩
      rw [movedOver, Runs.total_nil, finalVolume, sub_self, decode_zero,
        PositionManager.movable_zero nonneg]
  | cons report rest ih =>
      intro engine seen live tracked nonneg fills modes
      obtain ⟨same, ordered, status, later⟩ := fills
      have trade : SameTrade pending report := ⟨same, modes report List.mem_cons_self⟩
      have knownHere : registry.get report.instrument = some info := by
        rw [same.instrument]
        exact known
      have trackedHere : engine.positionManager.fillTracker report = seen := by
        rw [same.fillTracker]
        exact tracked
      have liveHere : report.orderId ∈ engine.liveOrderInstruments := by
        rw [same.orderId]
        exact live
      obtain ⟨pm, applied, step⟩ := PositionManager.applyReport_fillStep knownHere
        (status.symm.imp And.left id)
        (fun swap => by
          rw [same.contractsOf]
          exact nonneg (same.marketType.symm.trans swap))
        (by rw [trackedHere]; exact ordered)
      obtain ⟨next, stepped, effect⟩ := TradingEngine.handleOrderUpdate_live clientOrderId liveHere
        applied
      -- After a FILLED report nothing follows, so only a partial one has to hand over.
      have continues : (∃ after, handleReports registry clientOrderId next rest = some after) ∧
          movedOver registry clientOrderId next rest = next.positionManager.movable pending
            (decode (finalVolume report.filledVolume rest - report.filledVolume)
              info.volumePrecision) := by
        have nonnegNext : pending.marketType = .swap →
            0 ≤ next.positionManager.contractsOf pending := by
          intro swap
          rw [effect.positions, ← same.contractsOf]
          exact step.contracts (same.marketType.trans swap)
        rcases status with isPartial | ⟨_, last⟩
        · refine ih next report.filledVolume ?_ ?_ nonnegNext later
            fun other member => modes other (List.mem_cons_of_mem _ member)
          · rw [effect.live, TradingEngine.mem_updateLiveOrders, isPartial]
            exact Or.inr ⟨same.orderId.symm, Or.inr ⟨rfl, live⟩⟩
          · rw [effect.positions, ← same.fillTracker, step.tracker,
              if_neg (by rw [isPartial]; decide)]
        · subst last
          refine ⟨⟨next, rfl⟩, ?_⟩
          rw [movedOver, Runs.total_nil, finalVolume, sub_self, decode_zero,
            PositionManager.movable_zero nonnegNext]
      obtain ⟨⟨after, ranRest⟩, movedRest⟩ := continues
      have restNonneg : 0 ≤ decode (finalVolume report.filledVolume rest - report.filledVolume)
          info.volumePrecision :=
        (decode_nonneg _).mpr (Int.sub_nonneg.mpr (le_finalVolume rest report.filledVolume later))
      refine ⟨⟨after, ?_⟩, ?_⟩
      · rw [handleReports, Runs.run_cons, stepped]
        exact ranRest
      · have total := Runs.total_cons
          (fun (engine : TradingEngine) report =>
            engine.handleOrderUpdate registry report clientOrderId)
          (handledMoves registry clientOrderId) rest stepped
        have here : handledMoves registry clientOrderId engine report =
            engine.positionManager.fillMoved pm report := by
          rw [handledMoves, stepped, ← effect.positions]
        have sum := step.rest _ restNonneg
        rw [trackedHere, trade.movable, trade.movable, trade.movable, ← decode_add] at sum
        rw [movedOver, total, ← movedOver, movedRest, here, step.moved, trackedHere, trade.movable,
          effect.positions, add_comm, sum, finalVolume]
        congr 2
        ring

theorem LaterFills.mono {reports : List ExecutionReport} {seen earlier : Int}
    (fills : LaterFills pending seen reports) (before : earlier ≤ seen) :
    LaterFills pending earlier reports := by
  cases reports with
  | nil => trivial
  | cons report rest => exact ⟨fills.1, before.trans fills.2.1, fills.2.2⟩

end Reports

/-! ## The engine that `Init` leaves -/

section Init
variable {strategyInstruments : List String} {balances : List (String × PositionManager.Balance)}
  {swapPositions : List ((String × PosSide) × SwapPosition)}
  {spotPending swapPending : List PendingOrderInfo}

theorem insertLive_fold (orders : List ExecutionReport) : ∀ engine : TradingEngine,
    let loaded := orders.foldl
      (fun engine order => engine.insertLive order.orderId order.instrument) engine
    loaded.positionManager = engine.positionManager ∧
      (∀ orderId ∈ engine.liveOrderInstruments, orderId ∈ loaded.liveOrderInstruments) ∧
      ∀ order ∈ orders, order.orderId ∈ loaded.liveOrderInstruments := by
  induction orders with
  | nil => exact fun engine => ⟨rfl, fun _ live => live, fun _ member => nomatch member⟩
  | cons first rest ih =>
      intro engine
      obtain ⟨positions, kept, added⟩ := ih (engine.insertLive first.orderId first.instrument)
      refine ⟨positions, fun orderId live => kept orderId ?_, fun order member => ?_⟩
      · exact Finmap.mem_insert.mpr (Or.inr live)
      · rcases List.mem_cons.mp member with isFirst | later
        · rw [isFirst]
          exact kept _ (Finmap.mem_insert.mpr (Or.inl rfl))
        · exact added order later

theorem init_positions :
    (TradingEngine.init strategyInstruments balances swapPositions spotPending
        swapPending).positionManager =
      (PositionManager.initSpotFromExchange {} balances).initSwapFromExchange swapPositions :=
  (insertLive_fold _ _).1

theorem init_live {order : PendingOrderInfo} (returned : order ∈ spotPending ++ swapPending) :
    order.report.orderId ∈ (TradingEngine.init strategyInstruments balances swapPositions
      spotPending swapPending).liveOrderInstruments :=
  (insertLive_fold _ _).2.2 _ (List.mem_map_of_mem returned)

theorem init_fillTracker (report : ExecutionReport) :
    (TradingEngine.init strategyInstruments balances swapPositions spotPending
      swapPending).positionManager.fillTracker report = 0 := by
  rw [init_positions, PositionManager.fillTracker]
  split <;> rfl

/-- `QuerySwapPositions` returns positive positions only. -/
theorem init_contracts (positive : ∀ entry ∈ swapPositions, 0 < entry.2.contracts)
    (report : ExecutionReport) :
    0 ≤ (TradingEngine.init strategyInstruments balances swapPositions spotPending
      swapPending).positionManager.contractsOf report := by
  have loaded : ∀ (entries : List ((String × PosSide) × SwapPosition))
      (table : UnorderedMap (String × PosSide) SwapPosition),
      (∀ entry ∈ entries, 0 < entry.2.contracts) → (∀ key, 0 ≤ (table.getD key {}).contracts) →
      ∀ key, 0 ≤ ((entries.foldl (fun table entry => table.insert entry.1 entry.2) table).getD key
        {}).contracts := by
    intro entries
    induction entries with
    | nil => exact fun table _ nonneg => nonneg
    | cons entry rest ih =>
        intro table positive nonneg
        refine ih _ (fun other member => positive other (List.mem_cons_of_mem _ member)) ?_
        intro key
        rw [UnorderedMap.getD_insert]
        split
        · exact (positive entry List.mem_cons_self).le
        · exact nonneg key
  rw [init_positions]
  exact loaded swapPositions ∅ positive (fun _ => le_refl 0)
    (report.instrument, report.positionSide)

end Init

/-- The restarts after which the handlers move what they should: no report arrives,
a margin SELL, which moves no base, fills nothing more, any other order had filled
nothing, or a closing order is cut off by its position exactly where it should be. -/
def RestartSafe (info : InstrumentInfo) (pm : PositionManager) (pending : ExecutionReport)
    (reports : List ExecutionReport) : Prop :=
  let filled := decode (finalVolume pending.filledVolume reports) info.volumePrecision
  reports = [] ∨
    (MarginSell pending ∧ finalVolume pending.filledVolume reports = pending.filledVolume) ∨
    (¬ MarginSell pending ∧ pending.filledVolume = 0 ∧
      (Closes pending → filled ≤ pm.contractsOf pending)) ∨
    (Closes pending ∧
      pm.contractsOf pending = filled - decode pending.filledVolume info.volumePrecision)

theorem movable_eq_rest_iff {info : InstrumentInfo} {pm : PositionManager}
    {pending : ExecutionReport} {filled : Int} (nonneg : 0 ≤ pending.filledVolume) :
    pm.movable pending (decode filled info.volumePrecision) =
        decode filled info.volumePrecision - decode pending.filledVolume info.volumePrecision ↔
      (MarginSell pending ∧ filled = pending.filledVolume) ∨
        (¬ MarginSell pending ∧ pending.filledVolume = 0 ∧
          (Closes pending → decode filled info.volumePrecision ≤ pm.contractsOf pending)) ∨
        (Closes pending ∧ pm.contractsOf pending = decode filled info.volumePrecision -
          decode pending.filledVolume info.volumePrecision) := by
  have early : 0 ≤ decode pending.filledVolume info.volumePrecision := (decode_nonneg _).mpr nonneg
  have isZero : decode pending.filledVolume info.volumePrecision = 0 ↔
      pending.filledVolume = 0 := by
    rw [← decode_zero info.volumePrecision, decode_inj]
  by_cases closes : Closes pending
  · have notMargin : ¬ MarginSell pending := fun margin => margin.not_closes closes
    rw [PositionManager.movable_of_closes closes]
    rcases le_total (pm.contractsOf pending) (decode filled info.volumePrecision) with
      short | enough
    · rw [min_eq_left short]
      constructor
      · exact fun exactly => Or.inr (Or.inr ⟨closes, exactly⟩)
      · rintro (⟨margin, _⟩ | ⟨_, untouched, covers⟩ | ⟨_, exactly⟩)
        · exact absurd margin notMargin
        · rw [untouched, decode_zero, sub_zero]
          exact le_antisymm short (covers closes)
        · exact exactly
    · rw [min_eq_right enough]
      constructor
      · intro whole
        exact Or.inr (Or.inl ⟨notMargin, isZero.mp (by linarith), fun _ => enough⟩)
      · rintro (⟨margin, _⟩ | ⟨_, untouched, _⟩ | ⟨_, exactly⟩)
        · exact absurd margin notMargin
        · rw [untouched, decode_zero, sub_zero]
        · linarith
  · rw [PositionManager.movable_of_not_closes closes]
    by_cases margin : MarginSell pending
    · rw [if_pos margin, eq_comm, sub_eq_zero, decode_inj]
      constructor
      · exact fun nothing => Or.inl ⟨margin, nothing⟩
      · rintro (⟨_, nothing⟩ | ⟨notMargin, _⟩ | ⟨absurdity, _⟩)
        · exact nothing
        · exact absurd margin notMargin
        · exact absurd absurdity closes
    · rw [if_neg margin, eq_comm, sub_eq_self, isZero]
      constructor
      · exact fun untouched =>
          Or.inr (Or.inl ⟨margin, untouched, fun absurdity => absurd absurdity closes⟩)
      · rintro (⟨absurdity, _⟩ | ⟨_, untouched, _⟩ | ⟨absurdity, _⟩)
        · exact absurd absurdity margin
        · exact untouched
        · exact absurd absurdity closes

/-- After a restart an order moves what it fills from then on exactly when the
restart is safe for it. -/
theorem moved_after_restart_iff {registry : InstrumentRegistry} {info : InstrumentInfo}
    {strategyInstruments : List String} {balances : List (String × PositionManager.Balance)}
    {swapPositions : List ((String × PosSide) × SwapPosition)}
    {spotPending swapPending : List PendingOrderInfo} {order : PendingOrderInfo}
    (returned : order ∈ spotPending ++ swapPending)
    (known : registry.get order.report.instrument = some info)
    (positive : ∀ entry ∈ swapPositions, 0 < entry.2.contracts)
    (nonneg : 0 ≤ order.report.filledVolume) (reports : List ExecutionReport)
    (fills : LaterFills order.report order.report.filledVolume reports)
    (modes : ∀ report ∈ reports, report.tradeMode = order.report.tradeMode) :
    let engine := TradingEngine.init strategyInstruments balances swapPositions spotPending
      swapPending
    (∃ after, handleReports registry order.clientOrderId engine reports = some after) ∧
      (movedOver registry order.clientOrderId engine reports =
          decode (finalVolume order.report.filledVolume reports) info.volumePrecision -
            decode order.report.filledVolume info.volumePrecision ↔
        RestartSafe info engine.positionManager order.report reports) := by
  intro engine
  obtain ⟨ran, moved⟩ := movedOver_laterFills known order.clientOrderId reports engine 0
    (init_live returned) (init_fillTracker order.report)
    (fun _ => init_contracts positive order.report) (fills.mono nonneg) modes
  refine ⟨ran, ?_⟩
  rw [sub_zero] at moved
  rw [moved, RestartSafe]
  cases reports with
  | nil =>
      rw [finalVolume, finalVolume, decode_zero, sub_self,
        PositionManager.movable_zero fun _ => init_contracts positive order.report]
      simp
  | cons report rest =>
      simp only [finalVolume, reduceCtorEq, false_or]
      exact movable_eq_rest_iff nonneg

/-! ## One unit filled before the restart, one after it -/

def halfFilled : PendingOrderInfo :=
  { report :=
      { orderId := "9", instrument := "BTC-USDT", status := .partiallyFilled, price := 100,
        totalVolume := 2, filledVolume := 1, avgFillPrice := 100 }
    clientOrderId := "cts4" }

/-- A long position of two contracts is being closed. -/
def halfClosed : PendingOrderInfo :=
  { halfFilled with
    report :=
      { halfFilled.report with marketType := .swap, side := .sell, positionSide := .long } }

def secondUnit (order : PendingOrderInfo) : ExecutionReport :=
  { order.report with status := .filled, filledVolume := 2 }

theorem secondUnit_later (order : PendingOrderInfo) :
    LaterFills order.report 1 [secondUnit order] :=
  ⟨⟨rfl, rfl, rfl, rfl, rfl⟩, one_le_two, Or.inr ⟨rfl, rfl⟩, trivial⟩

def oneContractLeft : List ((String × PosSide) × SwapPosition) :=
  [(("BTC-USDT", .long), { contracts := 1 })]

/-- The one contract that is left is all that the report can remove. -/
theorem moved_after_restart_iff_halfClosed :
    let engine := TradingEngine.init [] [] oneContractLeft [] [halfClosed]
    (∃ after, handleReports btcUsdtRegistry "cts4" engine [secondUnit halfClosed] = some after) ∧
      movedOver btcUsdtRegistry "cts4" engine [secondUnit halfClosed] = 1 := by
  intro engine
  obtain ⟨ran, safe⟩ := moved_after_restart_iff (show halfClosed ∈ [] ++ [halfClosed] from
      List.mem_cons_self) (show btcUsdtRegistry.get "BTC-USDT" = some btcUsdt by decide)
    (show ∀ entry ∈ oneContractLeft, 0 < entry.2.contracts by decide +kernel)
    (by decide) [secondUnit halfClosed] (secondUnit_later halfClosed) (by decide)
  refine ⟨ran, (safe.mpr (Or.inr (Or.inr (Or.inr ⟨by decide, by decide +kernel⟩)))).trans ?_⟩
  decide +kernel

/-- The handlers move two units, one of which the loaded balance already has. -/
theorem restart_moves_twice :
    ¬ ∀ (registry : InstrumentRegistry) (info : InstrumentInfo) (strategyInstruments : List String)
        (balances : List (String × PositionManager.Balance))
        (swapPositions : List ((String × PosSide) × SwapPosition))
        (spotPending swapPending : List PendingOrderInfo) (order : PendingOrderInfo)
        (reports : List ExecutionReport),
      order ∈ spotPending ++ swapPending →
      registry.get order.report.instrument = some info →
      (∀ entry ∈ swapPositions, 0 < entry.2.contracts) → 0 ≤ order.report.filledVolume →
      LaterFills order.report order.report.filledVolume reports →
      (∀ report ∈ reports, report.tradeMode = order.report.tradeMode) →
      movedOver registry order.clientOrderId (TradingEngine.init strategyInstruments balances
          swapPositions spotPending swapPending) reports =
        decode (finalVolume order.report.filledVolume reports) info.volumePrecision -
          decode order.report.filledVolume info.volumePrecision := by
  intro claim
  have moved := claim btcUsdtRegistry btcUsdt [] [] [] [halfFilled] [] halfFilled
    [secondUnit halfFilled] List.mem_cons_self (by decide) (by simp) (by decide)
    (secondUnit_later halfFilled) (by decide)
  exact absurd moved (by decide +kernel)

end CryptoTrading
