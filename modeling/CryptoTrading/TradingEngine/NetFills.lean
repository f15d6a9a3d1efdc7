import CryptoTrading.TradingEngine.SwapFills
import CryptoTrading.TradingEngine.SwapSync

/-! # Net positions

On the NET side a BUY adds and a SELL subtracts, and the exchange's position is
negative when more was sold than bought.  The load drops such a position and a
SELL is cut off at zero, so the local contracts only follow a net amount that
never becomes negative. -/
set_option autoImplicit false

namespace CryptoTrading

open UnorderedMap (IterationOrder entriesIn)

/-- `InitSwapFromExchange` with what `QuerySwapPositions` returns. -/
def loadedPositions (iteration : IterationOrder (String × PosSide)) (pm : PositionManager)
    (records : List PositionRecord) : PositionManager :=
  pm.initSwapFromExchange (entriesIn iteration (querySwapPositions records))

/-- The signed position of the exchange, all BUY fills and all SELL fills. -/
def signedNet (registry : InstrumentRegistry) (orders : String → ExecutionReport)
    (records : List PositionRecord) (instrument : String) (reports : List ExecutionReport) : ℚ :=
  (exchangePosition records (instrument, .net)).1 +
      filledBy registry orders (fun order => order.side = .buy) reports -
    filledBy registry orders (fun order => order.side = .sell) reports

section Loading
variable (iteration : IterationOrder (String × PosSide)) (pm : PositionManager)
  {records : List PositionRecord}

theorem swap_initSwapFromExchange (positions : UnorderedMap (String × PosSide) SwapPosition)
    (key : String × PosSide) :
    (pm.initSwapFromExchange (entriesIn iteration positions)).swap key.1 key.2 =
      positions.getD key {} := by
  have loaded : Finmap.lookup key (pm.initSwapFromExchange
      (entriesIn iteration positions)).swapPositions = Finmap.lookup key positions := by
    refine (UnorderedMap.lookup_mergeAll_entriesIn (fun _ _ position => position) iteration ∅
      positions key).trans ?_
    cases Finmap.lookup key positions <;> rfl
  rw [PositionManager.swap, UnorderedMap.getD, loaded]
  rfl

/-- A position that is not positive is loaded as none at all. -/
theorem contracts_loadedPositions (distinct : (records.map PositionRecord.key).Nodup)
    (key : String × PosSide) :
    ((loadedPositions iteration pm records).swap key.1 key.2).contracts =
      max 0 (exchangePosition records key).1 := by
  rw [loadedPositions, swap_initSwapFromExchange, UnorderedMap.getD]
  rcases @querySwapPositions_cases records key distinct with
    ⟨positive, exchange, found, same⟩ | ⟨notPositive, missed⟩
  · rw [found, max_eq_right positive.le, ← same]
    rfl
  · rw [missed, max_eq_left (not_lt.mp notPositive)]
    rfl

variable {pm} in
theorem untracked_loadedPositions (untracked : pm.swapOrderFillTracker = ∅) :
    (loadedPositions iteration pm records).swapOrderFillTracker = ∅ := untracked

theorem loadedPositions_nonneg (distinct : (records.map PositionRecord.key).Nodup) :
    (loadedPositions iteration pm records).ContractsNonneg := by
  intro instrument positionSide
  rw [contracts_loadedPositions iteration pm distinct (instrument, positionSide)]
  exact le_max_left _ _

end Loading

theorem signedNet_eq {registry : InstrumentRegistry} {orders : String → ExecutionReport}
    {records : List PositionRecord} {instrument : String} {reports : List ExecutionReport}
    (histories : FillHistories orders reports)
    (nets : ∀ report ∈ reports, report.swapKey = (instrument, .net)) :
    signedNet registry orders records instrument reports =
      (exchangePosition records (instrument, .net)).1 +
        netFills registry orders (instrument, .net) reports := by
  have keys : ∀ report ∈ reports, (orders report.orderId).swapKey = (instrument, .net) := by
    intro report member
    rw [← (histories.same member).swapKey]
    exact nets report member
  have sides : ∀ report ∈ reports, (orders report.orderId).positionSide = .net :=
    fun report member => congrArg Prod.snd (keys report member)
  rw [signedNet, add_sub_assoc, filledBy_sub_filledBy (instrument, .net)]
  · intro report member
    simp [keys report member, sides report member, PositionManager.isOpening]
  · intro report member
    rw [sides report member]
    cases side : (orders report.orderId).side <;>
      simp [keys report member, PositionManager.isOpening]

/-- A loaded net position ends at the signed net exactly when that is not
negative at the load nor after any of the reports. -/
theorem netContracts_iff (iteration : IterationOrder (String × PosSide))
    {registry : InstrumentRegistry} {orders : String → ExecutionReport} {pm : PositionManager}
    {records : List PositionRecord} {instrument : String} {reports : List ExecutionReport}
    (distinct : (records.map PositionRecord.key).Nodup)
    (untracked : pm.swapOrderFillTracker = ∅) (histories : FillHistories orders reports)
    (nets : ∀ report ∈ reports, report.swapKey = (instrument, .net)) :
    ((registry.get instrument).isSome →
      ∃ after, swapFills registry (loadedPositions iteration pm records) reports = some after) ∧
    ∀ after, swapFills registry (loadedPositions iteration pm records) reports = some after →
      ((after.swap instrument .net).contracts =
          signedNet registry orders records instrument reports ↔
        ∀ front, front <+: reports →
          0 ≤ signedNet registry orders records instrument front) := by
  refine ⟨fun registered => swapFills_runs _ fun report member => ?_, fun after ran => ?_⟩
  · have same : report.instrument = instrument := congrArg Prod.fst (nets report member)
    rw [same]
    exact registered
  · have follows := contracts_follow (untracked_loadedPositions iteration untracked)
      (loadedPositions_nonneg iteration pm distinct) histories (instrument, .net)
      (contracts_loadedPositions iteration pm distinct (instrument, .net)) ran
    have level : levelAfter registry (loadedPositions iteration pm records) (instrument, .net)
        reports = (after.swap instrument .net).contracts := by
      rw [levelAfter, ran]
      rfl
    rw [signedNet_eq histories nets, ← level, follows.level_eq_iff]
    refine forall_congr' fun front => imp_congr_right fun first => ?_
    rw [signedNet_eq (histories.of_prefix first) fun report member =>
      nets report (first.subset member)]

def netRecord (pos : ℚ) : PositionRecord :=
  { instId := "BTC-USDT", posSide := "net", pos := some pos, avgPx := none, upl := none }

/-- A BUY of two contracts, filled at once. -/
def netBuy (orderId : String) : ExecutionReport :=
  { instrument := "BTC-USDT", orderId := orderId, status := .filled, marketType := .swap,
    filledVolume := 2 }

theorem netBuy_histories : FillHistories netBuy [netBuy "1"] := by
  intro orderId
  by_cases own : orderId = "1"
  · subst own
    exact ⟨⟨rfl, rfl, rfl, rfl, rfl⟩, by decide, Or.inr ⟨rfl, rfl⟩, trivial⟩
  · have none : reportsOf orderId [netBuy "1"] = [] := by
      simp [reportsOf, Histories.history, netBuy, Ne.symm own]
    rw [none]
    trivial

/-- A BUY of two under the id "1", and a SELL of three under any other. -/
def netOrders (orderId : String) : ExecutionReport :=
  if orderId = "1" then netBuy "1"
  else { netBuy orderId with side := .sell, filledVolume := 3 }

/-- The SELL is filled between the two fills of the BUY. -/
def bothSides : List ExecutionReport :=
  [{ netOrders "1" with status := .partiallyFilled, filledVolume := 1 }, netOrders "2",
    netOrders "1"]

theorem bothSides_histories : FillHistories netOrders bothSides := by
  intro orderId
  by_cases buy : orderId = "1"
  · subst buy
    exact ⟨⟨rfl, rfl, rfl, rfl, rfl⟩, by decide, Or.inl rfl, ⟨rfl, rfl, rfl, rfl, rfl⟩, by decide,
      Or.inr ⟨rfl, rfl⟩, trivial⟩
  · by_cases sell : orderId = "2"
    · subst sell
      exact ⟨⟨rfl, rfl, rfl, rfl, rfl⟩, by decide, Or.inr ⟨rfl, rfl⟩, trivial⟩
    · have none : reportsOf orderId bothSides = [] := by
        simp [reportsOf, Histories.history, bothSides, netOrders, netBuy, Ne.symm buy,
          Ne.symm sell]
      rw [none]
      trivial

/-- From three contracts on: four, one, and two. -/
theorem netContracts_iff_bothSides : ∃ after,
    swapFills btcUsdtRegistry (loadedPositions IterationOrder.ofToList {} [netRecord 3])
        bothSides = some after ∧
      (after.swap "BTC-USDT" .net).contracts =
        signedNet btcUsdtRegistry netOrders [netRecord 3] "BTC-USDT" bothSides := by
  obtain ⟨runs, exactly⟩ := netContracts_iff IterationOrder.ofToList
    (show ([netRecord 3].map PositionRecord.key).Nodup from List.nodup_singleton _)
    (show ({} : PositionManager).swapOrderFillTracker = ∅ from rfl) bothSides_histories
    (show ∀ report ∈ bothSides, report.swapKey = ("BTC-USDT", .net) by decide)
  obtain ⟨after, ran⟩ := runs (show (btcUsdtRegistry.get "BTC-USDT").isSome by decide)
  have covered : ∀ front ∈ bothSides.inits,
      0 ≤ signedNet btcUsdtRegistry netOrders [netRecord 3] "BTC-USDT" front := by decide +kernel
  exact ⟨after, ran, (exactly after ran).mpr fun front first =>
    covered front ((List.mem_inits front bothSides).mpr first)⟩

/-- The exchange has two contracts short, which the load drops: buying them back
leaves two contracts that do not exist. -/
theorem short_bought_back_stays :
    ¬ ∀ (iteration : IterationOrder (String × PosSide)) (registry : InstrumentRegistry)
        (orders : String → ExecutionReport) (pm : PositionManager)
        (records : List PositionRecord) (instrument : String) (reports : List ExecutionReport),
      (records.map PositionRecord.key).Nodup → pm.swapOrderFillTracker = ∅ →
      FillHistories orders reports →
      (∀ report ∈ reports, report.swapKey = (instrument, .net)) →
      ∀ after, swapFills registry (loadedPositions iteration pm records) reports = some after →
        (after.swap instrument .net).contracts =
          signedNet registry orders records instrument reports := by
  intro claim
  have dropped : querySwapPositions [netRecord (-2)] = ∅ := by decide +kernel
  have loaded : loadedPositions IterationOrder.ofToList {} [netRecord (-2)] = {} := by
    rw [loadedPositions, dropped, entriesIn, Finmap.keys_empty, IterationOrder.ofToList]
    simp [PositionManager.initSwapFromExchange]
  have bought : (swapFills btcUsdtRegistry {} [netBuy "1"]).map
      (fun after => (after.swap "BTC-USDT" .net).contracts) = some 2 := by decide +kernel
  obtain ⟨after, ran, contracts⟩ := Option.map_eq_some_iff.mp bought
  have same := claim IterationOrder.ofToList btcUsdtRegistry netBuy {} [netRecord (-2)] "BTC-USDT"
    [netBuy "1"] (List.nodup_singleton _) rfl netBuy_histories (by decide) after
    (by rw [loaded]; exact ran)
  rw [contracts] at same
  exact absurd same (by decide +kernel)

end CryptoTrading
