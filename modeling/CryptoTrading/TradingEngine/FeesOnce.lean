import CryptoTrading.Clients.OkxQueries
import CryptoTrading.TradingEngine.OrderHistory
import Mathlib.Algebra.BigOperators.Group.List.Basic

/-! # The fees of one order, heard on two paths

An update carries the fee of the fill that caused it, the answer to an order
query the fee of the whole order, and `UpdateSpotOnFill` adds whichever it is
given.  An order that is streamed for a while and then queried has its streamed
fees added twice. -/
set_option autoImplicit false

namespace CryptoTrading

/-- A fill on the exchange: its volume and fee, the order's average price after
it, and whether its update was received. -/
structure ExchangeFill where
  volume : Int
  avgPx : ℚ
  fee : ℚ
  reported : Bool
  deriving DecidableEq

/-- The element that describes the order once `filled` units of it are filled. -/
def orderElement (info : InstrumentInfo) (order : SpotOrder) (feeCcy state : String)
    (filled : Int) (avgPx fillFee : ℚ) : OrderRecord :=
  { instId := order.instrument
    ordId := order.orderId
    state := state
    side := kOkxSide order.side
    posSide := ""
    feeCcy := feeCcy
    tdMode := kOkxTradeMode order.tradeMode
    clOrdId := order.clientOrderId
    px := some (decode order.price info.pricePrecision)
    accFillSz := some (decode filled info.volumePrecision)
    sz := some (decode order.totalVolume info.volumePrecision)
    avgPx := some avgPx
    fillFee := some fillFee }

def filledInAll (fills : List ExchangeFill) : Int := (fills.map ExchangeFill.volume).sum

def accumulatedFee (fills : List ExchangeFill) : ℚ := (fills.map ExchangeFill.fee).sum

def reportedFee (fills : List ExchangeFill) : ℚ :=
  accumulatedFee (fills.filter ExchangeFill.reported)

section Paths
variable (registry : InstrumentRegistry) (info : InstrumentInfo) (order : SpotOrder)
  (feeCcy : String)

/-- The reports that the stream leads to: those of the partial fills that were
received, behind the first `filled` units. -/
def streamedReports : Int → List ExchangeFill → List ExecutionReport
  | _, [] => []
  | filled, fill :: rest =>
      (if fill.reported then
        ((decodeOrderUpdate registry (orderElement info order feeCcy "partially_filled"
          (filled + fill.volume) fill.avgPx fill.fee)).map Prod.fst).toList
      else []) ++ streamedReports (filled + fill.volume) rest

/-- The report that the query leads to once the order is filled. -/
def queriedReports (fills : List ExchangeFill) (avgPx fillFee : ℚ) : List ExecutionReport :=
  ((queryOrderById registry (some
    [{ orderElement info order feeCcy "filled" (filledInAll fills) avgPx fillFee with
        fee := some (accumulatedFee fills) }])).map PendingOrderInfo.report).toList

end Paths

def withoutFee (report : ExecutionReport) : ExecutionReport := { report with fee := 0 }

/-- What the fees of the reports add to a currency: the difference to the same
reports without fees. -/
def feeApplied (registry : InstrumentRegistry) (pm : PositionManager)
    (reports : List ExecutionReport) (currency : String) : Option ℚ := do
  let charged ← runSpotFills registry pm reports
  let free ← runSpotFills registry pm (reports.map withoutFee)
  some ((charged.spot currency).available - (free.spot currency).available)

structure FitsReport (order : SpotOrder) (feeCcy : String) : Prop where
  instrument : setBuffer 32 order.instrument = order.instrument
  orderId : setBuffer 32 order.orderId = order.orderId
  feeCcy : setBuffer 16 feeCcy = feeCcy
  spot : detectMarketType order.instrument = .spot

/-! ## The reports -/

def SpotOrder.feeReport (order : SpotOrder) (feeCcy : String) (status : OrderStatus)
    (filled : Int) (avgPx fee : ℚ) : ExecutionReport :=
  { order.report status filled avgPx with fee := fee, feeCurrency := feeCcy }

section Reports
variable {registry : InstrumentRegistry} {info : InstrumentInfo} {order : SpotOrder}
  {feeCcy : String}

theorem SpotOrder.feeReport_echoes (status : OrderStatus) (filled : Int) (avgPx fee : ℚ) :
    ReportOf order (order.feeReport feeCcy status filled avgPx fee) :=
  ⟨rfl, rfl, rfl, rfl, rfl, rfl, rfl⟩

theorem decodeOrderUpdate_orderElement (known : registry.get order.instrument = some info)
    (fits : FitsReport order feeCcy) (state : String) (filled : Int) (avgPx fillFee : ℚ) :
    decodeOrderUpdate registry (orderElement info order feeCcy state filled avgPx fillFee) =
      some (order.feeReport feeCcy (okxParseOrderState state) filled avgPx fillFee,
        order.clientOrderId) := by
  have found : registry.find order.instrument = some info := known
  simp only [decodeOrderUpdate, orderElement, found, Option.getD_some, encode_decode,
    fits.instrument, fits.orderId, fits.feeCcy, fits.spot]
  -- the two words are read back as what they were written for
  obtain ⟨orderId, clientOrderId, instrument, side, tradeMode, price, totalVolume⟩ := order
  cases side <;> cases tradeMode <;> rfl

def seenReports (order : SpotOrder) (feeCcy : String) : Int → List ExchangeFill →
    List ExecutionReport
  | _, [] => []
  | filled, fill :: rest =>
      (if fill.reported then
        [order.feeReport feeCcy .partiallyFilled (filled + fill.volume) fill.avgPx fill.fee]
      else []) ++ seenReports order feeCcy (filled + fill.volume) rest

theorem streamedReports_eq (known : registry.get order.instrument = some info)
    (fits : FitsReport order feeCcy) (fills : List ExchangeFill) : ∀ filled,
      streamedReports registry info order feeCcy filled fills =
        seenReports order feeCcy filled fills := by
  induction fills with
  | nil =>
      intro filled
      rfl
  | cons fill rest ih =>
      intro filled
      rw [streamedReports, seenReports, ih, decodeOrderUpdate_orderElement known fits]
      rfl

theorem queriedReports_eq (known : registry.get order.instrument = some info)
    (fits : FitsReport order feeCcy) (fills : List ExchangeFill) (avgPx fillFee : ℚ) :
    queriedReports registry info order feeCcy fills avgPx fillFee =
      [order.feeReport feeCcy .filled (filledInAll fills) avgPx (accumulatedFee fills)] := by
  rw [queriedReports, queryOrderById, decodeOrderAnswer_eq, decodeOrderUpdate_orderElement known
    fits]
  rfl

/-! ## Fees on top of fills -/

theorem FillsFrom.withoutFee {reports : List ExecutionReport} : ∀ {seen : Int},
    FillsFrom order seen reports → FillsFrom order seen (reports.map withoutFee) := by
  induction reports with
  | nil =>
      intro seen _
      trivial
  | cons report rest ih =>
      intro seen fills
      obtain ⟨echo, ordered, status, fillsRest⟩ := fills
      refine ⟨⟨echo.orderId, echo.instrument, echo.side, echo.tradeMode, echo.marketType,
        echo.price, echo.totalVolume⟩, ordered, ?_, ih fillsRest⟩
      rcases status with partly | ⟨isFilled, last⟩
      · exact Or.inl partly
      · exact Or.inr ⟨isFilled, by rw [last, List.map_nil]⟩

theorem creditedFrom_withoutFee (currency : String) (reports : List ExecutionReport) :
    ∀ seen, creditedFrom info currency seen (reports.map withoutFee) =
      creditedFrom info currency seen reports := by
  induction reports with
  | nil =>
      intro seen
      rfl
  | cons report rest ih =>
      intro seen
      rw [List.map_cons, creditedFrom, creditedFrom]
      exact congrArg (_ + ·) (ih report.filledVolume)

theorem feesFrom_withoutFee (currency : String) (reports : List ExecutionReport) :
    ∀ seen, feesFrom info currency seen (reports.map withoutFee) = 0 := by
  induction reports with
  | nil =>
      intro seen
      rfl
  | cons report rest ih =>
      intro seen
      have free : PositionManager.feeCredit (withoutFee report) currency = 0 := by
        rw [PositionManager.feeCredit]
        exact ite_self _
      rw [List.map_cons, feesFrom, free, ite_self, zero_add]
      exact ih report.filledVolume

theorem feeApplied_eq (known : registry.get order.instrument = some info)
    {pm : PositionManager} (untracked : pm.spotOrderFillTracker.getD order.orderId 0 = 0)
    {reports : List ExecutionReport} (fills : FillsFrom order 0 reports) (currency : String) :
    feeApplied registry pm reports currency = some (feesFrom info currency 0 reports) := by
  obtain ⟨charged, ranCharged, -, chargedAvailable, -⟩ :=
    runSpotFills_spec known reports pm 0 untracked fills
  obtain ⟨free, ranFree, -, freeAvailable, -⟩ :=
    runSpotFills_spec known (reports.map withoutFee) pm 0 untracked fills.withoutFee
  rw [feeApplied, ranCharged, ranFree]
  simp only [Option.bind_eq_bind, Option.bind_some, Option.some.injEq]
  rw [chargedAvailable, freeAvailable, creditedFrom_withoutFee, feesFrom_withoutFee]
  ring

/-! ## The sum -/

/-- A fee is applied only when it is paid in one of the two currencies. -/
def PaidFromPair (order : SpotOrder) (feeCcy : String) : Prop :=
  feeCcy = extractCurrency .base order.instrument ∨
    feeCcy = extractCurrency .quote order.instrument

instance (order : SpotOrder) (feeCcy : String) : Decidable (PaidFromPair order feeCcy) :=
  inferInstanceAs (Decidable (_ ∨ _))

theorem feeCredit_feeReport (status : OrderStatus) (filled : Int) (avgPx fee : ℚ) :
    PositionManager.feeCredit (order.feeReport feeCcy status filled avgPx fee) feeCcy =
      if PaidFromPair order feeCcy then fee else 0 := by
  rw [PositionManager.feeCredit]
  simp only [SpotOrder.feeReport, SpotOrder.report, true_and]
  rfl

theorem feesFrom_cons_feeReport {seen filled : Int} (ahead : seen < filled) (status : OrderStatus)
    (avgPx fee : ℚ) (rest : List ExecutionReport) :
    feesFrom info feeCcy seen (order.feeReport feeCcy status filled avgPx fee :: rest) =
      (if PaidFromPair order feeCcy then fee else 0) + feesFrom info feeCcy filled rest := by
  have increment : 0 < decode ((order.feeReport feeCcy status filled avgPx fee).filledVolume -
      seen) info.volumePrecision := by
    rw [decode_pos]
    exact Int.sub_pos_of_lt ahead
  rw [feesFrom, if_pos increment, feeCredit_feeReport]
  rfl

theorem reportedFee_cons (fill : ExchangeFill) (rest : List ExchangeFill) :
    reportedFee (fill :: rest) = (if fill.reported then fill.fee else 0) + reportedFee rest := by
  rw [reportedFee, reportedFee, List.filter_cons]
  split
  · rw [accumulatedFee, List.map_cons, List.sum_cons]
    rfl
  · rw [zero_add]

theorem seenReports_append (total : Int) (avgPx fee : ℚ) (fills : List ExchangeFill)
    (positive : ∀ fill ∈ fills, 0 < fill.volume) : ∀ seen filled, seen ≤ filled →
      filled + filledInAll fills < total →
      FillsFrom order seen (seenReports order feeCcy filled fills ++
        [order.feeReport feeCcy .filled total avgPx fee]) ∧
      feesFrom info feeCcy seen (seenReports order feeCcy filled fills ++
          [order.feeReport feeCcy .filled total avgPx fee]) =
        if PaidFromPair order feeCcy then reportedFee fills + fee else 0 := by
  induction fills with
  | nil =>
      intro seen filled ordered less
      have ahead : seen < total := by
        rw [filledInAll, List.map_nil, List.sum_nil] at less
        omega
      refine ⟨⟨SpotOrder.feeReport_echoes .., ahead.le, Or.inr ⟨rfl, rfl⟩, trivial⟩, ?_⟩
      rw [seenReports, List.nil_append, feesFrom_cons_feeReport ahead, feesFrom, add_zero]
      simp [reportedFee, accumulatedFee]
  | cons fill rest ih =>
      intro seen filled ordered less
      have grows := positive fill List.mem_cons_self
      have positiveRest : ∀ other ∈ rest, 0 < other.volume :=
        fun other member => positive other (List.mem_cons_of_mem _ member)
      have lessRest : filled + fill.volume + filledInAll rest < total := by
        rw [filledInAll, List.map_cons, List.sum_cons] at less
        rw [filledInAll]
        omega
      rw [seenReports, reportedFee_cons, List.append_assoc]
      by_cases heard : fill.reported = true
      · obtain ⟨fillsRest, feesRest⟩ := ih positiveRest _ _ (le_refl (filled + fill.volume))
          lessRest
        have ahead : seen < filled + fill.volume := by omega
        rw [if_pos heard, if_pos heard, List.singleton_append]
        refine ⟨⟨SpotOrder.feeReport_echoes .., ahead.le, Or.inl rfl, fillsRest⟩, ?_⟩
        rw [feesFrom_cons_feeReport ahead, feesRest]
        split
        · ring
        · ring
      · rw [if_neg heard, if_neg heard, List.nil_append, zero_add]
        exact ih positiveRest seen (filled + fill.volume) (by omega) lessRest

end Reports

/-- The fees applied over the life of an order are the fees it was charged
exactly when those reported before the stream was lost come to nothing; in a
currency outside the pair no fee is applied at all. -/
theorem feesOnce_iff {registry : InstrumentRegistry} {info : InstrumentInfo} {order : SpotOrder}
    {feeCcy : String} {pm : PositionManager} {fills : List ExchangeFill} {last : ExchangeFill}
    (known : registry.get order.instrument = some info) (fits : FitsReport order feeCcy)
    (untracked : pm.spotOrderFillTracker.getD order.orderId 0 = 0)
    (positive : ∀ fill ∈ fills ++ [last], 0 < fill.volume) :
    feeApplied registry pm (streamedReports registry info order feeCcy 0 fills ++
        queriedReports registry info order feeCcy (fills ++ [last]) last.avgPx last.fee) feeCcy =
      some (accumulatedFee (fills ++ [last])) ↔
    if PaidFromPair order feeCcy then reportedFee fills = 0
    else accumulatedFee (fills ++ [last]) = 0 := by
  have grows : 0 < last.volume := positive last (by simp)
  have less : 0 + filledInAll fills < filledInAll (fills ++ [last]) := by
    simp only [filledInAll, List.map_append, List.sum_append, List.map_cons, List.map_nil,
      List.sum_cons, List.sum_nil]
    omega
  obtain ⟨sequence, fees⟩ := @seenReports_append info order feeCcy (filledInAll (fills ++ [last]))
    last.avgPx (accumulatedFee (fills ++ [last])) fills
    (fun fill member => positive fill (List.mem_append_left _ member)) 0 0 (le_refl 0) less
  rw [streamedReports_eq known fits, queriedReports_eq known fits,
    feeApplied_eq known untracked sequence, fees, Option.some.injEq]
  split
  · exact add_eq_right
  · exact eq_comm

/-- A BUY of two units, filled one at a time for a fee of 0.001 BTC each. -/
def twoFills : SpotOrder :=
  { orderId := "7", clientOrderId := "cts7", instrument := "BTC-USDT", side := .buy,
    tradeMode := .cash, price := 100, totalVolume := 2 }

def oneUnit (reported : Bool) : ExchangeFill :=
  { volume := 1, avgPx := 100, fee := -1 / 1000, reported := reported }

theorem twoFills_fits : FitsReport twoFills "BTC" :=
  ⟨by decide, by decide, by decide, by decide⟩

theorem oneUnit_positive (reported : Bool) :
    ∀ fill ∈ [oneUnit reported] ++ [oneUnit false], 0 < fill.volume := by
  intro fill member
  rcases List.mem_append.mp member with first | second
  · rw [List.mem_singleton.mp first]
    exact Int.one_pos
  · rw [List.mem_singleton.mp second]
    exact Int.one_pos

/-- A unit that was filled, and streamed, without a fee. -/
def freeUnit : ExchangeFill := { volume := 1, avgPx := 100, fee := 0, reported := true }

/-- With the stream lost after a free fill, the 0.001 BTC of the other one are charged. -/
theorem feesOnce_iff_freeFirst :
    feeApplied btcUsdtRegistry {} (streamedReports btcUsdtRegistry btcUsdt twoFills "BTC" 0
        [freeUnit] ++ queriedReports btcUsdtRegistry btcUsdt twoFills "BTC"
          ([freeUnit] ++ [oneUnit false]) (oneUnit false).avgPx (oneUnit false).fee) "BTC" =
      some (accumulatedFee ([freeUnit] ++ [oneUnit false])) :=
  (feesOnce_iff (by decide) twoFills_fits (by decide) (by decide)).mpr (by decide +kernel)

/-- With the stream lost after a fill of 0.001, 0.003 instead of 0.002. -/
theorem streamed_fee_charged_twice :
    ¬ ∀ (registry : InstrumentRegistry) (info : InstrumentInfo) (order : SpotOrder)
        (feeCcy : String) (pm : PositionManager) (fills : List ExchangeFill)
        (last : ExchangeFill),
      registry.get order.instrument = some info → FitsReport order feeCcy →
      pm.spotOrderFillTracker.getD order.orderId 0 = 0 →
      (∀ fill ∈ fills ++ [last], 0 < fill.volume) →
      feeApplied registry pm (streamedReports registry info order feeCcy 0 fills ++
          queriedReports registry info order feeCcy (fills ++ [last]) last.avgPx last.fee)
          feeCcy = some (accumulatedFee (fills ++ [last])) := by
  intro claim
  have charged := claim btcUsdtRegistry btcUsdt twoFills "BTC" {} [oneUnit true] (oneUnit false)
    (by decide) twoFills_fits (by decide) (oneUnit_positive true)
  have actual : feeApplied btcUsdtRegistry {} (streamedReports btcUsdtRegistry btcUsdt twoFills
      "BTC" 0 [oneUnit true] ++ queriedReports btcUsdtRegistry btcUsdt twoFills "BTC"
        ([oneUnit true] ++ [oneUnit false]) (oneUnit false).avgPx (oneUnit false).fee) "BTC" =
      some (-3 / 1000) := by
    decide +kernel
  rw [actual, Option.some.injEq] at charged
  exact absurd charged (by decide +kernel)

end CryptoTrading
