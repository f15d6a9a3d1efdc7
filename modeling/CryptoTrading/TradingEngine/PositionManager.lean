import CryptoTrading.Sdk.Defs
import CryptoTrading.Sdk.Utils
import Mathlib.Algebra.Order.Group.Abs

/-! # Position manager

The balances, swap positions, reservations and fill trackers of
`position_manager.cpp`, each mutex scope one function on the whole state.  A
result of `none` is the exception of `InstrumentRegistry::Get`, which leaves
the calling thread and ends the process. -/
set_option autoImplicit false

namespace CryptoTrading

structure SpotPosition where
  currency : String := ""
  available : ℚ := 0
  frozen : ℚ := 0
  borrowed : ℚ := 0
  deriving DecidableEq, Repr

inductive CurrencyPart where
  | base | quote
  deriving DecidableEq, Repr

def extractCurrency (part : CurrencyPart) (instrument : String) : String :=
  match dashSplit instrument with
  | none => instrument
  | some (base, quote) =>
      match part with
      | .base => base
      | .quote => quote

structure PositionManager where
  spotPositions : UnorderedMap String SpotPosition := ∅
  swapPositions : UnorderedMap (String × PosSide) SwapPosition := ∅
  spotOrderFillTracker : UnorderedMap String Int := ∅
  swapOrderFillTracker : UnorderedMap String Int := ∅
  spotReserved : UnorderedMap String ℚ := ∅
  deriving DecidableEq

namespace PositionManager

/-! ## Entries read through `operator[]` -/

def spot (pm : PositionManager) (currency : String) : SpotPosition :=
  pm.spotPositions.getD currency {}

def reserved (pm : PositionManager) (currency : String) : ℚ :=
  pm.spotReserved.getD currency 0

def swap (pm : PositionManager) (instrument : String) (positionSide : PosSide) : SwapPosition :=
  pm.swapPositions.getD (instrument, positionSide) {}

def modifySpot (pm : PositionManager) (currency : String)
    (change : SpotPosition → SpotPosition) : PositionManager :=
  { pm with spotPositions := pm.spotPositions.insert currency (change (pm.spot currency)) }

/-- `position.currency = currency`. -/
def nameSpot (pm : PositionManager) (currency : String) : PositionManager :=
  pm.modifySpot currency fun position => { position with currency := currency }

/-- `position.available += amount`. -/
def addAvailable (pm : PositionManager) (currency : String) (amount : ℚ) : PositionManager :=
  pm.modifySpot currency fun position =>
    { position with available := position.available + amount }

/-- `position.frozen -= amount`. -/
def subFrozen (pm : PositionManager) (currency : String) (amount : ℚ) : PositionManager :=
  pm.modifySpot currency fun position => { position with frozen := position.frozen - amount }

def setReserved (pm : PositionManager) (currency : String) (amount : ℚ) : PositionManager :=
  { pm with spotReserved := pm.spotReserved.insert currency amount }

def modifySwap (pm : PositionManager) (instrument : String) (positionSide : PosSide)
    (change : SwapPosition → SwapPosition) : PositionManager :=
  { pm with
    swapPositions := pm.swapPositions.insert (instrument, positionSide)
      (change (pm.swap instrument positionSide)) }

/-! ## Reservations -/

def reserveSpot (pm : PositionManager) (currency : String) (amount : ℚ) : PositionManager :=
  pm.setReserved currency (pm.reserved currency + amount)

def getEffectiveAvailableSpot (pm : PositionManager) (currency : String) : ℚ :=
  (pm.spot currency).available - pm.reserved currency

/-- `spot_reserved_[c] = std::max(0.0, spot_reserved_[c] - amount)`. -/
def releaseReserved (pm : PositionManager) (currency : String) (amount : ℚ) : PositionManager :=
  pm.setReserved currency (max 0 (pm.reserved currency - amount))

/-! ## Spot reports -/

def updateSpotOnNew (registry : InstrumentRegistry) (pm : PositionManager)
    (report : ExecutionReport) (tradeMode : TradeMode) : Option PositionManager := do
  let info ← registry.get report.instrument
  if report.side = .buy then
    let quoteCurrency := extractCurrency .quote report.instrument
    let freezeAmount := decode report.price info.pricePrecision *
      decode report.totalVolume info.volumePrecision
    some ((pm.releaseReserved quoteCurrency freezeAmount).modifySpot quoteCurrency fun position =>
      { position with
        currency := quoteCurrency
        available := position.available - freezeAmount
        frozen := position.frozen + freezeAmount })
  else if tradeMode = .cash then
    let baseCurrency := extractCurrency .base report.instrument
    let freezeAmount := decode report.totalVolume info.volumePrecision
    some ((pm.releaseReserved baseCurrency freezeAmount).modifySpot baseCurrency fun position =>
      { position with
        currency := baseCurrency
        available := position.available - freezeAmount
        frozen := position.frozen + freezeAmount })
  else some pm

/-- The tracker update that a spot fill makes before looking at the increment. -/
def trackSpotFill (pm : PositionManager) (report : ExecutionReport) : PositionManager :=
  { pm with
    spotOrderFillTracker :=
      if report.status = .filled then pm.spotOrderFillTracker.erase report.orderId
      else pm.spotOrderFillTracker.insert report.orderId report.filledVolume }

/-- The fee of a fill goes to the first of the two currencies it is paid in. -/
def creditFee (pm : PositionManager) (report : ExecutionReport) (first second : String) :
    PositionManager :=
  if report.feeCurrency = first then pm.addAvailable first report.fee
  else if report.feeCurrency = second then pm.addAvailable second report.fee
  else pm

def applySpotFill (pm : PositionManager) (report : ExecutionReport) (tradeMode : TradeMode)
    (incremental : ℚ) : PositionManager :=
  let baseCurrency := extractCurrency .base report.instrument
  let quoteCurrency := extractCurrency .quote report.instrument
  let pm := (pm.nameSpot baseCurrency).nameSpot quoteCurrency
  if report.side = .buy then
    let pm := pm.subFrozen quoteCurrency (report.avgFillPrice * incremental)
    let pm := pm.addAvailable baseCurrency incremental
    pm.creditFee report baseCurrency quoteCurrency
  else
    let pm := if tradeMode = .cash then pm.subFrozen baseCurrency incremental else pm
    let pm := pm.addAvailable quoteCurrency (report.avgFillPrice * incremental)
    pm.creditFee report quoteCurrency baseCurrency

def updateSpotOnFill (registry : InstrumentRegistry) (pm : PositionManager)
    (report : ExecutionReport) (tradeMode : TradeMode) : Option PositionManager :=
  if report.status = .filled ∨ report.status = .partiallyFilled then
    let incrementalScaled :=
      report.filledVolume - pm.spotOrderFillTracker.getD report.orderId 0
    let pm := pm.trackSpotFill report
    if incrementalScaled ≤ 0 then some pm
    else do
      let info ← registry.get report.instrument
      some (pm.applySpotFill report tradeMode (decode incrementalScaled info.volumePrecision))
  else some pm

def updateSpotOnCancel (registry : InstrumentRegistry) (pm : PositionManager)
    (report : ExecutionReport) (tradeMode : TradeMode) : Option PositionManager :=
  if report.status = .cancelled then do
    let remainingScaled := report.totalVolume - report.filledVolume
    let pm ←
      if remainingScaled > 0 then do
        let info ← registry.get report.instrument
        if report.side = .buy then
          let quoteCurrency := extractCurrency .quote report.instrument
          let releaseAmount := decode remainingScaled info.volumePrecision *
            decode report.price info.pricePrecision
          some (pm.modifySpot quoteCurrency fun position =>
            { position with
              currency := quoteCurrency
              frozen := position.frozen - releaseAmount
              available := position.available + releaseAmount })
        else if tradeMode = .cash then
          let baseCurrency := extractCurrency .base report.instrument
          let remaining := decode remainingScaled info.volumePrecision
          some (pm.modifySpot baseCurrency fun position =>
            { position with
              currency := baseCurrency
              frozen := position.frozen - remaining
              available := position.available + remaining })
        else some pm
      else some pm
    some { pm with spotOrderFillTracker := pm.spotOrderFillTracker.erase report.orderId }
  else some pm

def frozenTolerance : ℚ := 1 / 10 ^ 8

/-- Both sides of a rejection: the order counts as frozen when the whole
currency has that much frozen, otherwise as reserved. -/
def releaseRejected (pm : PositionManager) (currency : String) (amount : ℚ) : PositionManager :=
  -- `spot_positions_[currency]` creates the entry in both branches
  let pm := pm.modifySpot currency fun position => position
  if (pm.spot currency).frozen ≥ amount - frozenTolerance then
    pm.modifySpot currency fun position =>
      { position with
        frozen := position.frozen - amount
        available := position.available + amount }
  else pm.releaseReserved currency amount

def updateSpotOnRejected (registry : InstrumentRegistry) (pm : PositionManager)
    (report : ExecutionReport) (tradeMode : TradeMode) : Option PositionManager := do
  let info ← registry.get report.instrument
  if report.side = .sell ∧ tradeMode ≠ .cash then some pm
  else if report.side = .sell then
    some (pm.releaseRejected (extractCurrency .base report.instrument)
      (decode report.totalVolume info.volumePrecision))
  else
    some (pm.releaseRejected (extractCurrency .quote report.instrument)
      (decode report.price info.pricePrecision * decode report.totalVolume info.volumePrecision))

/-! ## Swap reports -/

def isOpening (positionSide : PosSide) (side : Side) : Bool :=
  match positionSide with
  | .net => side = .buy
  | .long => side = .buy
  | .short => side = .sell

/-- `position.instrument = …; position.position_side = …`. -/
def nameSwap (pm : PositionManager) (report : ExecutionReport) : PositionManager :=
  pm.modifySwap report.instrument report.positionSide fun position =>
    { position with instrument := report.instrument, positionSide := report.positionSide }

def trackSwapFill (pm : PositionManager) (report : ExecutionReport) : PositionManager :=
  { pm with
    swapOrderFillTracker :=
      if report.status = .filled then pm.swapOrderFillTracker.erase report.orderId
      else pm.swapOrderFillTracker.insert report.orderId report.filledVolume }

def applySwapFill (pm : PositionManager) (report : ExecutionReport) (incremental : ℚ) :
    PositionManager :=
  pm.modifySwap report.instrument report.positionSide fun position =>
    if isOpening report.positionSide report.side then
      { position with contracts := position.contracts + incremental }
    else
      let contracts := position.contracts - incremental
      { position with contracts := if contracts < 0 then 0 else contracts }

def updateSwapOnFill (registry : InstrumentRegistry) (pm : PositionManager)
    (report : ExecutionReport) : Option PositionManager :=
  let pm := pm.nameSwap report
  let incrementalScaled :=
    report.filledVolume - pm.swapOrderFillTracker.getD report.orderId 0
  let pm := pm.trackSwapFill report
  if incrementalScaled ≤ 0 then some pm
  else do
    let info ← registry.get report.instrument
    some (pm.applySwapFill report (decode incrementalScaled info.volumePrecision))

def updateSwapOnCancel (pm : PositionManager) (report : ExecutionReport) : PositionManager :=
  { pm with swapOrderFillTracker := pm.swapOrderFillTracker.erase report.orderId }

/-- `UpdateSwapOnRejected` only logs. -/
def updateSwapOnRejected (pm : PositionManager) (_report : ExecutionReport) : PositionManager := pm

/-! ## Loading from the exchange -/

abbrev Balance : Type := ℚ × ℚ × ℚ

def initSpotFromExchange (pm : PositionManager) (balances : List (String × Balance)) :
    PositionManager :=
  { pm with
    spotPositions := balances.foldl (fun positions entry =>
      positions.insert entry.1
        { currency := entry.1, available := entry.2.1, frozen := entry.2.2.1,
          borrowed := entry.2.2.2 }) ∅
    spotReserved := ∅ }

def initSwapFromExchange (pm : PositionManager)
    (positions : List ((String × PosSide) × SwapPosition)) : PositionManager :=
  { pm with
    swapPositions := positions.foldl (fun table entry => table.insert entry.1 entry.2) ∅ }

/-! ## Correcting from the exchange -/

/-- The `1e-8` of the two sync functions. -/
def syncTolerance : ℚ := 1 / 10 ^ 8

/-- A known currency is overwritten when one of its amounts is off. -/
def syncSpotFromExchange (pm : PositionManager) (currency : String)
    (exchangeAvailable exchangeFrozen exchangeBorrowed : ℚ) : PositionManager :=
  match pm.spotPositions.lookup currency with
  | none =>
      { pm with
        spotPositions := pm.spotPositions.insert currency
          { currency := currency, available := exchangeAvailable, frozen := exchangeFrozen,
            borrowed := exchangeBorrowed } }
  | some position =>
      if |position.available - exchangeAvailable| > syncTolerance ∨
          |position.frozen - exchangeFrozen| > syncTolerance ∨
          |position.borrowed - exchangeBorrowed| > syncTolerance then
        { pm with
          spotPositions := pm.spotPositions.insert currency
            { position with
              available := exchangeAvailable
              frozen := exchangeFrozen
              borrowed := exchangeBorrowed } }
      else pm

/-- A known position is overwritten when its contracts are off. -/
def syncSwapFromExchange (pm : PositionManager) (instrument : String) (positionSide : PosSide)
    (contracts averageOpeningPrice : ℚ) : PositionManager :=
  match pm.swapPositions.lookup (instrument, positionSide) with
  | none =>
      { pm with
        swapPositions := pm.swapPositions.insert (instrument, positionSide)
          { instrument := instrument, positionSide := positionSide, contracts := contracts,
            averageOpeningPrice := averageOpeningPrice } }
  | some position =>
      if |position.contracts - contracts| > syncTolerance then
        { pm with
          swapPositions := pm.swapPositions.insert (instrument, positionSide)
            { position with
              instrument := instrument
              positionSide := positionSide
              contracts := contracts
              averageOpeningPrice := averageOpeningPrice } }
      else pm

end PositionManager

end CryptoTrading
