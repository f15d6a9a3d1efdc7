import CryptoTrading.Lib.UnorderedMap
import Mathlib.Data.Rat.Defs

/-! # Data model of the SDK

The enumerations and records of `defs.hpp` that the engines exchange, with
prices and volumes as scaled integers and the two double fields of a report as
rationals.  A character buffer is the string it holds; `setBuffer` is the
truncating copy the setters make. -/
set_option autoImplicit false

namespace CryptoTrading

inductive MarketType where
  | spot | swap
  deriving DecidableEq, Repr

inductive Side where
  | buy | sell
  deriving DecidableEq, Repr

inductive PosSide where
  | net | long | short
  deriving DecidableEq, Repr

inductive Action where
  | buy | sell | cancel
  deriving DecidableEq, Repr

inductive OrderType where
  | market | limit
  deriving DecidableEq, Repr

inductive TradeMode where
  | cash | cross | isolated
  deriving DecidableEq, Repr

inductive OrderStatus where
  | new | filled | partiallyFilled | cancelled | cancelFailed | rejected
  deriving DecidableEq, Repr

/-- `strncpy` into a buffer of `capacity` bytes that is always terminated.  Names are
ASCII, a byte for each character. -/
def setBuffer (capacity : Nat) (src : String) : String :=
  String.ofList ((src.toList.takeWhile (· ≠ '\x00')).take (capacity - 1))

structure Signal where
  instrument : String
  orderId : String
  action : Action
  orderType : OrderType
  marketType : MarketType
  positionSide : PosSide
  tradeMode : TradeMode
  price : Int
  volume : Int
  deriving DecidableEq, Repr

/-- The defaults are those of `ExecutionReport{}`: every member zero. -/
structure ExecutionReport where
  instrument : String := ""
  orderId : String := ""
  status : OrderStatus := .new
  side : Side := .buy
  marketType : MarketType := .spot
  positionSide : PosSide := .net
  tradeMode : TradeMode := .cash
  price : Int := 0
  filledVolume : Int := 0
  totalVolume : Int := 0
  avgFillPrice : ℚ := 0
  fee : ℚ := 0
  feeCurrency : String := ""
  deriving DecidableEq, Repr

structure OrderRequest where
  instrument : String
  side : Side
  orderType : OrderType
  marketType : MarketType
  positionSide : PosSide
  tradeMode : TradeMode
  size : String := ""
  price : String := ""
  targetCurrency : String := ""
  clientOrderId : String := ""
  deriving DecidableEq, Repr

structure SwapPosition where
  instrument : String := ""
  positionSide : PosSide := .net
  contracts : ℚ := 0
  averageOpeningPrice : ℚ := 0
  unrealizedProfitLoss : ℚ := 0
  deriving DecidableEq, Repr

structure InstrumentInfo where
  instrument : String := ""
  pricePrecision : Nat := 0
  volumePrecision : Nat := 0
  deriving DecidableEq, Repr

/-! ## Instrument registry -/

abbrev InstrumentRegistry : Type := UnorderedMap String InstrumentInfo

/-- `Add` files an entry under the name its buffer holds. -/
def InstrumentRegistry.add (registry : InstrumentRegistry) (info : InstrumentInfo) :
    InstrumentRegistry :=
  Finmap.insert info.instrument info registry

/-- `Find`: a null pointer is `none`. -/
def InstrumentRegistry.find (registry : InstrumentRegistry) (instrument : String) :
    Option InstrumentInfo :=
  Finmap.lookup instrument registry

/-- `Get`: `none` is `std::out_of_range`, which no caller catches. -/
def InstrumentRegistry.get (registry : InstrumentRegistry) (instrument : String) :
    Option InstrumentInfo :=
  Finmap.lookup instrument registry

/-! ## Instrument names -/

/-- The two parts around the first dash, if there is one. -/
def dashSplit (instrument : String) : Option (String × String) :=
  if '-' ∈ instrument.toList then
    some (String.ofList (instrument.toList.takeWhile (· ≠ '-')),
      String.ofList (instrument.toList.dropWhile (· ≠ '-')).tail)
  else none

def detectMarketType (instrument : String) : MarketType :=
  let swapSuffix := "-SWAP".toList
  let chars := instrument.toList
  if chars.length > swapSuffix.length ∧
      chars.drop (chars.length - swapSuffix.length) = swapSuffix then .swap
  else .spot

/-! ## Shared-memory rings

At this level a ring is the bounded queue of its unpopped entries. -/

def signalRingCapacity : Nat := 1024

def executionReportRingCapacity : Nat := 4096

/-- `none` is the refusal of a full ring. -/
def shmPush {α : Type} (capacity : Nat) (ring : List α) (entry : α) : Option (List α) :=
  if ring.length < capacity then some (ring ++ [entry]) else none

def shmPop {α : Type} : List α → Option (α × List α)
  | [] => none
  | entry :: rest => some (entry, rest)

end CryptoTrading
