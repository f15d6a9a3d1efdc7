import CryptoTrading.Sdk.Defs

/-! # Market data of the SDK

The records that the quotation engine publishes.  The two level arrays of a
`Depth` are the levels that are filled, so that their counts are the lengths. -/
set_option autoImplicit false

namespace CryptoTrading

def maxDepthLevels : ℕ := 5

structure Ticker where
  instrument : String := ""
  marketType : MarketType := .spot
  lastPrice : Int := 0
  lastVolume : Int := 0
  bidPrice : Int := 0
  bidVolume : Int := 0
  askPrice : Int := 0
  askVolume : Int := 0
  open24h : Int := 0
  high24h : Int := 0
  low24h : Int := 0
  volume24h : Int := 0
  volumeCurrency24h : ℚ := 0
  deriving DecidableEq, Repr

structure BBO where
  instrument : String := ""
  marketType : MarketType := .spot
  bidPrice : Int := 0
  bidVolume : Int := 0
  askPrice : Int := 0
  askVolume : Int := 0
  deriving DecidableEq, Repr

structure PriceLevel where
  price : Int := 0
  volume : Int := 0
  orderCount : Int := 0
  deriving DecidableEq, Repr

structure Depth where
  instrument : String := ""
  marketType : MarketType := .spot
  asks : List PriceLevel := []
  bids : List PriceLevel := []
  deriving DecidableEq, Repr

structure Trade where
  instrument : String := ""
  tradeId : String := ""
  marketType : MarketType := .spot
  side : Side := .buy
  price : Int := 0
  volume : Int := 0
  deriving DecidableEq, Repr

/-- What one of the four market data callbacks is called with. -/
inductive MarketData where
  | ticker (ticker : Ticker)
  | bbo (bbo : BBO)
  | depth (depth : Depth)
  | trade (trade : Trade)
  deriving DecidableEq, Repr

end CryptoTrading
