import CryptoTrading.Lib.KeyedTable
import CryptoTrading.TradingEngine.PositionManager

/-! # Account queries of the exchange client

`QueryBalances` and `QuerySwapPositions` from the records of a response on.  A
field is `none` when it is missing or not a number in a string; the reader then
keeps the zero it started with. -/
set_option autoImplicit false

namespace CryptoTrading

/-! ## Balances -/

/-- One element of `details`; a missing `ccy` reads as empty. -/
structure BalanceDetail where
  ccy : String
  availBal : Option ℚ
  frozenBal : Option ℚ
  liab : Option ℚ
  deriving DecidableEq

namespace BalanceDetail

/-- The three amounts, a liability without its sign. -/
def balance (detail : BalanceDetail) : PositionManager.Balance :=
  let borrowed := detail.liab.getD 0
  (detail.availBal.getD 0, detail.frozenBal.getD 0,
    if borrowed < 0 then -borrowed else borrowed)

/-- `available > 0 || frozen > 0 || borrowed > 0`. -/
def HasAmount (detail : BalanceDetail) : Prop :=
  detail.balance.1 > 0 ∨ detail.balance.2.1 > 0 ∨ detail.balance.2.2 > 0

instance (detail : BalanceDetail) : Decidable detail.HasAmount :=
  inferInstanceAs (Decidable (_ ∨ _))

end BalanceDetail

def queryBalances (details : List BalanceDetail) : UnorderedMap String PositionManager.Balance :=
  UnorderedMap.collect (fun detail =>
    if detail.ccy = "" then none
    else if detail.HasAmount then some (detail.ccy, detail.balance)
    else none) details

/-! ## Swap positions -/

def okxParsePosSide (text : String) : PosSide :=
  if text = "net" then .net
  else if text = "long" then .long
  else if text = "short" then .short
  else .net

structure PositionRecord where
  instId : String
  posSide : String
  pos : Option ℚ
  avgPx : Option ℚ
  upl : Option ℚ
  deriving DecidableEq

namespace PositionRecord

def key (record : PositionRecord) : String × PosSide :=
  (record.instId, okxParsePosSide (if record.posSide = "" then "net" else record.posSide))

def contracts (record : PositionRecord) : ℚ := record.pos.getD 0

def averageOpeningPrice (record : PositionRecord) : ℚ := record.avgPx.getD 0

def swapPosition (record : PositionRecord) : SwapPosition :=
  { instrument := record.key.1
    positionSide := record.key.2
    contracts := record.contracts
    averageOpeningPrice := record.averageOpeningPrice
    unrealizedProfitLoss := record.upl.getD 0 }

end PositionRecord

/-- The map of maps, keyed by the pair. -/
def querySwapPositions (records : List PositionRecord) :
    UnorderedMap (String × PosSide) SwapPosition :=
  UnorderedMap.collect (fun record =>
    if record.contracts > 0 then some (record.key, record.swapPosition) else none) records

/-! ## What the filters keep -/

section Queries
open UnorderedMap

/-- A currency with one record is kept if that has an amount. -/
theorem lookup_queryBalances {details : List BalanceDetail}
    (distinct : (details.map BalanceDetail.ccy).Nodup) {detail : BalanceDetail}
    (member : detail ∈ details) (named : detail.ccy ≠ "") :
    Finmap.lookup detail.ccy (queryBalances details) =
      if detail.HasAmount then some detail.balance else none := by
  rw [queryBalances, lookup_collect_of_mem ?_ distinct member, if_neg named]
  · split <;> rfl
  · intro record entry selected
    split at selected
    · cases selected
    · split at selected <;> cases selected
      rfl

theorem lookup_queryBalances_of_unlisted {details : List BalanceDetail} {currency : String}
    (unlisted : ∀ detail ∈ details, detail.ccy = currency → detail.ccy = "") :
    Finmap.lookup currency (queryBalances details) = none := by
  apply lookup_collect_eq_none
  intro detail member entry selected
  split at selected
  · cases selected
  · rename_i named
    split at selected <;> cases selected
    exact fun same => named (unlisted detail member same)

theorem lookup_querySwapPositions {records : List PositionRecord}
    (distinct : (records.map PositionRecord.key).Nodup) {record : PositionRecord}
    (member : record ∈ records) :
    Finmap.lookup record.key (querySwapPositions records) =
      if record.contracts > 0 then some record.swapPosition else none := by
  rw [querySwapPositions, lookup_collect_of_mem ?_ distinct member]
  · split <;> rfl
  · intro other entry selected
    split at selected <;> cases selected
    rfl

theorem lookup_querySwapPositions_of_unlisted {records : List PositionRecord}
    {key : String × PosSide} (unlisted : ∀ record ∈ records, record.key ≠ key) :
    Finmap.lookup key (querySwapPositions records) = none := by
  apply lookup_collect_eq_none
  intro record member entry selected
  split at selected <;> cases selected
  exact unlisted record member

end Queries

end CryptoTrading
