import CryptoTrading.TradingEngine.EngineSpec
import CryptoTrading.TradingEngine.OrderHistory

/-! # The recovery of a missed NEW

`HandleOrderUpdate` makes up for a NEW it has not seen before it turns to the
report itself.  The made-up NEW and the report together do what the real NEW
and the report would have done. -/
set_option autoImplicit false

namespace CryptoTrading

namespace TradingEngine

section Recovery
variable {registry : InstrumentRegistry} {engine : TradingEngine} {report : ExecutionReport}
  {clientOrderId : String}

/-- A NEW on the position manager and the live table: what both the normal
path and the recovery do there. -/
def newBook (registry : InstrumentRegistry) (report : ExecutionReport)
    (state : PositionManager × UnorderedMap String String) :
    Option (PositionManager × UnorderedMap String String) :=
  (state.1.updateSpotOnNew registry report report.tradeMode).map fun pm =>
    (pm, state.2.insert report.orderId report.instrument)

theorem finishBook_asNew (spot : report.marketType = .spot)
    (state : PositionManager × UnorderedMap String String) :
    finishBook registry (asNew report) state = newBook registry report state := by
  have asNewSpot : (asNew report).marketType = .spot := spot
  rw [finishBook, if_neg (by simp [asNew]), applyReport_spotNew registry asNewSpot rfl]
  rfl

theorem book_handleOrderUpdate_asNew (registry : InstrumentRegistry) (engine : TradingEngine)
    (clientOrderId : String) (spot : report.marketType = .spot) :
    (engine.handleOrderUpdate registry (asNew report) clientOrderId).map book =
      newBook registry report engine.book := by
  rw [handleOrderUpdate_of_noRecovery (noRecovery_of_new rfl clientOrderId), book_finishUpdate,
    finishBook_asNew spot]

theorem live_of_newBook {state after : PositionManager × UnorderedMap String String}
    (ran : newBook registry report state = some after) : report.orderId ∈ after.2 := by
  obtain ⟨pm, _, result⟩ := Option.map_eq_some_iff.mp ran
  rw [← result]
  exact Finmap.mem_insert.mpr (Or.inl rfl)

theorem handleOrderUpdate_asNew_some {next : TradingEngine}
    (spot : report.marketType = .spot)
    (ran : engine.handleOrderUpdate registry (asNew report) clientOrderId = some next) :
    report.orderId ∈ next.liveOrderInstruments ∧
      next.clientOrderIdToReservation =
        (engine.eraseReservation (asNew report) clientOrderId).clientOrderIdToReservation := by
  constructor
  · have stepped := book_handleOrderUpdate_asNew registry engine clientOrderId spot
    rw [ran, Option.map_some] at stepped
    exact live_of_newBook stepped.symm
  · rw [handleOrderUpdate_of_noRecovery (noRecovery_of_new rfl clientOrderId)] at ran
    have notDuplicate : engine.isDuplicateCancel (asNew report) = false := by
      simp [isDuplicateCancel, asNew]
    rw [reservations_finishUpdate ran, notDuplicate]
    rfl

theorem book_handleOrderUpdate_recovery (spot : report.marketType = .spot)
    (needed : engine.needsRecovery report clientOrderId = true) :
    (engine.handleOrderUpdate registry report clientOrderId).map book =
      (newBook registry report engine.book).bind (finishBook registry report) := by
  rw [handleOrderUpdate_of_recovery needed, recoverPositions, if_pos spot, newBook, book]
  cases engine.positionManager.updateSpotOnNew registry report report.tradeMode with
  | none => rfl
  | some pm => exact book_finishUpdate registry _ report clientOrderId

theorem book_handleOrderUpdate_new_then (spot : report.marketType = .spot) :
    ((engine.handleOrderUpdate registry (asNew report) clientOrderId).bind fun next =>
        next.handleOrderUpdate registry report clientOrderId).map book =
      (newBook registry report engine.book).bind (finishBook registry report) := by
  rw [← book_handleOrderUpdate_asNew registry engine clientOrderId spot]
  cases ran : engine.handleOrderUpdate registry (asNew report) clientOrderId with
  | none => rfl
  | some next =>
      have live := (handleOrderUpdate_asNew_some spot ran).1
      rw [Option.bind_some, Option.map_some, Option.bind_some,
        handleOrderUpdate_of_noRecovery (noRecovery_of_live live clientOrderId), book_finishUpdate]

/-- After a terminal report the reservation of its client order id is gone,
whichever path it took. -/
theorem reservations_after_terminal {after : TradingEngine}
    (terminal : isTerminal report.status = true)
    (live : report.orderId ∈ engine.liveOrderInstruments) (named : clientOrderId ≠ "")
    (ran : engine.finishUpdate registry report clientOrderId = some after) :
    after.clientOrderIdToReservation =
      engine.clientOrderIdToReservation.erase clientOrderId := by
  have ends : endsReservation report.status = true := by
    cases statusCase : report.status <;> simp_all [isTerminal, endsReservation]
  rw [reservations_finishUpdate ran, noDuplicate_of_live live, if_neg Bool.false_ne_true,
    eraseReservation, if_pos ⟨named, ends⟩]

theorem reservations_recovery {after : TradingEngine} (terminal : isTerminal report.status = true)
    (needed : engine.needsRecovery report clientOrderId = true)
    (ran : engine.handleOrderUpdate registry report clientOrderId = some after) :
    after.clientOrderIdToReservation =
      engine.clientOrderIdToReservation.erase clientOrderId := by
  have named := (needsRecovery_iff.mp needed).2.1
  rw [handleOrderUpdate_of_recovery needed] at ran
  obtain ⟨recovered, stepped, finished⟩ := Option.bind_eq_some_iff.mp ran
  have kept : recovered.clientOrderIdToReservation = engine.clientOrderIdToReservation := by
    rw [recoverPositions] at stepped
    split at stepped
    · obtain ⟨pm, _, result⟩ := Option.map_eq_some_iff.mp stepped
      rw [← result, reservations_setPositions]
    · cases stepped
      rfl
  have live : report.orderId ∈
      (recovered.insertLive report.orderId report.instrument).liveOrderInstruments :=
    Finmap.mem_insert.mpr (Or.inl rfl)
  rw [reservations_after_terminal terminal live named finished, reservations_insertLive, kept]

theorem reservations_new_then {after : TradingEngine} (terminal : isTerminal report.status = true)
    (spot : report.marketType = .spot) (named : clientOrderId ≠ "")
    (ran : ((engine.handleOrderUpdate registry (asNew report) clientOrderId).bind fun next =>
      next.handleOrderUpdate registry report clientOrderId) = some after) :
    after.clientOrderIdToReservation =
      engine.clientOrderIdToReservation.erase clientOrderId := by
  obtain ⟨next, ranNew, finished⟩ := Option.bind_eq_some_iff.mp ran
  obtain ⟨live, reservations⟩ := handleOrderUpdate_asNew_some spot ranNew
  rw [handleOrderUpdate_of_noRecovery (noRecovery_of_live live clientOrderId)] at finished
  rw [reservations_after_terminal terminal live named finished, reservations, eraseReservation,
    if_pos ⟨named, rfl⟩]
  exact UnorderedMap.erase_erase_self _ clientOrderId

/-- Two runs with the same book that leave one reservation table, leave the
same one or both fail. -/
theorem reservations_eq_of_book_eq {left right : Option TradingEngine}
    {table : UnorderedMap String ReservationInfo} (sameBook : left.map book = right.map book)
    (leftTable : ∀ after, left = some after → after.clientOrderIdToReservation = table)
    (rightTable : ∀ after, right = some after → after.clientOrderIdToReservation = table) :
    left.map clientOrderIdToReservation = right.map clientOrderIdToReservation := by
  cases left with
  | none =>
      cases right with
      | none => rfl
      | some after => cases sameBook
  | some first =>
      cases right with
      | none => cases sameBook
      | some second =>
          rw [Option.map_some, Option.map_some, leftTable first rfl, rightTable second rfl]

end Recovery

/-- A report that finds its order unknown but reserved does what its NEW
followed by the report would have done, down to the exception of either. -/
theorem handleOrderUpdate_recovers_new (registry : InstrumentRegistry) (engine : TradingEngine)
    (report : ExecutionReport) (clientOrderId : String) (spot : report.marketType = .spot)
    (status : report.status = .partiallyFilled ∨ isTerminal report.status = true)
    (named : clientOrderId ≠ "") (unknown : report.orderId ∉ engine.liveOrderInstruments)
    (recorded : clientOrderId ∈ engine.clientOrderIdToReservation) :
    let recovered := engine.handleOrderUpdate registry report clientOrderId
    let normal := (engine.handleOrderUpdate registry (asNew report) clientOrderId).bind fun next =>
      next.handleOrderUpdate registry report clientOrderId
    recovered.map book = normal.map book ∧
      (isTerminal report.status = true →
        recovered.map clientOrderIdToReservation = normal.map clientOrderIdToReservation) := by
  intro recovered normal
  have notNew : report.status ≠ .new := by
    rintro isNew
    rw [isNew] at status
    exact absurd status (by decide)
  have needed : engine.needsRecovery report clientOrderId = true :=
    needsRecovery_iff.mpr ⟨notNew, named, unknown, recorded⟩
  have sameBook : recovered.map book = normal.map book :=
    (book_handleOrderUpdate_recovery spot needed).trans
      (book_handleOrderUpdate_new_then spot).symm
  exact ⟨sameBook, fun terminal => reservations_eq_of_book_eq sameBook
    (fun _ => reservations_recovery terminal needed)
    (fun _ => reservations_new_then terminal spot named)⟩

def awaitingNew : TradingEngine :=
  { clientOrderIdToReservation := Finmap.singleton "cts1"
      { instrument := "BTC-USDT", currency := "USDT", amount := 300, side := .buy,
        tradeMode := .cash } }

theorem handleOrderUpdate_recovers_new_rejected :
    let report : ExecutionReport :=
      { orderId := "7", instrument := "BTC-USDT", status := .rejected, price := 300,
        totalVolume := 1 }
    let recovered := awaitingNew.handleOrderUpdate btcUsdtRegistry report "cts1"
    let normal := (awaitingNew.handleOrderUpdate btcUsdtRegistry (asNew report) "cts1").bind
      fun next => next.handleOrderUpdate btcUsdtRegistry report "cts1"
    recovered.map book = normal.map book ∧
      (isTerminal report.status = true →
        recovered.map clientOrderIdToReservation = normal.map clientOrderIdToReservation) :=
  handleOrderUpdate_recovers_new btcUsdtRegistry awaitingNew _ "cts1" rfl (Or.inr rfl) (by decide)
    (by decide) (by decide)

end TradingEngine

end CryptoTrading
