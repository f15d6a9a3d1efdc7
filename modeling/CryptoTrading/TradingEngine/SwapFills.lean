import CryptoTrading.Lib.Histories
import CryptoTrading.Lib.Reflected
import CryptoTrading.TradingEngine.Restart

/-! # Swap positions over interleaved orders

The fill reports of many swap orders arrive in any order, each with the
cumulative volume of its own order.  The tracker turns them into increments, so
a position moves by what the orders have filled, cut off at zero. -/
set_option autoImplicit false

namespace CryptoTrading

open Histories (history overall)

/-- The position that a swap order belongs to. -/
def ExecutionReport.swapKey (report : ExecutionReport) : String × PosSide :=
  (report.instrument, report.positionSide)

abbrev reportsOf (orderId : String) (reports : List ExecutionReport) : List ExecutionReport :=
  history ExecutionReport.orderId orderId reports

def volumeIn (registry : InstrumentRegistry) (instrument : String) (scaled : Int) : ℚ :=
  match registry.get instrument with
  | none => 0
  | some info => decode scaled info.volumePrecision

/-- Each order's reports carry its own fields and a volume that grows from zero
on; only the last of them is FILLED. -/
def FillHistories (orders : String → ExecutionReport) (reports : List ExecutionReport) : Prop :=
  ∀ orderId, LaterFills (orders orderId) 0 (reportsOf orderId reports)

def filledBy (registry : InstrumentRegistry) (orders : String → ExecutionReport)
    (P : ExecutionReport → Prop) [DecidablePred P] (reports : List ExecutionReport) : ℚ :=
  overall ExecutionReport.orderId (fun orderId fills =>
    if P (orders orderId) then
      volumeIn registry (orders orderId).instrument (finalVolume 0 fills)
    else 0) reports

def swapFills (registry : InstrumentRegistry) :
    PositionManager → List ExecutionReport → Option PositionManager :=
  Runs.run fun pm report => pm.updateSwapOnFill registry report

/-! ## Histories report by report -/

section Fills
variable {pending report : ExecutionReport} {front reports : List ExecutionReport}

theorem finalVolume_append_singleton (front : List ExecutionReport) (report : ExecutionReport) :
    ∀ seen, finalVolume seen (front ++ [report]) = report.filledVolume := by
  induction front with
  | nil => exact fun _ => rfl
  | cons earlier rest ih => exact fun _ => ih earlier.filledVolume

theorem LaterFills.of_append (rest : List ExecutionReport) :
    ∀ seen, LaterFills pending seen (front ++ rest) → LaterFills pending seen front := by
  induction front with
  | nil => exact fun _ _ => trivial
  | cons earlier front ih =>
      intro seen fills
      obtain ⟨same, ordered, status, later⟩ := fills
      refine ⟨same, ordered, ?_, ih earlier.filledVolume later⟩
      exact status.imp id fun filled => ⟨filled.1, (List.append_eq_nil_iff.mp filled.2).1⟩

theorem FillHistories.of_prefix {orders : String → ExecutionReport}
    (histories : FillHistories orders reports) (first : front <+: reports) :
    FillHistories orders front := by
  intro orderId
  have part : reportsOf orderId front <+: reportsOf orderId reports :=
    Histories.history_prefix first orderId
  obtain ⟨rest, whole⟩ := part
  have fills := histories orderId
  rw [← whole] at fills
  exact fills.of_append rest 0

theorem LaterFills.last (fills : LaterFills pending 0 (front ++ [report])) :
    SameOrder pending report ∧ finalVolume 0 front ≤ report.filledVolume ∧
      ∀ earlier ∈ front, earlier.status = .partiallyFilled := by
  suffices general : ∀ seen, LaterFills pending seen (front ++ [report]) →
      SameOrder pending report ∧ finalVolume seen front ≤ report.filledVolume ∧
        ∀ earlier ∈ front, earlier.status = .partiallyFilled from general 0 fills
  clear fills
  induction front with
  | nil =>
      intro seen fills
      exact ⟨fills.1, fills.2.1, fun _ member => nomatch member⟩
  | cons first rest ih =>
      intro seen fills
      obtain ⟨-, -, status, later⟩ := fills
      obtain ⟨same, ordered, partials⟩ := ih first.filledVolume later
      refine ⟨same, ordered, fun earlier member => ?_⟩
      rcases List.mem_cons.mp member with rfl | inRest
      · exact status.resolve_right fun filled => by simp at filled
      · exact partials earlier inRest

theorem LaterFills.same_of_mem {seen : Int} (fills : LaterFills pending seen reports)
    (member : report ∈ reports) : SameOrder pending report := by
  induction reports generalizing seen with
  | nil => cases member
  | cons first rest ih =>
      obtain ⟨same, -, -, later⟩ := fills
      rcases List.mem_cons.mp member with rfl | inRest
      · exact same
      · exact ih later inRest

theorem FillHistories.same {orders : String → ExecutionReport}
    (histories : FillHistories orders reports) (member : report ∈ reports) :
    SameOrder (orders report.orderId) report :=
  (histories report.orderId).same_of_mem (Histories.mem_history.mpr ⟨member, rfl⟩)

def openVolume (fills : List ExecutionReport) : Option Int :=
  fills.getLast?.bind fun last => if last.status = .filled then none else some last.filledVolume

theorem openVolume_append_singleton (front : List ExecutionReport) (report : ExecutionReport) :
    openVolume (front ++ [report]) =
      if report.status = .filled then none else some report.filledVolume := by
  simp [openVolume]

theorem openVolume_of_partial (partials : ∀ report ∈ front, report.status = .partiallyFilled) :
    (openVolume front).getD 0 = finalVolume 0 front := by
  induction front using List.reverseRecOn with
  | nil => rfl
  | append_singleton rest last _ =>
      have pending : ¬ last.status = .filled := by
        rw [partials last (by simp)]
        decide
      rw [openVolume_append_singleton, if_neg pending, finalVolume_append_singleton]
      rfl

end Fills

/-! ## One report -/

section Volume
variable (registry : InstrumentRegistry) (instrument : String)

@[simp] theorem volumeIn_zero : volumeIn registry instrument 0 = 0 := by
  rw [volumeIn]
  cases registry.get instrument with
  | none => rfl
  | some info => exact decode_zero _

theorem volumeIn_sub (left right : Int) : volumeIn registry instrument (left - right) =
    volumeIn registry instrument left - volumeIn registry instrument right := by
  simp only [volumeIn]
  cases registry.get instrument with
  | none => exact (sub_zero _).symm
  | some info => exact decode_sub _ _ _

theorem volumeIn_nonneg {scaled : Int} (nonneg : 0 ≤ scaled) :
    0 ≤ volumeIn registry instrument scaled := by
  rw [volumeIn]
  cases registry.get instrument with
  | none => exact le_refl 0
  | some info => exact (decode_nonneg _).mpr nonneg

end Volume

def signedFill (report : ExecutionReport) (amount : ℚ) : ℚ :=
  if PositionManager.isOpening report.positionSide report.side then amount else -amount

theorem signedFill_sub (report : ExecutionReport) (left right : ℚ) :
    signedFill report (left - right) = signedFill report left - signedFill report right := by
  rw [signedFill, signedFill, signedFill]
  split
  · rfl
  · ring

@[simp] theorem signedFill_zero (report : ExecutionReport) : signedFill report 0 = 0 := by
  simp [signedFill]

theorem SameOrder.signedFill {pending report : ExecutionReport} (same : SameOrder pending report) :
    CryptoTrading.signedFill report = CryptoTrading.signedFill pending := by
  funext amount
  rw [CryptoTrading.signedFill, CryptoTrading.signedFill, same.positionSide, same.side]

theorem SameOrder.swapKey {pending report : ExecutionReport} (same : SameOrder pending report) :
    report.swapKey = pending.swapKey := by
  rw [ExecutionReport.swapKey, ExecutionReport.swapKey, same.instrument, same.positionSide]

namespace PositionManager

/-- Adding and cutting off at zero, whichever side the order is on. -/
theorem contractsAfter_eq_max (report : ExecutionReport) {contracts amount : ℚ}
    (nonneg : 0 ≤ contracts) (added : 0 ≤ amount) :
    contractsAfter report.positionSide report.side contracts amount =
      max 0 (contracts + signedFill report amount) := by
  rw [contractsAfter, signedFill]
  split
  · rw [max_eq_right (add_nonneg nonneg added)]
  · rw [sub_eq_add_neg]

section Step
variable {registry : InstrumentRegistry} {pm after : PositionManager} {report : ExecutionReport}

theorem lookup_updateSwapOnFill (ran : pm.updateSwapOnFill registry report = some after)
    (orderId : String) : after.swapOrderFillTracker.lookup orderId =
      if orderId = report.orderId then
        if report.status = .filled then none else some report.filledVolume
      else pm.swapOrderFillTracker.lookup orderId := by
  rw [(updateSwapOnFill_frame registry pm after report ran).2.2.2, trackSwapFill]
  split
  · exact UnorderedMap.lookup_erase_ite _ _ _
  · exact UnorderedMap.lookup_insert_ite _ _ _ _

theorem contracts_updateSwapOnFill (ran : pm.updateSwapOnFill registry report = some after)
    (nonneg : pm.ContractsNonneg)
    (ordered : pm.swapOrderFillTracker.getD report.orderId 0 ≤ report.filledVolume)
    (key : String × PosSide) : (after.swap key.1 key.2).contracts =
      if key = report.swapKey then
        max 0 ((pm.swap key.1 key.2).contracts + signedFill report
          (volumeIn registry report.instrument (pm.swapIncrement report)))
      else (pm.swap key.1 key.2).contracts := by
  have added : 0 ≤ volumeIn registry report.instrument (pm.swapIncrement report) :=
    volumeIn_nonneg _ _ (Int.sub_nonneg.mpr ordered)
  rw [updateSwapOnFill_eq] at ran
  split at ran
  · next idle =>
      cases ran
      have none : pm.swapIncrement report = 0 :=
        le_antisymm idle (Int.sub_nonneg.mpr ordered)
      rw [swap_trackSwapFill, contracts_nameSwap, none, volumeIn_zero, signedFill_zero, add_zero,
        max_eq_right (nonneg key.1 key.2), ite_self]
  · obtain ⟨info, known, rfl⟩ := Option.map_eq_some_iff.mp ran
    have increment : decode (pm.swapIncrement report) info.volumePrecision =
        volumeIn registry report.instrument (pm.swapIncrement report) := by
      rw [volumeIn, known]
    rw [contracts_applySwapFill, increment, swap_trackSwapFill, swap_trackSwapFill,
      contracts_nameSwap, contracts_nameSwap, contractsAfter_eq_max report (nonneg _ _) added]
    by_cases here : key = report.swapKey
    · subst here
      exact (if_pos rfl).trans (if_pos rfl).symm
    · exact (if_neg here).trans (if_neg here).symm

end Step

end PositionManager

/-! ## Runs -/

def netFills (registry : InstrumentRegistry) (orders : String → ExecutionReport)
    (key : String × PosSide) (reports : List ExecutionReport) : ℚ :=
  overall ExecutionReport.orderId (fun orderId fills =>
    if (orders orderId).swapKey = key then
      signedFill (orders orderId)
        (volumeIn registry (orders orderId).instrument (finalVolume 0 fills))
    else 0) reports

section Runs
variable {registry : InstrumentRegistry} {orders : String → ExecutionReport}
  {pm after : PositionManager} {reports : List ExecutionReport}

theorem netFills_append_singleton (key : String × PosSide) (front : List ExecutionReport)
    {report : ExecutionReport} (same : SameOrder (orders report.orderId) report) :
    netFills registry orders key (front ++ [report]) = netFills registry orders key front +
      if report.swapKey = key then
        signedFill report (volumeIn registry report.instrument
          (report.filledVolume - finalVolume 0 (reportsOf report.orderId front)))
      else 0 := by
  rw [netFills, Histories.overall_append_singleton, ← netFills, same.swapKey, same.instrument,
    same.signedFill, finalVolume_append_singleton, volumeIn_sub, signedFill_sub]
  · split
    · rfl
    · rw [sub_zero]
  · intro orderId
    rw [finalVolume, volumeIn_zero, signedFill_zero, ite_self]

/-- The orders of a position sorted into opening and closing ones. -/
theorem filledBy_sub_filledBy (key : String × PosSide) {opens reduces : ExecutionReport → Prop}
    [DecidablePred opens] [DecidablePred reduces]
    (opening : ∀ report ∈ reports, opens (orders report.orderId) ↔
      (orders report.orderId).swapKey = key ∧ PositionManager.isOpening
        (orders report.orderId).positionSide (orders report.orderId).side = true)
    (reducing : ∀ report ∈ reports, reduces (orders report.orderId) ↔
      (orders report.orderId).swapKey = key ∧ PositionManager.isOpening
        (orders report.orderId).positionSide (orders report.orderId).side = false) :
    filledBy registry orders opens reports - filledBy registry orders reduces reports =
      netFills registry orders key reports := by
  rw [filledBy, filledBy, netFills, overall, overall, overall, ← Finset.sum_sub_distrib]
  apply Finset.sum_congr rfl
  intro orderId listed
  obtain ⟨report, member, rfl⟩ := Histories.mem_keys.mp listed
  simp only [opening report member, reducing report member, signedFill]
  by_cases own : (orders report.orderId).swapKey = key
  · cases PositionManager.isOpening (orders report.orderId).positionSide
      (orders report.orderId).side <;> simp [own]
  · simp [own]

/-- The tracker holds what the last report of every order says. -/
def Tracks (pm : PositionManager) (reports : List ExecutionReport) : Prop :=
  ∀ orderId, pm.swapOrderFillTracker.lookup orderId = openVolume (reportsOf orderId reports)

theorem tracks_of_untracked (untracked : pm.swapOrderFillTracker = ∅) : Tracks pm [] := by
  intro orderId
  rw [untracked]
  rfl

theorem Tracks.append_singleton {front : List ExecutionReport} {report : ExecutionReport}
    {middle : PositionManager} (tracks : Tracks middle front)
    (ran : middle.updateSwapOnFill registry report = some after) :
    Tracks after (front ++ [report]) := by
  intro orderId
  rw [PositionManager.lookup_updateSwapOnFill ran]
  by_cases own : report.orderId = orderId
  · subst own
    rw [if_pos rfl, reportsOf, Histories.history_append_self, openVolume_append_singleton]
  · rw [if_neg (Ne.symm own), reportsOf, Histories.history_append_other front own]
    exact tracks orderId

/-- Before an order's next report the tracker holds what the order has filled. -/
theorem Tracks.getD_eq {front : List ExecutionReport} {report : ExecutionReport}
    (tracks : Tracks pm front) (histories : FillHistories orders (front ++ [report])) :
    pm.swapOrderFillTracker.getD report.orderId 0 =
      finalVolume 0 (reportsOf report.orderId front) := by
  have fills := histories report.orderId
  rw [reportsOf, Histories.history_append_self] at fills
  rw [UnorderedMap.getD, tracks report.orderId]
  exact openVolume_of_partial fills.last.2.2

theorem swapFills_append_singleton {front : List ExecutionReport} {report : ExecutionReport}
    (ran : swapFills registry pm (front ++ [report]) = some after) :
    ∃ middle, swapFills registry pm front = some middle ∧
      middle.updateSwapOnFill registry report = some after := by
  rw [swapFills, Runs.run_append_singleton] at ran
  exact Option.bind_eq_some_iff.mp ran

/-- Along a run the tracker follows the orders and no position becomes negative. -/
theorem swapFills_invariant (untracked : pm.swapOrderFillTracker = ∅)
    (nonneg : pm.ContractsNonneg) (reports : List ExecutionReport) :
    ∀ after, swapFills registry pm reports = some after →
      Tracks after reports ∧ after.ContractsNonneg := by
  induction reports using List.reverseRecOn with
  | nil =>
      intro after ran
      cases ran
      exact ⟨tracks_of_untracked untracked, nonneg⟩
  | append_singleton front report ih =>
      intro after ran
      obtain ⟨middle, reached, stepped⟩ := swapFills_append_singleton ran
      obtain ⟨tracks, middleNonneg⟩ := ih middle reached
      exact ⟨tracks.append_singleton stepped,
        (PositionManager.updateSwapOnFill_reportFrame stepped).contracts middleNonneg⟩

def levelAfter (registry : InstrumentRegistry) (pm : PositionManager) (key : String × PosSide)
    (front : List ExecutionReport) : ℚ :=
  (swapFills registry pm front).elim 0 fun after => (after.swap key.1 key.2).contracts

/-- A position follows what its orders have filled, cut off at zero. -/
theorem contracts_follow (untracked : pm.swapOrderFillTracker = ∅) (nonneg : pm.ContractsNonneg)
    (histories : FillHistories orders reports) (key : String × PosSide) {initial : ℚ}
    (start : (pm.swap key.1 key.2).contracts = max 0 initial)
    (ran : swapFills registry pm reports = some after) :
    Reflected.Follows (fun front => initial + netFills registry orders key front)
      (levelAfter registry pm key) reports := by
  refine ⟨?_, fun front report inside => ?_⟩
  · rw [netFills, Histories.overall_nil, add_zero]
    exact start
  · obtain ⟨next, reached⟩ := Runs.run_prefix _ inside ran
    obtain ⟨middle, before, stepped⟩ := swapFills_append_singleton reached
    obtain ⟨tracks, middleNonneg⟩ := swapFills_invariant untracked nonneg front middle before
    have here := histories.of_prefix inside
    have fills := here report.orderId
    rw [reportsOf, Histories.history_append_self] at fills
    obtain ⟨same, ordered, -⟩ := fills.last
    have held := tracks.getD_eq here
    have levels : levelAfter registry pm key front = (middle.swap key.1 key.2).contracts := by
      rw [levelAfter, before]
      rfl
    have moved : levelAfter registry pm key (front ++ [report]) =
        (next.swap key.1 key.2).contracts := by
      rw [levelAfter, swapFills, reached]
      rfl
    rw [moved, levels, netFills_append_singleton key front same, ← held,
      PositionManager.contracts_updateSwapOnFill stepped middleNonneg (held.trans_le ordered) key,
      ← PositionManager.swapIncrement]
    by_cases own : key = report.swapKey
    · rw [if_pos own, if_pos own.symm]
      congr 1
      ring
    · rw [if_neg own, if_neg (Ne.symm own), add_zero, sub_self, add_zero,
        max_eq_right (middleNonneg key.1 key.2)]

theorem swapFills_runs (pm : PositionManager)
    (registered : ∀ report ∈ reports, (registry.get report.instrument).isSome) :
    ∃ after, swapFills registry pm reports = some after := by
  apply Runs.run_total
  intro state report member
  obtain ⟨info, known⟩ := Option.isSome_iff_exists.mp (registered report member)
  exact PositionManager.updateSwapOnFill_registered known state

end Runs

end CryptoTrading
