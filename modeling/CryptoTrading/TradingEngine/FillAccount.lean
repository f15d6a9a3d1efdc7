import CryptoTrading.TradingEngine.FillMeasure
import CryptoTrading.TradingEngine.Restart

/-! # The account of one order's fills

The tracker that makes cumulative reports incremental is erased by FILLED.  What
an order has moved, together with what the reports under way still owe, is
therefore its filled volume times one plus the number of FILLED reports that are
applied beyond the first. -/
set_option autoImplicit false

namespace CryptoTrading

open TradingEngine

/-! ## The account of one order -/

def Precedes (first second : ExecutionReport) : Prop :=
  first.filledVolume ≤ second.filledVolume ∧ isPending first.status = true

/-- The account of an order whose state on the exchange is `entry`: its tracker
has `seen`, the listener has still to apply `awaited` and the reconciler
`replayed`; `sum` are the volume handled and the number of replays. -/
structure Fills (info : InstrumentInfo) (entry : ExecutionReport) (seen : Int)
    (awaited replayed : List ExecutionReport) (sum : ℚ × ℕ) : Prop where
  status : isPending entry.status = true ∨ entry.status = .filled
  positive : entry.status = .filled → 0 < entry.filledVolume
  nonneg : 0 ≤ seen
  within : seen ≤ entry.filledVolume
  ahead : ∀ report ∈ awaited, isFill report.status = true → seen ≤ report.filledVolume
  ordered : awaited.Pairwise Precedes
  last : awaited = [] ∨ ∃ earlier, awaited = earlier ++ [entry]
  echo : ∀ report ∈ awaited, SameTrade entry report
  single : replayed = [] ∨ ∃ report, replayed = [report] ∧ SameTrade entry report ∧
    (report.status = .new ∨ entry.status = .filled ∧ report.status = .filled ∧
      report.filledVolume = entry.filledVolume)
  pending : isPending entry.status = true → sum = (decode seen info.volumePrecision, 0)
  ended : entry.status = .filled → sum.1 + decode entry.filledVolume info.volumePrecision *
      ((if awaited = [] then 0 else 1) + replayed.countP fun report => report.status = .filled) =
    decode entry.filledVolume info.volumePrecision * (1 + sum.2) + decode seen info.volumePrecision
  reset : entry.status = .filled → awaited = [] → seen = 0

section Account
variable {info : InstrumentInfo} {entry report : ExecutionReport} {seen : Int}
  {awaited replayed : List ExecutionReport} {sum : ℚ × ℕ}

/-- An awaited report is the state on the exchange or stands before it. -/
theorem Fills.awaited_cases (fills : Fills info entry seen awaited replayed sum)
    (member : report ∈ awaited) : report = entry ∨ Precedes report entry := by
  rcases fills.last with none | ⟨earlier, shape⟩
  · rw [none] at member
    cases member
  · have ordered := fills.ordered
    rw [shape] at member ordered
    rcases List.mem_append.mp member with before | isLast
    · exact Or.inr ((List.pairwise_append.mp ordered).2.2 report before entry (by simp))
    · exact Or.inl (List.mem_singleton.mp isLast)

theorem Fills.awaited_le (fills : Fills info entry seen awaited replayed sum) :
    ∀ report ∈ awaited, report.filledVolume ≤ entry.filledVolume := by
  intro report member
  rcases fills.awaited_cases member with rfl | before
  · exact le_refl _
  · exact before.1

/-- Only the last awaited report can be terminal, and it is the state on the exchange. -/
theorem Fills.head_cases (fills : Fills info entry seen (report :: awaited) replayed sum) :
    report = entry ∧ awaited = [] ∨ isPending report.status = true ∧ awaited ≠ [] := by
  cases awaited with
  | nil =>
      left
      obtain ⟨earlier, shape⟩ := fills.last.resolve_left (List.cons_ne_nil _ _)
      have same := List.append_inj_right' (show [] ++ [report] = earlier ++ [entry] from shape) rfl
      exact ⟨List.singleton_inj.mp same, rfl⟩
  | cons next rest =>
      right
      have ordered := List.pairwise_cons.mp fills.ordered
      exact ⟨(ordered.1 next List.mem_cons_self).2, List.cons_ne_nil _ _⟩

/-- The fields that do not depend on the report taken survive it. -/
theorem Fills.last_tail (fills : Fills info entry seen (report :: awaited) replayed sum) :
    awaited = [] ∨ ∃ earlier, awaited = earlier ++ [entry] := by
  rcases fills.head_cases with ⟨_, none⟩ | ⟨_, more⟩
  · exact Or.inl none
  · right
    obtain ⟨earlier, shape⟩ := fills.last.resolve_left (List.cons_ne_nil _ _)
    cases earlier with
    | nil =>
        rw [List.nil_append, List.cons.injEq] at shape
        exact absurd shape.2 more
    | cons first others =>
        rw [List.cons_append, List.cons.injEq] at shape
        exact ⟨others, shape.2⟩

theorem Fills.start (info : InstrumentInfo) (isNew : entry.status = .new)
    (unfilled : entry.filledVolume = 0) : Fills info entry 0 [entry] [] (0, 0) where
  status := by simp [isNew, isPending]
  positive := by simp [isNew]
  nonneg := le_refl 0
  within := unfilled.ge
  ahead := by simp [unfilled]
  ordered := List.pairwise_singleton ..
  last := Or.inr ⟨[], rfl⟩
  echo := by simpa using (⟨⟨rfl, rfl, rfl, rfl, rfl⟩, rfl⟩ : SameTrade entry entry)
  single := Or.inl rfl
  pending := by simp
  ended := by simp [isNew]
  reset := by simp [isNew]

theorem SameOrder.trans {first second third : ExecutionReport} (left : SameOrder first second)
    (right : SameOrder second third) : SameOrder first third :=
  ⟨right.orderId.trans left.orderId, right.instrument.trans left.instrument,
    right.side.trans left.side, right.marketType.trans left.marketType,
    right.positionSide.trans left.positionSide⟩

theorem SameTrade.trans {first second third : ExecutionReport} (left : SameTrade first second)
    (right : SameTrade second third) : SameTrade first third :=
  ⟨left.toSameOrder.trans right.toSameOrder, right.tradeMode.trans left.tradeMode⟩

theorem SameTrade.symm {first second : ExecutionReport} (same : SameTrade first second) :
    SameTrade second first :=
  ⟨⟨same.orderId.symm, same.instrument.symm, same.side.symm, same.marketType.symm,
    same.positionSide.symm⟩, same.tradeMode.symm⟩

theorem not_filled_of_pending {status : OrderStatus} (isOpen : isPending status = true) :
    status ≠ .filled := by
  intro filled
  rw [filled] at isOpen
  exact absurd isOpen (by decide)

/-- While the order is pending, only a NEW of it can be replayed. -/
theorem Fills.replayed_new (fills : Fills info entry seen awaited replayed sum)
    (isOpen : isPending entry.status = true) : ∀ report ∈ replayed, report.status = .new := by
  intro report member
  rcases fills.single with none | ⟨only, shape, _, isNew | ⟨filled, _⟩⟩
  · rw [none] at member
    cases member
  · rw [shape] at member
    rw [List.mem_singleton.mp member]
    exact isNew
  · exact absurd filled (not_filled_of_pending isOpen)

theorem Fills.publish {next : ExecutionReport}
    (fills : Fills info entry seen awaited replayed sum) (isOpen : isPending entry.status = true)
    (same : SameTrade entry next) (rises : entry.filledVolume ≤ next.filledVolume)
    (status : isPending next.status = true ∨ next.status = .filled)
    (positive : next.status = .filled → 0 < next.filledVolume) :
    Fills info next seen (awaited ++ [next]) replayed sum := by
  have noneFilled : replayed.countP (fun report => report.status = .filled) = 0 := by
    rw [List.countP_eq_zero]
    intro report member
    simp [fills.replayed_new isOpen report member]
  have below : ∀ report ∈ awaited, Precedes report next := by
    intro report member
    refine ⟨(fills.awaited_le report member).trans rises, ?_⟩
    rcases fills.awaited_cases member with rfl | before
    · exact isOpen
    · exact before.2
  refine ⟨status, positive, fills.nonneg, fills.within.trans rises, ?_, ?_, Or.inr ⟨awaited, rfl⟩,
    ?_, ?_, fun _ => fills.pending isOpen, fun _ => ?_, ?_⟩
  · intro report member isFill
    rcases List.mem_append.mp member with before | published
    · exact fills.ahead report before isFill
    · rw [List.mem_singleton.mp published]
      exact fills.within.trans rises
  · rw [List.pairwise_append]
    refine ⟨fills.ordered, List.pairwise_singleton .., fun report member later isNext => ?_⟩
    rw [List.mem_singleton.mp isNext]
    exact below report member
  · intro report member
    rcases List.mem_append.mp member with before | published
    · exact same.symm.trans (fills.echo report before)
    · rw [List.mem_singleton.mp published]
      exact same.symm.trans same
  · rcases fills.single with none | ⟨only, shape, sameOnly, _⟩
    · exact Or.inl none
    · refine Or.inr ⟨only, shape, same.symm.trans sameOnly, Or.inl ?_⟩
      exact fills.replayed_new isOpen only (by simp [shape])
  · rw [fills.pending isOpen, if_neg (by simp), noneFilled]
    push_cast
    ring
  · intro _ none
    exact absurd none (by simp)

theorem Fills.skip (fills : Fills info entry seen (report :: awaited) replayed sum)
    (isNew : report.status = .new) : Fills info entry seen awaited replayed sum := by
  have more : entry.status = .filled → awaited ≠ [] := by
    intro filled
    rcases fills.head_cases with ⟨same, _⟩ | ⟨_, more⟩
    · rw [← same, isNew] at filled
      cases filled
    · exact more
  refine ⟨fills.status, fills.positive, fills.nonneg, fills.within,
    fun other member => fills.ahead other (List.mem_cons_of_mem _ member),
    (List.pairwise_cons.mp fills.ordered).2, fills.last_tail,
    fun other member => fills.echo other (List.mem_cons_of_mem _ member), fills.single,
    fills.pending, fun filled => ?_, fun filled none => absurd none (more filled)⟩
  have balance := fills.ended filled
  rw [if_neg (List.cons_ne_nil _ _)] at balance
  rw [if_neg (more filled)]
  exact balance

theorem Fills.apply (fills : Fills info entry seen (report :: awaited) replayed sum)
    (isFill : report.status = .filled ∨ report.status = .partiallyFilled) :
    Fills info entry (if report.status = .filled then 0 else report.filledVolume) awaited replayed
      (sum.1 + decode (report.filledVolume - seen) info.volumePrecision, sum.2) := by
  have seenLe : seen ≤ report.filledVolume :=
    fills.ahead report List.mem_cons_self (isFill_iff.mpr isFill)
  have reportLe := fills.awaited_le report List.mem_cons_self
  have ordered := List.pairwise_cons.mp fills.ordered
  rcases isFill with isFilled | isPartial
  · -- A FILLED report is the last one awaited.
    have last : report = entry ∧ awaited = [] := by
      rcases fills.head_cases with last | ⟨isOpen, _⟩
      · exact last
      · exact absurd isFilled (not_filled_of_pending isOpen)
    obtain ⟨rfl, rfl⟩ := last
    rw [if_pos isFilled]
    refine ⟨fills.status, fills.positive, le_refl 0, fills.nonneg.trans fills.within, by simp,
      List.Pairwise.nil, Or.inl rfl, by simp, fills.single, fun isOpen => ?_, fun filled => ?_,
      fun _ _ => rfl⟩
    · exact absurd isFilled (not_filled_of_pending isOpen)
    · have balance := fills.ended filled
      rw [if_neg (List.cons_ne_nil _ _)] at balance
      rw [if_pos rfl, decode_sub, decode_zero]
      linarith
  · have notFilled : ¬ report.status = .filled := by
      rw [isPartial]
      decide
    rw [if_neg notFilled]
    have more : entry.status = .filled → awaited ≠ [] := by
      intro filled
      rcases fills.head_cases with ⟨same, _⟩ | ⟨_, more⟩
      · rw [same] at notFilled
        exact absurd filled notFilled
      · exact more
    refine ⟨fills.status, fills.positive, fills.nonneg.trans seenLe, reportLe,
      fun other member _ => (ordered.1 other member).1, ordered.2, fills.last_tail,
      fun other member => fills.echo other (List.mem_cons_of_mem _ member), fills.single,
      fun isOpen => ?_, fun filled => ?_, fun filled none => absurd none (more filled)⟩
    · rw [fills.pending isOpen, decode_sub, add_sub_cancel]
    · have balance := fills.ended filled
      rw [if_neg (List.cons_ne_nil _ _)] at balance
      rw [if_neg (more filled), decode_sub]
      linarith

theorem Fills.replay (fills : Fills info entry seen awaited [] sum)
    (same : SameTrade entry report) (filled : entry.status = .filled)
    (isFilled : report.status = .filled) (whole : report.filledVolume = entry.filledVolume) :
    Fills info entry seen awaited [report] (sum.1, sum.2 + 1) := by
  refine { fills with single := ?_, pending := fun isOpen => ?_, ended := fun _ => ?_ }
  · exact Or.inr ⟨report, rfl, same, Or.inr ⟨filled, isFilled, whole⟩⟩
  · exact absurd filled (not_filled_of_pending isOpen)
  · have balance := fills.ended filled
    have one : [report].countP (fun report => decide (report.status = .filled)) = 1 := by
      simp [isFilled]
    rw [List.countP_nil] at balance
    rw [one]
    push_cast at balance ⊢
    linarith

theorem Fills.replayNew (same : SameTrade entry report) (isNew : report.status = .new) :
    Fills info entry seen awaited [] sum ↔ Fills info entry seen awaited [report] sum := by
  have none : [report].countP (fun report => decide (report.status = .filled)) = 0 := by
    simp [isNew]
  constructor
  · intro fills
    refine { fills with single := ?_, ended := fun filled => ?_ }
    · exact Or.inr ⟨report, rfl, same, Or.inl isNew⟩
    · rw [none]
      exact fills.ended filled
  · intro fills
    refine { fills with single := Or.inl rfl, ended := fun filled => ?_ }
    have balance := fills.ended filled
    rw [none] at balance
    exact balance

theorem Fills.reapply (fills : Fills info entry seen awaited [report] sum)
    (isFilled : report.status = .filled) :
    Fills info entry 0 awaited []
      (sum.1 + decode (report.filledVolume - seen) info.volumePrecision, sum.2) := by
  have filled : entry.status = .filled ∧ report.filledVolume = entry.filledVolume := by
    obtain ⟨only, shape, _, isNew | ⟨filled, _, whole⟩⟩ :=
      fills.single.resolve_left (List.cons_ne_nil _ _)
    · rw [List.singleton_inj.mp shape, isNew] at isFilled
      cases isFilled
    · rw [List.singleton_inj.mp shape]
      exact ⟨filled, whole⟩
  have one : [report].countP (fun report => decide (report.status = .filled)) = 1 := by
    simp [isFilled]
  refine ⟨fills.status, fills.positive, le_refl 0, fills.nonneg.trans fills.within,
    fun other member isFill => fills.nonneg.trans (fills.ahead other member isFill),
    fills.ordered, fills.last, fills.echo, Or.inl rfl, fun isOpen => ?_, fun _ => ?_,
    fun _ _ => rfl⟩
  · exact absurd filled.1 (not_filled_of_pending isOpen)
  · have balance := fills.ended filled.1
    rw [one] at balance
    rw [List.countP_nil, filled.2, decode_sub, decode_zero]
    push_cast at balance ⊢
    linarith

/-- Without replays no more is handled than is filled. -/
theorem Fills.moved_le (fills : Fills info entry seen awaited replayed sum) (none : sum.2 = 0) :
    sum.1 ≤ decode entry.filledVolume info.volumePrecision := by
  rcases fills.status with isOpen | filled
  · rw [fills.pending isOpen]
    exact (decode_le_decode info.volumePrecision).mpr fills.within
  · have balance := fills.ended filled
    have size : 0 < decode entry.filledVolume info.volumePrecision :=
      (decode_pos _).mpr (fills.positive filled)
    have seenLe := (decode_le_decode info.volumePrecision).mpr fills.within
    have owed : (0 : ℚ) ≤ replayed.countP fun report => report.status = .filled :=
      Nat.cast_nonneg _
    have owes := mul_nonneg size.le owed
    rw [none] at balance
    by_cases idle : awaited = []
    · rw [if_pos idle, fills.reset filled idle, decode_zero] at balance
      push_cast at balance
      linarith
    · rw [if_neg idle] at balance
      push_cast at balance
      linarith

/-- Once nothing is under way, every replay has handled the filled volume again. -/
theorem Fills.moved_settled (fills : Fills info entry seen [] [] sum)
    (filled : entry.status = .filled) :
    sum.1 = decode entry.filledVolume info.volumePrecision * (1 + sum.2) := by
  have balance := fills.ended filled
  rw [if_pos rfl, List.countP_nil, fills.reset filled rfl, decode_zero] at balance
  push_cast at balance
  linarith

end Account

/-! ## Applying a fill -/

/-- What an order moves while `volume` of it is handled: a margin SELL moves no base. -/
def orderMoves (report : ExecutionReport) (volume : ℚ) : ℚ :=
  if MarginSell report then 0 else volume

theorem orderMoves_add (report : ExecutionReport) (first second : ℚ) :
    orderMoves report (first + second) = orderMoves report first + orderMoves report second := by
  rw [orderMoves, orderMoves, orderMoves]
  split
  · exact (add_zero 0).symm
  · rfl

theorem orderMoves_zero (report : ExecutionReport) : orderMoves report 0 = 0 := ite_self 0

namespace PositionManager

/-- A closing fill finds fewer contracts than it takes away. -/
def FallsShort (registry : InstrumentRegistry) (pm : PositionManager) (report : ExecutionReport) :
    Prop :=
  Closes report ∧
    match registry.get report.instrument with
    | none => False
    | some info => pm.contractsOf report <
        decode (report.filledVolume - pm.fillTracker report) info.volumePrecision

instance (registry : InstrumentRegistry) (pm : PositionManager) (report : ExecutionReport) :
    Decidable (pm.FallsShort registry report) := by
  unfold FallsShort
  cases registry.get report.instrument <;> infer_instance

/-- The precision with which the quantities of an order are decoded. -/
def infoOf (registry : InstrumentRegistry) (report : ExecutionReport) : InstrumentInfo :=
  (registry.get report.instrument).getD {}

section Apply
variable {registry : InstrumentRegistry} {pm after : PositionManager} {report : ExecutionReport}

theorem fillMoved_of_covered (isFill : report.status = .filled ∨ report.status = .partiallyFilled)
    (ran : applyReport registry pm report = some after) (nonneg : pm.ContractsNonneg)
    (ordered : pm.fillTracker report ≤ report.filledVolume)
    (covered : ¬ pm.FallsShort registry report) :
    pm.fillMoved after report = orderMoves report
        (decode (report.filledVolume - pm.fillTracker report)
          (infoOf registry report).volumePrecision) ∧
      after.fillTracker report =
        if report.status = .filled then 0 else report.filledVolume := by
  obtain ⟨info, known⟩ := registered_of_fill isFill ran
  obtain ⟨same, ranSame, step⟩ := applyReport_fillStep known isFill (fun _ => nonneg _ _) ordered
  obtain rfl := Option.some.inj (ranSame.symm.trans ran)
  refine ⟨?_, step.tracker⟩
  rw [infoOf, known, Option.getD_some, step.moved]
  by_cases closes : Closes report
  · rw [movable_of_closes closes, orderMoves, if_neg fun margin => margin.not_closes closes]
    refine min_eq_right (not_lt.mp fun short => covered ⟨closes, ?_⟩)
    rw [known]
    exact short
  · exact movable_of_not_closes closes _

theorem fillMoved_of_notFill (notFill : isFill report.status = false) :
    pm.fillMoved after report = 0 := by
  rw [fillMoved, notFill]
  rfl

theorem fillTracker_congr {first second : PositionManager}
    (spot : first.spotOrderFillTracker.getD report.orderId 0 =
      second.spotOrderFillTracker.getD report.orderId 0)
    (swap : first.swapOrderFillTracker.getD report.orderId 0 =
      second.swapOrderFillTracker.getD report.orderId 0) :
    first.fillTracker report = second.fillTracker report := by
  rw [fillTracker, fillTracker, spot, swap]

theorem SameFills.fillTracker (same : SameFills pm after) (report : ExecutionReport) :
    after.fillTracker report = pm.fillTracker report :=
  fillTracker_congr (by rw [same.spotTracker]) (by rw [same.swapTracker])

theorem ReportFrame.fillTracker (frame : ReportFrame pm after report) {other : ExecutionReport}
    (different : other.orderId ≠ report.orderId) :
    after.fillTracker other = pm.fillTracker other :=
  fillTracker_congr (frame.spotTracker _ different) (frame.swapTracker _ different)

end Apply

end PositionManager

section Applied
variable {registry : InstrumentRegistry} {pm after : PositionManager}
  {entry report : ExecutionReport} {waiting replayed : List ExecutionReport} {sum : ℚ × ℕ}

theorem infoOf_sameOrder (same : SameTrade entry report) :
    PositionManager.infoOf registry report = PositionManager.infoOf registry entry := by
  rw [PositionManager.infoOf, PositionManager.infoOf, same.instrument]

theorem Fills.head_status {info : InstrumentInfo} {seen : Int}
    (fills : Fills info entry seen (report :: waiting) replayed sum) :
    report.status = .new ∨ report.status = .filled ∨ report.status = .partiallyFilled := by
  have status : isPending report.status = true ∨ report.status = .filled := by
    rcases fills.head_cases with ⟨rfl, _⟩ | ⟨isOpen, _⟩
    · exact fills.status
    · exact Or.inl isOpen
  cases statusCase : report.status <;> simp_all [isPending]

theorem SameTrade.orderMoves (same : SameTrade entry report) (volume : ℚ) :
    orderMoves report volume = orderMoves entry volume :=
  if_congr same.marginSell rfl rfl

theorem Fills.listen
    (fills : Fills (PositionManager.infoOf registry entry) entry (pm.fillTracker entry)
      (report :: waiting) replayed sum)
    (ran : applyReport registry pm report = some after) (nonneg : pm.ContractsNonneg)
    (covered : ¬ (isFill report.status = true ∧ pm.FallsShort registry report)) :
    ∃ volume, pm.fillMoved after report = orderMoves entry volume ∧
      Fills (PositionManager.infoOf registry entry) entry (after.fillTracker entry) waiting replayed
        (sum.1 + volume, sum.2) := by
  have same := fills.echo report List.mem_cons_self
  rcases fills.head_status with isNew | isFill
  · have unmoved := PositionManager.applyReport_new isNew ran
    refine ⟨0, ?_, ?_⟩
    · rw [PositionManager.fillMoved_of_notFill (by rw [isNew]; rfl), orderMoves_zero]
    · rw [add_zero, unmoved.fillTracker]
      exact fills.skip isNew
  · have isFill' := isFill_iff.mpr isFill
    have ordered := fills.ahead report List.mem_cons_self isFill'
    rw [← same.toSameOrder.fillTracker pm] at ordered
    obtain ⟨moved, tracker⟩ := PositionManager.fillMoved_of_covered isFill ran nonneg ordered
      fun short => covered ⟨isFill', short⟩
    refine ⟨_, moved.trans (same.orderMoves _), ?_⟩
    rw [← same.toSameOrder.fillTracker after, tracker, infoOf_sameOrder same, same.toSameOrder.fillTracker pm]
    exact fills.apply isFill

theorem Fills.relisten
    (fills : Fills (PositionManager.infoOf registry entry) entry (pm.fillTracker entry)
      waiting [report] sum)
    (ran : applyReport registry pm report = some after) (nonneg : pm.ContractsNonneg)
    (covered : ¬ (isFill report.status = true ∧ pm.FallsShort registry report)) :
    ∃ volume, pm.fillMoved after report = orderMoves entry volume ∧
      Fills (PositionManager.infoOf registry entry) entry (after.fillTracker entry) waiting []
        (sum.1 + volume, sum.2) := by
  obtain ⟨only, shape, same, status⟩ := fills.single.resolve_left (List.cons_ne_nil _ _)
  obtain rfl := List.singleton_inj.mp shape
  rcases status with isNew | ⟨filled, isFilled, whole⟩
  · have unmoved := PositionManager.applyReport_new isNew ran
    refine ⟨0, ?_, ?_⟩
    · rw [PositionManager.fillMoved_of_notFill (by rw [isNew]; rfl), orderMoves_zero]
    · rw [add_zero, unmoved.fillTracker]
      exact (Fills.replayNew same isNew).mpr fills
  · have isFill := isFill_iff.mpr (Or.inl isFilled)
    have ordered := fills.within
    rw [← same.toSameOrder.fillTracker pm, ← whole] at ordered
    obtain ⟨moved, tracker⟩ := PositionManager.fillMoved_of_covered (Or.inl isFilled) ran nonneg
      ordered fun short => covered ⟨isFill, short⟩
    refine ⟨_, moved.trans (same.orderMoves _), ?_⟩
    rw [← same.toSameOrder.fillTracker after, tracker, if_pos isFilled, infoOf_sameOrder same,
      same.fillTracker pm]
    exact fills.reapply isFilled

end Applied

end CryptoTrading
