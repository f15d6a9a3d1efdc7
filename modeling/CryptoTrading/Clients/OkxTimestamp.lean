import CryptoTrading.Lib.IsoTime

/-! # Timestamps of REST requests

`IsoTimestampForRest` of `okx.cpp`.  Behind the dot stand the milliseconds of the
second, by `std::to_string` and so without zeros in front: with fewer than three
digits they are read as another fraction of the second, and compared as one. -/
set_option autoImplicit false

namespace CryptoTrading

open Calendar IsoTime DecimalText

/-! ## The text -/

/-- `gmtime_r` from 1970 on. -/
def gmtime (seconds : ℕ) : CivilTime :=
  CivilTime.ofSecondNumber (CivilTime.epoch.secondNumber + seconds)

/-- `strftime` with `%Y-%m-%dT%H:%M:%S`: only the year is not filled with zeros. -/
def strftime (tm : CivilTime) : List Char :=
  Nat.toDigits 10 tm.date.year ++ '-' :: (zeroPadded 2 tm.date.month ++
    '-' :: (zeroPadded 2 tm.date.day ++ 'T' :: clockText tm))

/-- What `system_clock::now` gives from 1970 on and before the year 10000. -/
structure SystemTime where
  nanoseconds : ℕ
  fourDigits : (gmtime (nanoseconds / 10 ^ 9)).date.year < 10 ^ 4

namespace SystemTime
variable (now : SystemTime)

def seconds : ℕ := now.nanoseconds / 10 ^ 9

def milliseconds : ℕ := now.nanoseconds / 10 ^ 6

def ms : ℕ := now.milliseconds % 1000

theorem year_lt : (gmtime now.seconds).date.year < 10 ^ 4 := now.fourDigits

end SystemTime

def isoTimestampForRest (now : SystemTime) : String :=
  String.ofList (strftime (gmtime now.seconds)) ++ "." ++ toString now.ms ++ "Z"

/-! ## Its parts -/

section Parts
variable (now : SystemTime)

theorem secondNumber_gmtime (seconds : ℕ) :
    (gmtime seconds).secondNumber = CivilTime.epoch.secondNumber + seconds :=
  CivilTime.secondNumber_ofSecondNumber _

theorem sinceEpoch_gmtime (seconds : ℕ) : sinceEpoch (gmtime seconds) = seconds := by
  rw [sinceEpoch, secondNumber_gmtime, Nat.cast_add, add_sub_cancel_left]

theorem year_gmtime (seconds : ℕ) : 1970 ≤ (gmtime seconds).date.year := by
  refine Nat.le_of_not_lt fun early => ?_
  have day := (dayNumber_lt_iff (gmtime seconds).date CivilTime.epoch.date).mpr (Or.inl early)
  have before := (CivilTime.secondNumber_lt_iff (gmtime seconds) CivilTime.epoch).mpr (Or.inl day)
  rw [secondNumber_gmtime] at before
  omega

/-- From 1970 on a year has its four digits. -/
theorem strftime_gmtime {seconds : ℕ} (fourDigits : (gmtime seconds).date.year < 10 ^ 4) :
    strftime (gmtime seconds) = timeText (gmtime seconds) := by
  have late := year_gmtime seconds
  have digits := (@digitCount_eq_iff 3 (gmtime seconds).date.year (by decide)).mpr
    ⟨by omega, fourDigits⟩
  rw [strftime, timeText, dateText, zeroPadded_of_digits digits]
  simp only [List.append_assoc, List.cons_append]

theorem toList_isoTimestampForRest : (isoTimestampForRest now).toList =
    timeText (gmtime now.seconds) ++ '.' :: (Nat.toDigits 10 now.ms ++ ['Z']) := by
  have ms : (toString now.ms).toList = Nat.toDigits 10 now.ms := Nat.toList_repr
  rw [isoTimestampForRest, String.toList_append, String.toList_append, String.toList_append,
    String.toList_ofList, ms, strftime_gmtime now.year_lt, List.append_assoc,
    List.append_assoc]
  rfl

theorem milliseconds_eq : now.milliseconds = now.seconds * 1000 + now.ms := by
  rw [SystemTime.ms, SystemTime.milliseconds, SystemTime.seconds]
  omega

theorem ms_lt : now.ms < 1000 := Nat.mod_lt _ (by decide)

end Parts

/-! ## Reading and order -/

/-- The text is an ISO 8601 time, of this instant cut to milliseconds. -/
def Denotes (now : SystemTime) : Prop :=
  readIso (isoTimestampForRest now).toList = some ((now.milliseconds : ℚ) / 1000)

def OrderedAlike (now other : SystemTime) : Prop :=
  (isoTimestampForRest now < isoTimestampForRest other ↔
      now.milliseconds < other.milliseconds) ∧
    (isoTimestampForRest other < isoTimestampForRest now ↔
      other.milliseconds < now.milliseconds)

section Order
variable (now other : SystemTime)

theorem readIso_isoTimestampForRest : readIso (isoTimestampForRest now).toList =
    some (now.seconds + (now.ms : ℚ) / 10 ^ digitCount now.ms) := by
  have nonempty : Nat.toDigits 10 now.ms ≠ [] := Nat.toDigits_ne_nil
  rw [toList_isoTimestampForRest, readIso_timeText now.year_lt (isDigits_toDigits _) nonempty,
    sinceEpoch_gmtime, unsignedValue, List.nil_append, Nat.ofDigitChars_ten_toDigits]
  rfl

theorem threeDigits_iff : digitCount now.ms = 3 ↔ 100 ≤ now.ms := by
  rw [@digitCount_eq_iff 2 now.ms (by decide)]
  exact and_iff_left (ms_lt now)

theorem denotes_iff : Denotes now ↔ now.ms = 0 ∨ 100 ≤ now.ms := by
  have fraction : (now.ms : ℚ) / 10 ^ digitCount now.ms = now.ms / 10 ^ 3 ↔
      now.ms = 0 ∨ digitCount now.ms = 3 := by
    rcases Nat.eq_zero_or_pos now.ms with none | some
    · simp [none]
    · have nonzero : (now.ms : ℚ) ≠ 0 := Nat.cast_ne_zero.mpr (Nat.ne_of_gt some)
      have powers : (10 : ℚ) ^ digitCount now.ms = 10 ^ 3 ↔ digitCount now.ms = 3 :=
        pow_right_inj₀ (by norm_num) (by norm_num)
      rw [div_eq_mul_inv, div_eq_mul_inv, mul_right_inj' nonzero, inv_inj, powers,
        or_iff_right (Nat.ne_of_gt some)]
  rw [Denotes, readIso_isoTimestampForRest, Option.some.injEq, milliseconds_eq,
    ← threeDigits_iff, ← fraction]
  push_cast
  constructor <;> intro same <;> linarith

theorem isoTimestampForRest_lt_iff : isoTimestampForRest now < isoTimestampForRest other ↔
    now.seconds < other.seconds ∨ now.seconds = other.seconds ∧
      Nat.toDigits 10 now.ms ++ ['Z'] < Nat.toDigits 10 other.ms ++ ['Z'] := by
  have lengths : (timeText (gmtime now.seconds)).length =
      (timeText (gmtime other.seconds)).length := by
    rw [timeText_length now.year_lt, timeText_length other.year_lt]
  rw [String.lt_iff, toList_isoTimestampForRest, toList_isoTimestampForRest,
    append_lt_append_iff lengths, List.cons_lt_cons_self,
    timeText_lt_iff now.year_lt other.year_lt, timeText_inj now.year_lt other.year_lt,
    secondNumber_gmtime, secondNumber_gmtime, Nat.add_lt_add_iff_left, Nat.add_left_cancel_iff]

theorem milliseconds_lt_iff : now.milliseconds < other.milliseconds ↔
    now.seconds < other.seconds ∨ now.seconds = other.seconds ∧ now.ms < other.ms := by
  have lt := ms_lt now
  have otherLt := ms_lt other
  rw [milliseconds_eq, milliseconds_eq]
  omega

theorem orderedAlike_iff : OrderedAlike now other ↔ (now.seconds = other.seconds →
    now.ms = other.ms ∨ LessInFront now.ms other.ms ∨ LessInFront other.ms now.ms) := by
  have above : ∀ char : Char, char.isDigit = true → char < 'Z' := by
    intro char isDigit
    have upper := (digit_bounds isDigit).2
    show char.toNat < 'Z'.toNat
    exact Nat.lt_of_le_of_lt upper (by decide)
  rw [OrderedAlike, isoTimestampForRest_lt_iff, isoTimestampForRest_lt_iff, milliseconds_lt_iff,
    milliseconds_lt_iff, ← marked_alike_iff now.ms other.ms above]
  rcases Nat.lt_trichotomy now.seconds other.seconds with before | same | after
  · simp [before, Nat.lt_asymm before, Nat.ne_of_lt before, Nat.ne_of_gt before]
  · simp [same]
  · simp [after, Nat.lt_asymm after, Nat.ne_of_lt after, Nat.ne_of_gt after]

theorem lessInFront_of_zero (none : now.ms = 0) (three : 100 ≤ other.ms) :
    LessInFront now.ms other.ms := by
  have digits := (threeDigits_iff other).mpr three
  rw [LessInFront, digits, none]
  exact Nat.div_pos three (by decide)

theorem orderedAlike_of_denotes (denotes : Denotes now) (otherDenotes : Denotes other) :
    OrderedAlike now other := by
  rw [denotes_iff] at denotes otherDenotes
  rw [orderedAlike_iff]
  intro _
  rcases denotes with none | three <;> rcases otherDenotes with otherNone | otherThree
  · exact Or.inl (none.trans otherNone.symm)
  · exact Or.inr (Or.inl (lessInFront_of_zero now other none otherThree))
  · exact Or.inr (Or.inr (lessInFront_of_zero other now otherNone three))
  · have digits := (threeDigits_iff now).mpr three
    have otherDigits := (threeDigits_iff other).mpr otherThree
    rw [lessInFront_iff_lt (digits.trans otherDigits.symm),
      lessInFront_iff_lt (otherDigits.trans digits.symm)]
    omega

/-- A text denotes its instant when the milliseconds of the second are none or
have three digits.  Two texts are in the order of their times unless these are in
one second and the smaller number of milliseconds is not less than as many first
digits of the other. -/
theorem isoTimestampForRest_iff :
    (Denotes now ↔ now.ms = 0 ∨ 100 ≤ now.ms) ∧
      (OrderedAlike now other ↔ (now.seconds = other.seconds →
        now.ms = other.ms ∨ LessInFront now.ms other.ms ∨ LessInFront other.ms now.ms)) :=
  ⟨denotes_iff now, orderedAlike_iff now other⟩

/-- Five milliseconds after the beginning of 1970 are written as half a second,
behind ten milliseconds. -/
theorem five_milliseconds_as_half :
    (isoTimestampForRest ⟨5000000, by decide +kernel⟩).toList = "1970-01-01T00:00:00.5Z".toList ∧
      ¬ Denotes ⟨5000000, by decide +kernel⟩ ∧
      ¬ OrderedAlike ⟨5000000, by decide +kernel⟩ ⟨10000000, by decide +kernel⟩ := by
  refine ⟨by decide +kernel, ?_, ?_⟩
  · rw [denotes_iff]
    decide
  · rw [orderedAlike_iff]
    decide

end Order

end CryptoTrading
