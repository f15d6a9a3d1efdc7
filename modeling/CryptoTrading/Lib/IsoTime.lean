import CryptoTrading.Lib.Calendar
import CryptoTrading.Lib.DecimalOrder

/-! # ISO 8601 time

Times as text in the extended format with a Z for UTC, and a reader of it that
takes a fraction of the second with any number of digits.  The texts of whole
seconds are in the order of the times. -/
set_option autoImplicit false

namespace IsoTime

open Calendar DecimalText

/-! ## Text -/

def dateText (date : Date) : List Char :=
  zeroPadded 4 date.year ++ '-' :: (zeroPadded 2 date.month ++ '-' :: zeroPadded 2 date.day)

def clockText (time : CivilTime) : List Char :=
  zeroPadded 2 time.hour ++ ':' :: (zeroPadded 2 time.minute ++ ':' :: zeroPadded 2 time.second)

def timeText (time : CivilTime) : List Char := dateText time.date ++ 'T' :: clockText time

/-! ## Reader -/

def readDigits (width : ℕ) (text : List Char) : Option (ℕ × List Char) :=
  if (text.take width).length = width ∧ (text.take width).all Char.isDigit then
    some (Nat.ofDigitChars 10 (text.take width) 0, text.drop width)
  else none

def readMark (mark : Char) : List Char → Option (List Char)
  | [] => none
  | first :: rest => if first = mark then some rest else none

def readField (width : ℕ) (mark : Char) (text : List Char) : Option (ℕ × List Char) := do
  let number ← readDigits width text
  let rest ← readMark mark number.2
  some (number.1, rest)

/-- The digits behind a dot or a comma, or none at all. -/
def readFraction : List Char → Option (ℚ × List Char)
  | [] => some (0, [])
  | first :: rest =>
      if first = '.' ∨ first = ',' then
        if rest.takeWhile Char.isDigit = [] then none
        else some (unsignedValue [] (rest.takeWhile Char.isDigit), rest.dropWhile Char.isDigit)
      else some (0, first :: rest)

def civilTime (year month day hour minute second : ℕ) : Option CivilTime :=
  if valid : ((1 ≤ month ∧ month ≤ 12) ∧ (1 ≤ day ∧ day ≤ monthLength year month)) ∧
      hour < 24 ∧ minute < 60 ∧ second < 60 then
    some
      { date :=
          { year := year
            month := month
            day := day
            isMonth := valid.1.1
            isDay := valid.1.2 }
        hour := hour
        minute := minute
        second := second
        isHour := valid.2.1
        isMinute := valid.2.2.1
        isSecond := valid.2.2.2 }
  else none

def sinceEpoch (time : CivilTime) : ℚ := (time.secondNumber : ℚ) - CivilTime.epoch.secondNumber

def readIso (text : List Char) : Option ℚ := do
  let year ← readField 4 '-' text
  let month ← readField 2 '-' year.2
  let day ← readField 2 'T' month.2
  let hour ← readField 2 ':' day.2
  let minute ← readField 2 ':' hour.2
  let second ← readDigits 2 minute.2
  let fraction ← readFraction second.2
  let rest ← readMark 'Z' fraction.2
  let time ← civilTime year.1 month.1 day.1 hour.1 minute.1 second.1
  if rest = [] then some (sinceEpoch time + fraction.1) else none

example : readIso "1970-01-02T00:00:01.25Z".toList = some (86401 + 1 / 4) := by decide +kernel

/-! ## Reading back -/

section Read
variable {rest : List Char}

theorem readDigits_zeroPadded {width value : ℕ} (positive : 0 < width)
    (fits : value < 10 ^ width) (rest : List Char) :
    readDigits width (zeroPadded width value ++ rest) = some (value, rest) := by
  have length := zeroPadded_length positive fits
  have decimal : (zeroPadded width value).all Char.isDigit = true :=
    List.all_eq_true.mpr (isDigits_zeroPadded width value)
  rw [readDigits, List.take_left' length, List.drop_left' length, if_pos ⟨length, decimal⟩,
    ofDigitChars_zeroPadded]

theorem readField_zeroPadded {width value : ℕ} (positive : 0 < width)
    (fits : value < 10 ^ width) (mark : Char) (rest : List Char) :
    readField width mark (zeroPadded width value ++ mark :: rest) = some (value, rest) := by
  have found : readMark mark (mark :: rest) = some rest := if_pos rfl
  rw [readField, readDigits_zeroPadded positive fits, Option.bind_eq_bind, Option.bind_some,
    found]
  rfl

theorem readFraction_digits {digits : List Char} (decimal : isDigits digits)
    (nonempty : digits ≠ []) (stops : rest.head?.all fun char => !char.isDigit) :
    readFraction ('.' :: (digits ++ rest)) = some (unsignedValue [] digits, rest) := by
  rw [readFraction, takeWhile_digits decimal stops, dropWhile_digits decimal stops,
    if_pos (Or.inl rfl), if_neg nonempty]

theorem civilTime_self (time : CivilTime) : civilTime time.date.year time.date.month time.date.day
    time.hour time.minute time.second = some time :=
  dif_pos ⟨⟨time.date.isMonth, time.date.isDay⟩, time.isHour, time.isMinute, time.isSecond⟩

theorem date_fits (date : Date) : date.month < 10 ^ 2 ∧ date.day < 10 ^ 2 := by
  have month := date.isMonth
  have day := date.isDay
  have longest := (monthLength_bounds date.year date.month).2
  omega

theorem clock_fits (time : CivilTime) :
    time.hour < 10 ^ 2 ∧ time.minute < 10 ^ 2 ∧ time.second < 10 ^ 2 := by
  have hour := time.isHour
  have minute := time.isMinute
  have second := time.isSecond
  omega

/-- A time with a fraction denotes the time and the fraction. -/
theorem readIso_timeText {time : CivilTime} (fourDigits : time.date.year < 10 ^ 4)
    {digits : List Char} (decimal : isDigits digits) (nonempty : digits ≠ []) :
    readIso (timeText time ++ '.' :: (digits ++ ['Z'])) =
      some (sinceEpoch time + unsignedValue [] digits) := by
  obtain ⟨month, day⟩ := date_fits time.date
  obtain ⟨hour, minute, second⟩ := clock_fits time
  have field := fun {value : ℕ} (fits : value < 10 ^ 2) =>
    @readField_zeroPadded 2 value (by decide) fits
  have fraction := @readFraction_digits ['Z'] digits decimal nonempty (by decide)
  have shape : timeText time ++ '.' :: (digits ++ ['Z']) =
      zeroPadded 4 time.date.year ++ '-' :: (zeroPadded 2 time.date.month ++
        '-' :: (zeroPadded 2 time.date.day ++ 'T' :: (zeroPadded 2 time.hour ++
          ':' :: (zeroPadded 2 time.minute ++
            ':' :: (zeroPadded 2 time.second ++ '.' :: (digits ++ ['Z'])))))) := by
    simp only [timeText, dateText, clockText, List.append_assoc, List.cons_append]
  have zone : readMark 'Z' ['Z'] = some [] := rfl
  rw [shape, readIso]
  simp only [Option.bind_eq_bind]
  rw [readField_zeroPadded (by decide) fourDigits, Option.bind_some, field month,
    Option.bind_some, field day, Option.bind_some, field hour, Option.bind_some, field minute,
    Option.bind_some, readDigits_zeroPadded (by decide) second, Option.bind_some, fraction,
    Option.bind_some, zone, Option.bind_some, civilTime_self]
  rfl

end Read

/-! ## Order -/

section Order
variable {time other : CivilTime}

theorem dateText_length {date : Date} (fourDigits : date.year < 10 ^ 4) :
    (dateText date).length = 10 := by
  obtain ⟨month, day⟩ := date_fits date
  rw [dateText, List.length_append, List.length_cons, List.length_append, List.length_cons,
    zeroPadded_length (by decide) fourDigits, zeroPadded_length (by decide) month,
    zeroPadded_length (by decide) day]

theorem clockText_length (time : CivilTime) : (clockText time).length = 8 := by
  obtain ⟨hour, minute, second⟩ := clock_fits time
  rw [clockText, List.length_append, List.length_cons, List.length_append, List.length_cons,
    zeroPadded_length (by decide) hour, zeroPadded_length (by decide) minute,
    zeroPadded_length (by decide) second]

theorem timeText_length (fourDigits : time.date.year < 10 ^ 4) : (timeText time).length = 19 := by
  rw [timeText, List.length_append, List.length_cons, dateText_length fourDigits,
    clockText_length]

theorem field_lt_iff {width value otherValue : ℕ} {mark : Char} {rest otherRest : List Char}
    (positive : 0 < width) (fits : value < 10 ^ width) (otherFits : otherValue < 10 ^ width) :
    zeroPadded width value ++ mark :: rest < zeroPadded width otherValue ++ mark :: otherRest ↔
      value < otherValue ∨ value = otherValue ∧ rest < otherRest := by
  have lengths : (zeroPadded width value).length = (zeroPadded width otherValue).length := by
    rw [zeroPadded_length positive fits, zeroPadded_length positive otherFits]
  rw [append_lt_append_iff lengths, zeroPadded_lt_iff positive fits otherFits, zeroPadded_inj,
    List.cons_lt_cons_self]

theorem dateText_lt_iff {date otherDate : Date} (fourDigits : date.year < 10 ^ 4)
    (otherFourDigits : otherDate.year < 10 ^ 4) :
    dateText date < dateText otherDate ↔ date.dayNumber < otherDate.dayNumber := by
  obtain ⟨month, day⟩ := date_fits date
  obtain ⟨otherMonth, otherDay⟩ := date_fits otherDate
  rw [dateText, dateText, field_lt_iff (by decide) fourDigits otherFourDigits,
    field_lt_iff (by decide) month otherMonth, zeroPadded_lt_iff (by decide) day otherDay,
    dayNumber_lt_iff]

theorem clockText_lt_iff : clockText time < clockText other ↔
    time.hour < other.hour ∨ time.hour = other.hour ∧
      (time.minute < other.minute ∨ time.minute = other.minute ∧ time.second < other.second) := by
  obtain ⟨hour, minute, second⟩ := clock_fits time
  obtain ⟨otherHour, otherMinute, otherSecond⟩ := clock_fits other
  rw [clockText, clockText, field_lt_iff (by decide) hour otherHour,
    field_lt_iff (by decide) minute otherMinute,
    zeroPadded_lt_iff (by decide) second otherSecond]

theorem dateText_inj {date otherDate : Date} (fourDigits : date.year < 10 ^ 4)
    (otherFourDigits : otherDate.year < 10 ^ 4) :
    dateText date = dateText otherDate ↔ date.dayNumber = otherDate.dayNumber :=
  eq_iff_of_lt_iff (dateText_lt_iff fourDigits otherFourDigits)
    (dateText_lt_iff otherFourDigits fourDigits)

theorem timeText_lt_iff (fourDigits : time.date.year < 10 ^ 4)
    (otherFourDigits : other.date.year < 10 ^ 4) :
    timeText time < timeText other ↔ time.secondNumber < other.secondNumber := by
  have lengths : (dateText time.date).length = (dateText other.date).length := by
    rw [dateText_length fourDigits, dateText_length otherFourDigits]
  rw [timeText, timeText, append_lt_append_iff lengths, List.cons_lt_cons_self,
    dateText_lt_iff fourDigits otherFourDigits, dateText_inj fourDigits otherFourDigits,
    clockText_lt_iff, CivilTime.secondNumber_lt_iff]

theorem timeText_inj (fourDigits : time.date.year < 10 ^ 4)
    (otherFourDigits : other.date.year < 10 ^ 4) :
    timeText time = timeText other ↔ time.secondNumber = other.secondNumber :=
  eq_iff_of_lt_iff (timeText_lt_iff fourDigits otherFourDigits)
    (timeText_lt_iff otherFourDigits fourDigits)

end Order

end IsoTime
