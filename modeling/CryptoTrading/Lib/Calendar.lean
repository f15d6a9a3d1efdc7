import CryptoTrading.Lib.Spans

/-! # Calendar

The Gregorian calendar from the beginning of year 0 on, and the time of day.
Years are spans of days, and so are the months of a year, so that days and dates
correspond and are in one order. -/
set_option autoImplicit false

namespace Calendar

open Spans

/-! ## Dates -/

def IsLeap (year : ℕ) : Prop := year % 4 = 0 ∧ (year % 100 ≠ 0 ∨ year % 400 = 0)

instance (year : ℕ) : Decidable (IsLeap year) := inferInstanceAs (Decidable (_ ∧ _))

def yearLength (year : ℕ) : ℕ := if IsLeap year then 366 else 365

def monthLengths (year : ℕ) : List ℕ :=
  [31, if IsLeap year then 29 else 28, 31, 30, 31, 30, 31, 31, 30, 31, 30, 31]

/-- January is month 1. -/
def monthLength (year month : ℕ) : ℕ := (monthLengths year).getD (month - 1) 31

structure Date where
  year : ℕ
  month : ℕ
  day : ℕ
  isMonth : 1 ≤ month ∧ month ≤ 12
  isDay : 1 ≤ day ∧ day ≤ monthLength year month

/-- The months of a year as spans, January being the first. -/
def months (year index : ℕ) : ℕ := monthLength year (index + 1)

/-- The days of the year that are over. -/
def Date.dayOfYear (date : Date) : ℕ := start (months date.year) (date.month - 1) + (date.day - 1)

/-- The days since the beginning of year 0. -/
def Date.dayNumber (date : Date) : ℕ := start yearLength date.year + date.dayOfYear

section Dates
variable (year : ℕ)

theorem yearLength_pos : 0 < yearLength year := by
  rw [yearLength]
  split <;> decide

theorem monthLength_bounds (month : ℕ) :
    0 < monthLength year month ∧ monthLength year month ≤ 31 := by
  rw [monthLength, List.getD_eq_getElem?_getD]
  cases found : (monthLengths year)[month - 1]? with
  | none => decide
  | some length =>
      have listed := List.mem_of_getElem? found
      simp only [monthLengths, List.mem_cons, List.not_mem_nil, or_false] at listed
      rw [Option.getD_some]
      split at listed <;> omega

theorem months_pos (index : ℕ) : 0 < months year index := (monthLength_bounds year _).1

theorem start_months : start (months year) 12 = yearLength year := by
  rw [yearLength]
  by_cases leap : IsLeap year <;> simp [start, months, monthLength, monthLengths, leap]

theorem month_lt {index offset : ℕ}
    (inside : start (months year) index + offset < yearLength year) : index < 12 := by
  refine Nat.lt_of_not_le fun late => ?_
  have behind := @start_mono (months year) _ _ late
  rw [start_months] at behind
  omega

end Dates

def dateOf (number : ℕ) : Date :=
  let year := (locate yearLength number).1
  let dayOfYear := (locate yearLength number).2
  let month := (locate (months year) dayOfYear).1
  let day := (locate (months year) dayOfYear).2
  { year := year
    month := month + 1
    day := day + 1
    isMonth := by
      have inside := (locate_spec yearLength_pos number).2
      have found := (locate_spec (months_pos year) dayOfYear).1
      have later : month < 12 :=
        @month_lt year month day (Nat.lt_of_le_of_lt (Nat.le_of_eq found) inside)
      exact ⟨Nat.le_add_left 1 _, later⟩
    isDay := ⟨Nat.le_add_left 1 _, (locate_spec (months_pos year) dayOfYear).2⟩ }

section Numbers
variable (date other : Date)

theorem dayNumber_dateOf (number : ℕ) : (dateOf number).dayNumber = number := by
  have year := (locate_spec yearLength_pos number).1
  have month := (locate_spec (months_pos (dateOf number).year) (locate yearLength number).2).1
  rw [Date.dayNumber, Date.dayOfYear]
  exact (congrArg (start yearLength (dateOf number).year + ·) month).trans year

theorem day_inside : date.day - 1 < months date.year (date.month - 1) := by
  have month := date.isMonth
  have day := date.isDay
  rw [months, Nat.sub_add_cancel month.1]
  omega

theorem dayOfYear_lt : date.dayOfYear < yearLength date.year := by
  have month := date.isMonth
  have inside := day_inside date
  have next : start (months date.year) (date.month - 1) + months date.year (date.month - 1) =
      start (months date.year) (date.month - 1 + 1) := rfl
  have within := @start_mono (months date.year) (date.month - 1 + 1) 12 (by omega)
  rw [start_months] at within
  rw [Date.dayOfYear]
  omega

theorem dayNumber_lt_iff : date.dayNumber < other.dayNumber ↔
    date.year < other.year ∨ date.year = other.year ∧
      (date.month < other.month ∨ date.month = other.month ∧ date.day < other.day) := by
  have month := date.isMonth
  have otherMonth := other.isMonth
  have day := date.isDay
  have otherDay := other.isDay
  rw [Date.dayNumber, Date.dayNumber, point_lt_iff (dayOfYear_lt date) (dayOfYear_lt other)]
  refine or_congr Iff.rfl (and_congr_right fun same => ?_)
  have otherInside := day_inside other
  rw [← same] at otherInside
  rw [Date.dayOfYear, Date.dayOfYear, ← same, point_lt_iff (day_inside date) otherInside]
  omega

end Numbers

/-! ## Time of day -/

structure CivilTime where
  date : Date
  hour : ℕ
  minute : ℕ
  second : ℕ
  isHour : hour < 24
  isMinute : minute < 60
  isSecond : second < 60

namespace CivilTime

/-- The seconds since the beginning of year 0. -/
def secondNumber (time : CivilTime) : ℕ :=
  time.date.dayNumber * 86400 + (time.hour * 3600 + time.minute * 60 + time.second)

def ofSecondNumber (number : ℕ) : CivilTime where
  date := dateOf (number / 86400)
  hour := number % 86400 / 3600
  minute := number % 3600 / 60
  second := number % 60
  isHour := by omega
  isMinute := by omega
  isSecond := by omega

theorem secondNumber_ofSecondNumber (number : ℕ) :
    (ofSecondNumber number).secondNumber = number := by
  have days : (ofSecondNumber number).date.dayNumber = number / 86400 := dayNumber_dateOf _
  rw [secondNumber, days, ofSecondNumber]
  dsimp only
  omega

theorem secondNumber_lt_iff (time other : CivilTime) : time.secondNumber < other.secondNumber ↔
    time.date.dayNumber < other.date.dayNumber ∨ time.date.dayNumber = other.date.dayNumber ∧
      (time.hour < other.hour ∨ time.hour = other.hour ∧
        (time.minute < other.minute ∨
          time.minute = other.minute ∧ time.second < other.second)) := by
  have hour := time.isHour
  have minute := time.isMinute
  have second := time.isSecond
  have otherHour := other.isHour
  have otherMinute := other.isMinute
  have otherSecond := other.isSecond
  rw [secondNumber, secondNumber]
  omega

/-- The beginning of 1970. -/
def epoch : CivilTime where
  date := { year := 1970, month := 1, day := 1, isMonth := by decide, isDay := by decide }
  hour := 0
  minute := 0
  second := 0
  isHour := by decide
  isMinute := by decide
  isSecond := by decide

end CivilTime

end Calendar
