import Mathlib.Data.Nat.Digits.Defs
import Mathlib.Data.Rat.Floor
import Mathlib.Algebra.Order.Field.Basic
import Mathlib.Tactic.FieldSimp
import Mathlib.Tactic.Ring
import Mathlib.Tactic.Linarith

/-! # Fixed-point decimal text

Digits with zero padding, the number a digit pair `integer.fraction` denotes,
and rounding half away from zero.  The main fact is that splitting a natural
number at a power of ten, writing both parts and reading them back gives the
number scaled down by that power. -/
set_option autoImplicit false

namespace DecimalText

def isDigits (chars : List Char) : Prop := ∀ char ∈ chars, char.isDigit = true

/-- The decimal digits of `value`, filled with leading zeros up to `width`. -/
def zeroPadded (width value : Nat) : List Char :=
  List.replicate (width - (Nat.toDigits 10 value).length) '0' ++ Nat.toDigits 10 value

/-- The number written `integerDigits.fractionDigits`. -/
def unsignedValue (integerDigits fractionDigits : List Char) : ℚ :=
  (Nat.ofDigitChars 10 (integerDigits ++ fractionDigits) 0 : ℚ) / 10 ^ fractionDigits.length

theorem isDigits_toDigits (value : Nat) : isDigits (Nat.toDigits 10 value) := by
  intro char member
  exact Nat.isDigit_of_mem_toDigits (by decide) (by decide) member

theorem isDigits_zeroPadded (width value : Nat) : isDigits (zeroPadded width value) := by
  intro char member
  rcases List.mem_append.mp member with zero | digit
  · rw [List.eq_of_mem_replicate zero]
    decide
  · exact isDigits_toDigits value char digit

theorem isDigits_of_subset {part whole : List Char} (inside : part ⊆ whole)
    (decimal : isDigits whole) : isDigits part := fun char member => decimal char (inside member)

theorem digit_bounds {char : Char} (isDigit : char.isDigit = true) :
    48 ≤ char.toNat ∧ char.toNat ≤ 57 := by
  simp only [Char.isDigit, Bool.and_eq_true, decide_eq_true_eq] at isDigit
  exact ⟨isDigit.1, isDigit.2⟩

theorem zeroPadded_zero (value : ℕ) : zeroPadded 0 value = Nat.toDigits 10 value := by
  rw [zeroPadded, Nat.zero_sub]
  rfl

theorem zeroPadded_length {width value : Nat} (positive : 0 < width)
    (fits : value < 10 ^ width) : (zeroPadded width value).length = width := by
  have short : (Nat.toDigits 10 value).length ≤ width :=
    Nat.toDigits_length 10 value width positive fits
  simp only [zeroPadded, List.length_append, List.length_replicate]
  omega

theorem ofDigitChars_zeroPadded (width value : Nat) :
    Nat.ofDigitChars 10 (zeroPadded width value) 0 = value := by
  rw [zeroPadded, Nat.ofDigitChars_append, Nat.ofDigitChars_replicate_zero, Nat.mul_zero,
    Nat.ofDigitChars_ten_toDigits]

/-- Writing quotient and remainder by `10 ^ width` writes `value / 10 ^ width`. -/
theorem unsignedValue_split (width value : Nat) (positive : 0 < width) :
    unsignedValue (Nat.toDigits 10 (value / 10 ^ width)) (zeroPadded width (value % 10 ^ width)) =
      (value : ℚ) / 10 ^ width := by
  have fits : value % 10 ^ width < 10 ^ width := Nat.mod_lt _ (by positivity)
  have digits : Nat.ofDigitChars 10 (Nat.toDigits 10 (value / 10 ^ width) ++
      zeroPadded width (value % 10 ^ width)) 0 = value := by
    rw [Nat.ofDigitChars_append, Nat.ofDigitChars_ten_toDigits,
      Nat.ofDigitChars_eq_ofDigitChars_zero, zeroPadded_length positive fits,
      ofDigitChars_zeroPadded]
    exact Nat.div_add_mod value (10 ^ width)
  rw [unsignedValue, digits, zeroPadded_length positive fits]

theorem unsignedValue_toDigits (value : Nat) :
    unsignedValue (Nat.toDigits 10 value) [] = value := by
  simp [unsignedValue]

section Scan
variable {digits rest : List Char}

theorem takeWhile_digits (digitsOnly : isDigits digits)
    (stops : rest.head?.all fun char => !char.isDigit) :
    (digits ++ rest).takeWhile Char.isDigit = digits := by
  rw [List.takeWhile_append_of_pos digitsOnly]
  cases rest with
  | nil => simp
  | cons char tail =>
      have notDigit : char.isDigit = false := by simpa using stops
      simp [notDigit]

theorem dropWhile_digits (digitsOnly : isDigits digits)
    (stops : rest.head?.all fun char => !char.isDigit) :
    (digits ++ rest).dropWhile Char.isDigit = rest := by
  rw [List.dropWhile_append_of_pos digitsOnly]
  cases rest with
  | nil => rfl
  | cons char tail =>
      have notDigit : char.isDigit = false := by simpa using stops
      simp [notDigit]

end Scan

/-- Rounding to the nearest integer, halves away from zero. -/
def roundHalfAway (value : ℚ) : Int :=
  if value < 0 then -⌊-value + 1 / 2⌋ else ⌊value + 1 / 2⌋

theorem floor_add_half (value : Int) : ⌊(value : ℚ) + 1 / 2⌋ = value := by
  rw [Int.floor_eq_iff]
  constructor <;> linarith

@[simp] theorem roundHalfAway_intCast (value : Int) : roundHalfAway (value : ℚ) = value := by
  rw [roundHalfAway]
  split
  · rw [← Int.cast_neg, floor_add_half, Int.neg_neg]
  · exact floor_add_half value

end DecimalText
