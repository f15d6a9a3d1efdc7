import CryptoTrading.Sdk.Utils
import Mathlib.Data.List.TakeWhile

/-! # Fixed-point text of machine integers

`Format` as it runs: on `int64_t`, over the table of powers and through a buffer
of 64 bytes.  Below the one value that has no opposite it writes what `format`
does over the integers, and that text is a decimal number with as many decimal
places as the precision. -/
set_option autoImplicit false

namespace CryptoTrading

open DecimalText

def kPow10Table : Vector Int64 13 :=
  #v[1, 10, 100, 1000, 10000, 100000, 1000000, 10000000, 100000000, 1000000000, 10000000000,
    100000000000, 1000000000000]

/-- `%0*lld`; with width 0 it is `%lld`, and `std::to_string`. -/
def lldText (width : ℕ) (value : Int64) : List Char :=
  if value < 0 then '-' :: zeroPadded (width - 1) value.toInt.natAbs
  else zeroPadded width value.toInt.natAbs

/-- What `snprintf` leaves in a buffer, up to the NUL. -/
def snprintf (size : ℕ) (text : List Char) : List Char := text.take (size - 1)

def formatInt64 (scaled : Int64) (precision : Fin 13) : String :=
  if precision = 0 then String.ofList (lldText 0 scaled)
  else
    let negative := scaled < 0
    let absScaled := if negative then -scaled else scaled
    let integerPart := absScaled / kPow10Table.get precision
    let fracPart := absScaled % kPow10Table.get precision
    String.ofList (snprintf 64 ((if negative then ['-'] else []) ++
      (lldText 0 integerPart ++ '.' :: lldText precision fracPart)))

example : formatInt64 (-5) 2 = "-0.05" := by decide +kernel

/-! ## Machine integers -/

section Machine
variable {scaled : Int64} {precision : Fin 13}

theorem toInt_kPow10Table : ∀ precision : Fin 13,
    (kPow10Table.get precision).toInt = ((10 ^ (precision : ℕ) : ℕ) : Int) := by
  decide +kernel

theorem lldText_nonneg {value : Int64} {magnitude : ℕ} (same : value.toInt = magnitude)
    (width : ℕ) : lldText width value = zeroPadded width magnitude := by
  have nonneg : ¬ value < 0 := by
    rw [Int64.lt_iff_toInt_lt, same]
    simp
  rw [lldText, if_neg nonneg, same, Int.natAbs_natCast]

theorem toInt_abs (notMin : scaled ≠ Int64.minValue) :
    (if scaled < 0 then -scaled else scaled).toInt = scaled.toInt.natAbs := by
  have above := scaled.minValue_le_toInt
  have below := scaled.toInt_lt
  have least : scaled.toInt ≠ -2 ^ 63 := by
    rw [← Int64.toInt_minValue]
    exact fun same => notMin (Int64.toInt_inj.mp same)
  rw [Int64.toInt_minValue] at above
  split
  · next negative =>
      rw [Int64.lt_iff_toInt_lt, Int64.toInt_zero] at negative
      rw [Int64.toInt_neg, Int.bmod_eq_of_le (by omega) (by omega)]
      omega
  · next nonneg =>
      rw [Int64.lt_iff_toInt_lt, Int64.toInt_zero] at nonneg
      omega

theorem natAbs_lt (scaled : Int64) : scaled.toInt.natAbs ≤ 2 ^ 63 := by
  have above := scaled.minValue_le_toInt
  have below := scaled.toInt_lt
  rw [Int64.toInt_minValue] at above
  omega

theorem toInt_parts {absScaled : Int64} {magnitude : ℕ} (same : absScaled.toInt = magnitude)
    (precision : Fin 13) :
    (absScaled / kPow10Table.get precision).toInt = (magnitude / 10 ^ (precision : ℕ) : ℕ) ∧
      (absScaled % kPow10Table.get precision).toInt = (magnitude % 10 ^ (precision : ℕ) : ℕ) := by
  have power := toInt_kPow10Table precision
  constructor
  · have notMinusOne : kPow10Table.get precision ≠ -1 := by
      intro minusOne
      have negative : (-1 : Int64).toInt < 0 := by decide
      rw [← minusOne, power] at negative
      exact absurd negative (Int.not_lt.mpr (Int.natCast_nonneg _))
    rw [Int64.toInt_div_of_ne_right _ _ notMinusOne, same, power]
    exact (Int.ofNat_tdiv _ _).symm
  · rw [Int64.toInt_mod, same, power]
    exact (Int.ofNat_tmod _ _).symm

theorem length_unsignedText_le (scaled : Int64) {precision : ℕ} (positive : 0 < precision)
    (bounded : precision ≤ 12) : (unsignedText scaled.toInt.natAbs precision).length ≤ 32 := by
  have small : scaled.toInt.natAbs / 10 ^ precision < 10 ^ 19 := by
    have atMost := natAbs_lt scaled
    have quotient := Nat.div_le_self scaled.toInt.natAbs (10 ^ precision)
    omega
  have integerLength := Nat.toDigits_length 10 _ 19 (by decide) small
  have fractionLength := zeroPadded_length positive
    (Nat.mod_lt scaled.toInt.natAbs (Nat.pow_pos (n := precision) (by decide : 0 < 10)))
  rw [unsignedText, if_neg positive.ne', List.length_append, List.length_cons, fractionLength]
  omega

/-- `Format` writes the text that it would write over the integers: nothing
overflows, and the buffer is long enough. -/
theorem formatInt64_eq (notMin : scaled ≠ Int64.minValue) (precision : Fin 13) :
    formatInt64 scaled precision = format scaled.toInt precision := by
  have negative : scaled < 0 ↔ scaled.toInt < 0 := by
    rw [Int64.lt_iff_toInt_lt, Int64.toInt_zero]
  rw [formatInt64, format, formatText_eq]
  by_cases whole : precision = 0
  · subst whole
    rw [if_pos rfl, lldText, zeroPadded_zero, unsignedText]
    simp only [negative, Fin.val_zero, if_true, zeroPadded_zero]
    split <;> rfl
  · have positive : 0 < (precision : ℕ) := Nat.pos_of_ne_zero fun zero => whole (Fin.ext zero)
    obtain ⟨quotient, remainder⟩ := toInt_parts (toInt_abs notMin) precision
    have short := length_unsignedText_le scaled positive (Nat.le_of_lt_succ precision.isLt)
    rw [if_neg whole]
    dsimp only
    rw [lldText_nonneg quotient, lldText_nonneg remainder, zeroPadded_zero, snprintf]
    rw [unsignedText, if_neg positive.ne'] at short ⊢
    simp only [negative]
    congr 1
    apply List.take_of_length_le
    rw [List.length_append]
    split
    · rw [List.length_singleton]
      omega
    · rw [List.length_nil]
      omega

end Machine

/-! ## Decimal numbers -/

/-- A decimal number: an optional minus sign, digits and, unless `precision` is
zero, a dot and that many digits. -/
structure DecimalNumber (precision : ℕ) where
  negative : Bool
  integerDigits : List Char
  fractionDigits : List Char
  someDigit : integerDigits ≠ []
  integerDecimal : isDigits integerDigits
  fractionDecimal : isDigits fractionDigits
  places : fractionDigits.length = precision

namespace DecimalNumber
variable {precision : ℕ}

def text (number : DecimalNumber precision) : String :=
  String.ofList ((if number.negative then ['-'] else []) ++ (number.integerDigits ++
    if precision = 0 then [] else '.' :: number.fractionDigits))

def value (number : DecimalNumber precision) : ℚ :=
  if number.negative then -unsignedValue number.integerDigits number.fractionDigits
  else unsignedValue number.integerDigits number.fractionDigits

theorem digit_plain {char : Char} (isDigit : char.isDigit = true) :
    char ≠ '\x00' ∧ char ≠ '.' ∧ char.utf8Size = 1 := by
  refine ⟨?_, ?_, ?_⟩
  · rintro rfl
    exact absurd isDigit (by decide)
  · rintro rfl
    exact absurd isDigit (by decide)
  · have upper := (digit_bounds isDigit).2
    exact if_pos (UInt32.le_iff_toNat_le.mpr (upper.trans (by decide)))

def front (number : DecimalNumber precision) : List Char :=
  (if number.negative then ['-'] else []) ++ number.integerDigits

theorem text_eq (number : DecimalNumber precision) : number.text = String.ofList
    (number.front ++ if precision = 0 then [] else '.' :: number.fractionDigits) := by
  rw [text, front, List.append_assoc]

theorem front_plain (number : DecimalNumber precision) :
    ∀ char ∈ number.front, char ≠ '\x00' ∧ char ≠ '.' := by
  intro char member
  rcases List.mem_append.mp member with sign | digit
  · split at sign
    · rw [List.mem_singleton.mp sign]
      decide
    · cases sign
  · obtain ⟨notNul, notDot, -⟩ := digit_plain (number.integerDecimal char digit)
    exact ⟨notNul, notDot⟩

theorem countDecimalPlaces_text (number : DecimalNumber precision) :
    countDecimalPlaces number.text = precision := by
  have frontNoNul : ∀ char ∈ number.front, decide (char ≠ '\x00') = true := fun char member =>
    decide_eq_true (number.front_plain char member).1
  have frontNoDot : ∀ char ∈ number.front, decide (char ≠ '.') = true := fun char member =>
    decide_eq_true (number.front_plain char member).2
  rw [text_eq, countDecimalPlaces, String.toList_ofList]
  by_cases whole : precision = 0
  · rw [if_pos whole, List.append_nil, List.takeWhile_eq_self_iff.mpr frontNoNul,
      List.dropWhile_eq_nil_iff.mpr frontNoDot]
    exact whole.symm
  · have fractionNoNul : ∀ char ∈ '.' :: number.fractionDigits,
        decide (char ≠ '\x00') = true := by
      intro char member
      rcases List.mem_cons.mp member with rfl | digit
      · decide
      · exact decide_eq_true (digit_plain (number.fractionDecimal char digit)).1
    have sizes : number.fractionDigits.map Char.utf8Size =
        List.replicate number.fractionDigits.length 1 := by
      rw [List.eq_replicate_iff, List.length_map]
      refine ⟨rfl, fun size member => ?_⟩
      obtain ⟨char, digit, rfl⟩ := List.mem_map.mp member
      exact (digit_plain (number.fractionDecimal char digit)).2.2
    rw [if_neg whole, List.takeWhile_append_of_pos frontNoNul,
      List.takeWhile_eq_self_iff.mpr fractionNoNul,
      List.dropWhile_append_of_pos frontNoDot, List.dropWhile_cons_of_neg (by decide)]
    dsimp only
    rw [sizes, List.sum_replicate, number.places]
    exact Nat.mul_one precision

end DecimalNumber

/-! ## The text of a fixed-point number -/

def fixedPoint (scaled : Int) (precision : ℕ) : DecimalNumber precision where
  negative := scaled < 0
  integerDigits := Nat.toDigits 10 (scaled.natAbs / 10 ^ precision)
  fractionDigits :=
    if precision = 0 then [] else zeroPadded precision (scaled.natAbs % 10 ^ precision)
  someDigit := Nat.toDigits_ne_nil
  integerDecimal := isDigits_toDigits _
  fractionDecimal := by
    split
    · exact fun char member => nomatch member
    · exact isDigits_zeroPadded _ _
  places := by
    split
    · next whole => exact whole.symm
    · next fractional =>
        exact zeroPadded_length (Nat.pos_of_ne_zero fractional)
          (Nat.mod_lt _ (Nat.pow_pos (by decide)))

section Text
variable (scaled : Int) (precision : ℕ)

theorem text_fixedPoint : (fixedPoint scaled precision).text = format scaled precision := by
  rw [DecimalNumber.text, format, formatText_eq, fixedPoint, unsignedText]
  by_cases whole : precision = 0
  · subst whole
    simp
  · simp [whole]

theorem value_fixedPoint : (fixedPoint scaled precision).value = (scaled : ℚ) / 10 ^ precision := by
  have magnitude : unsignedValue (fixedPoint scaled precision).integerDigits
      (fixedPoint scaled precision).fractionDigits = (scaled.natAbs : ℚ) / 10 ^ precision := by
    by_cases whole : precision = 0
    · subst whole
      simp [fixedPoint, unsignedValue_toDigits]
    · simp only [fixedPoint, whole, if_false]
      exact unsignedValue_split precision scaled.natAbs (Nat.pos_of_ne_zero whole)
  rw [DecimalNumber.value, magnitude, Nat.cast_natAbs]
  by_cases negative : scaled < 0
  · have sign : (fixedPoint scaled precision).negative = true := decide_eq_true negative
    rw [if_pos sign, abs_of_neg negative, Int.cast_neg, neg_div, neg_neg]
  · have sign : ¬ (fixedPoint scaled precision).negative = true := by
      simpa [fixedPoint] using negative
    rw [if_neg sign, abs_of_nonneg (not_lt.mp negative)]

end Text

/-- `Format` writes a decimal number with as many places as the precision, which
is the scaled number exactly; its places are counted right, and reading and
encoding it gives the scaled number back. -/
theorem format_exact {scaled : Int64} (notMin : scaled ≠ Int64.minValue) (precision : Fin 13) :
    (∃ number : DecimalNumber precision, formatInt64 scaled precision = number.text ∧
        number.value = (scaled.toInt : ℚ) / 10 ^ (precision : ℕ)) ∧
      countDecimalPlaces (formatInt64 scaled precision) = precision ∧
      (stod (formatInt64 scaled precision)).map (fun value => encode value precision) =
        some scaled.toInt := by
  have text := text_fixedPoint scaled.toInt precision
  rw [formatInt64_eq notMin]
  refine ⟨⟨fixedPoint scaled.toInt precision, text.symm, value_fixedPoint _ _⟩, ?_,
    encode_stod_format _ _⟩
  rw [← text]
  exact DecimalNumber.countDecimalPlaces_text _

/-- A negative number between 0 and -1, at the largest precision. -/
theorem format_exact_small :
    (∃ number : DecimalNumber 12, formatInt64 (-5) 12 = number.text ∧
        number.value = (-5 : ℚ) / 10 ^ 12) ∧
      countDecimalPlaces (formatInt64 (-5) 12) = 12 ∧
      (stod (formatInt64 (-5) 12)).map (fun value => encode value 12) = some (-5) := by
  have exact := @format_exact (-5) (by decide) 12
  have same : (-5 : Int64).toInt = -5 := by decide
  rw [same, show ((-5 : Int) : ℚ) = -5 by norm_num] at exact
  exact exact

end CryptoTrading
