import CryptoTrading.Lib.DecimalText

/-! # Fixed-point numbers of the SDK

`Encode`, `Decode` and `Format` of `utils.hpp`, over exact rationals in place of
doubles, and `std::stod` on the plain decimal notation.  `stod_format` and
`encode_decode` are the two halves of the round trip that order prices and
sizes take through the request strings. -/
set_option autoImplicit false

namespace CryptoTrading

open DecimalText

/-- The source keeps a table of the powers 0 to 12 and reads it unchecked. -/
def kPow10 (precision : Nat) : Int := 10 ^ precision

def encode (value : ℚ) (precision : Nat) : Int :=
  roundHalfAway (value * (kPow10 precision : ℚ))

def decode (scaled : Int) (precision : Nat) : ℚ := (scaled : ℚ) / (kPow10 precision : ℚ)

/-- `std::to_string` of an integer, as characters. -/
def integerText (value : Int) : List Char :=
  (if value < 0 then ['-'] else []) ++ Nat.toDigits 10 value.natAbs

def formatText (scaled : Int) (precision : Nat) : List Char :=
  if precision = 0 then integerText scaled
  else
    let negative := scaled < 0
    let absScaled := scaled.natAbs
    let integerPart := absScaled / 10 ^ precision
    let fracPart := absScaled % 10 ^ precision
    (if negative then ['-'] else []) ++
      (Nat.toDigits 10 integerPart ++ '.' :: zeroPadded precision fracPart)

def format (scaled : Int) (precision : Nat) : String := String.ofList (formatText scaled precision)

/-- The bytes between the first dot and the end of a C string. -/
def countDecimalPlaces (str : String) : Nat :=
  match (str.toList.takeWhile (· ≠ '\x00')).dropWhile (· ≠ '.') with
  | [] => 0
  | _ :: decimals => (decimals.map Char.utf8Size).sum

example : countDecimalPlaces "0.0010" = 4 := by decide

def parseUnsigned (chars : List Char) : Option ℚ :=
  let integerDigits := chars.takeWhile Char.isDigit
  let rest := chars.dropWhile Char.isDigit
  let fractionDigits :=
    if rest.head? = some '.' then rest.tail.takeWhile Char.isDigit else []
  if integerDigits = [] ∧ fractionDigits = [] then none
  else some (unsignedValue integerDigits fractionDigits)

/-- `std::stod` on decimal notation; `none` is `std::invalid_argument`.  The
exponent, hexadecimal and infinity forms never come out of `format`. -/
def stod (text : String) : Option ℚ :=
  let chars := text.toList.dropWhile Char.isWhitespace
  if chars.head? = some '-' then (parseUnsigned chars.tail).map Neg.neg
  else if chars.head? = some '+' then parseUnsigned chars.tail
  else parseUnsigned chars

/-! ## Arithmetic of `decode` -/

theorem kPow10_pos (precision : Nat) : (0 : ℚ) < (kPow10 precision : ℚ) := by
  rw [kPow10]
  push_cast
  positivity

@[simp] theorem decode_zero (precision : Nat) : decode 0 precision = 0 := by simp [decode]

theorem decode_add (left right : Int) (precision : Nat) :
    decode (left + right) precision = decode left precision + decode right precision := by
  simp only [decode, Int.cast_add, add_div]

theorem decode_sub (left right : Int) (precision : Nat) :
    decode (left - right) precision = decode left precision - decode right precision := by
  simp only [decode, Int.cast_sub, sub_div]

theorem decode_le_decode {left right : Int} (precision : Nat) :
    decode left precision ≤ decode right precision ↔ left ≤ right := by
  rw [decode, decode, div_le_div_iff_of_pos_right (kPow10_pos precision), Int.cast_le]

theorem decode_lt_decode {left right : Int} (precision : Nat) :
    decode left precision < decode right precision ↔ left < right := by
  rw [decode, decode, div_lt_div_iff_of_pos_right (kPow10_pos precision), Int.cast_lt]

theorem decode_inj {left right : Int} (precision : Nat) :
    decode left precision = decode right precision ↔ left = right := by
  rw [le_antisymm_iff, le_antisymm_iff, decode_le_decode, decode_le_decode]

theorem decode_nonneg {scaled : Int} (precision : Nat) :
    0 ≤ decode scaled precision ↔ 0 ≤ scaled := by
  rw [← decode_zero precision, decode_le_decode]

theorem decode_pos {scaled : Int} (precision : Nat) :
    0 < decode scaled precision ↔ 0 < scaled := by
  rw [← decode_zero precision, decode_lt_decode]

theorem encode_decode (scaled : Int) (precision : Nat) :
    encode (decode scaled precision) precision = scaled := by
  rw [encode, decode, div_mul_cancel₀ _ (kPow10_pos precision).ne', roundHalfAway_intCast]

/-! ## Reading back what `format` writes -/

def unsignedText (value precision : Nat) : List Char :=
  if precision = 0 then Nat.toDigits 10 value
  else Nat.toDigits 10 (value / 10 ^ precision) ++
    '.' :: zeroPadded precision (value % 10 ^ precision)

theorem formatText_eq (scaled : Int) (precision : Nat) :
    formatText scaled precision =
      (if scaled < 0 then ['-'] else []) ++ unsignedText scaled.natAbs precision := by
  rw [formatText, unsignedText, integerText]
  split <;> rfl

theorem unsignedText_cons (value precision : Nat) :
    ∃ digit rest, unsignedText value precision = digit :: rest ∧ digit.isDigit = true := by
  have digitsCons : ∀ number : Nat, ∃ digit rest,
      Nat.toDigits 10 number = digit :: rest ∧ digit.isDigit = true := by
    intro number
    cases shape : Nat.toDigits 10 number with
    | nil => exact absurd shape Nat.toDigits_ne_nil
    | cons digit rest =>
        refine ⟨digit, rest, rfl, isDigits_toDigits number digit ?_⟩
        rw [shape]
        exact List.mem_cons_self
  rw [unsignedText]
  split
  · exact digitsCons value
  · obtain ⟨digit, rest, shape, isDigit⟩ := digitsCons (value / 10 ^ precision)
    exact ⟨digit, rest ++ '.' :: zeroPadded precision (value % 10 ^ precision),
      by rw [shape]; rfl, isDigit⟩

theorem parseUnsigned_unsignedText (value precision : Nat) :
    parseUnsigned (unsignedText value precision) = some ((value : ℚ) / 10 ^ precision) := by
  have nonempty : ∀ number : Nat, Nat.toDigits 10 number ≠ [] := fun _ => Nat.toDigits_ne_nil
  by_cases whole : precision = 0
  · subst whole
    have text : unsignedText value 0 = Nat.toDigits 10 value ++ [] := by simp [unsignedText]
    rw [parseUnsigned, text, takeWhile_digits (isDigits_toDigits value) (by simp),
      dropWhile_digits (isDigits_toDigits value) (by simp)]
    simp [nonempty, unsignedValue_toDigits]
  · have text : unsignedText value precision = Nat.toDigits 10 (value / 10 ^ precision) ++
        '.' :: (zeroPadded precision (value % 10 ^ precision) ++ []) := by
      simp [unsignedText, whole]
    rw [parseUnsigned, text, takeWhile_digits (isDigits_toDigits _) (by simp),
      dropWhile_digits (isDigits_toDigits _) (by simp)]
    simp only [List.head?_cons, if_true, List.tail_cons, nonempty, false_and, if_false]
    rw [takeWhile_digits (isDigits_zeroPadded _ _) (by simp),
      unsignedValue_split precision value (Nat.pos_of_ne_zero whole)]

theorem digit_not_sign {digit : Char} (isDigit : digit.isDigit = true) :
    digit ≠ '-' ∧ digit ≠ '+' ∧ digit.isWhitespace = false := by
  refine ⟨?_, ?_, ?_⟩
  · rintro rfl
    exact absurd isDigit (by decide)
  · rintro rfl
    exact absurd isDigit (by decide)
  · rw [Char.isWhitespace]
    simp only [Bool.or_eq_false_iff, decide_eq_false_iff_not]
    refine ⟨⟨⟨?_, ?_⟩, ?_⟩, ?_⟩ <;> rintro rfl <;> exact absurd isDigit (by decide)

theorem stod_format (scaled : Int) (precision : Nat) :
    stod (format scaled precision) = some (decode scaled precision) := by
  obtain ⟨digit, rest, shape, isDigit⟩ := unsignedText_cons scaled.natAbs precision
  obtain ⟨notMinus, notPlus, notSpace⟩ := digit_not_sign isDigit
  have parsed := parseUnsigned_unsignedText scaled.natAbs precision
  rw [stod, format, String.toList_ofList, formatText_eq]
  by_cases negative : scaled < 0
  · have magnitude : (scaled.natAbs : ℚ) = -scaled := by
      rw [Nat.cast_natAbs, abs_of_neg negative, Int.cast_neg]
    have minusNotSpace : ('-' : Char).isWhitespace = false := by decide
    simp only [negative, if_true, List.cons_append, List.nil_append, minusNotSpace,
      List.dropWhile_cons, Bool.false_eq_true, if_false, List.head?_cons, List.tail_cons]
    rw [parsed, Option.map_some, magnitude, decode, kPow10]
    push_cast
    rw [neg_div, neg_neg]
  · have magnitude : (scaled.natAbs : ℚ) = scaled := by
      rw [Nat.cast_natAbs, abs_of_nonneg (not_lt.mp negative)]
    rw [shape] at parsed ⊢
    simp only [negative, if_false, List.nil_append, notSpace, List.dropWhile_cons,
      Bool.false_eq_true, List.head?_cons, Option.some.injEq, notMinus, notPlus]
    rw [parsed, magnitude, decode, kPow10]
    push_cast
    rfl

/-- A price or size survives the trip through its request string. -/
theorem encode_stod_format (scaled : Int) (precision : Nat) :
    (stod (format scaled precision)).map (fun value => encode value precision) = some scaled := by
  rw [stod_format, Option.map_some, encode_decode]

example : format (-5) 2 = "-0.05" := by decide

end CryptoTrading
