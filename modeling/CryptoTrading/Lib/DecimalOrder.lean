import CryptoTrading.Lib.DecimalText
import CryptoTrading.Lib.Spans

/-! # Order of decimal text

Texts are compared character by character.  Fields of one width, one after
another, are in the order of the first fields that differ, and numbers filled
with zeros to one width in the order of the numbers.  Without the zeros, and with
a mark behind them that comes after the digits, the first digits decide. -/
set_option autoImplicit false

namespace DecimalText

/-! ## Fields -/

theorem append_lt_append_iff {α : Type} [LT α] {first second : List α} : ∀ {rest other : List α},
    first.length = second.length →
      (first ++ rest < second ++ other ↔ first < second ∨ first = second ∧ rest < other) := by
  induction first generalizing second with
  | nil =>
      intro rest other same
      cases second with
      | nil => simp
      | cons head tail => cases same
  | cons head tail ih =>
      intro rest other same
      cases second with
      | nil => cases same
      | cons otherHead otherTail =>
          have behind := @ih otherTail rest other (Nat.succ.inj same)
          rw [List.cons_append, List.cons_append, List.cons_lt_cons_iff, List.cons_lt_cons_iff,
            behind, List.cons.injEq]
          tauto

theorem eq_iff_of_lt_iff {text otherText : List Char} {number otherNumber : ℕ}
    (before : text < otherText ↔ number < otherNumber)
    (after : otherText < text ↔ otherNumber < number) :
    text = otherText ↔ number = otherNumber := by
  constructor
  · rintro rfl
    have notBefore := mt before.mpr (List.lt_irrefl _)
    have notAfter := mt after.mpr (List.lt_irrefl _)
    omega
  · rintro rfl
    have notBefore := mt before.mp (Nat.lt_irrefl _)
    have notAfter := mt after.mp (Nat.lt_irrefl _)
    exact List.le_antisymm (List.not_lt.mp notAfter) (List.not_lt.mp notBefore)

/-! ## Numbers of one width -/

theorem ofDigitChars_cons_zero (char : Char) (rest : List Char) :
    Nat.ofDigitChars 10 (char :: rest) 0 =
      10 ^ rest.length * (char.toNat - 48) + Nat.ofDigitChars 10 rest 0 := by
  rw [Nat.ofDigitChars_cons, Nat.ofDigitChars_eq_ofDigitChars_zero, Nat.mul_zero, Nat.zero_add,
    show '0'.toNat = 48 from rfl]

theorem ofDigitChars_lt {digits : List Char} (decimal : isDigits digits) :
    Nat.ofDigitChars 10 digits 0 < 10 ^ digits.length := by
  induction digits with
  | nil => exact Nat.one_pos
  | cons char rest ih =>
      have small := ih (isDigits_of_subset (List.subset_cons_self _ _) decimal)
      have bounds := digit_bounds (decimal char List.mem_cons_self)
      have atMost : 10 ^ rest.length * (char.toNat - 48) ≤ 10 ^ rest.length * 9 :=
        Nat.mul_le_mul_left _ (by omega)
      rw [ofDigitChars_cons_zero, List.length_cons, Nat.pow_succ]
      omega

theorem scaled_lt_iff {power digit otherDigit rest otherRest : ℕ} (small : rest < power)
    (otherSmall : otherRest < power) :
    power * digit + rest < power * otherDigit + otherRest ↔
      digit < otherDigit ∨ digit = otherDigit ∧ rest < otherRest := by
  rw [← Spans.start_const, ← Spans.start_const]
  exact Spans.point_lt_iff small otherSmall

theorem digits_lt_iff {first : List Char} : ∀ {second : List Char}, isDigits first →
    isDigits second → first.length = second.length →
      (first < second ↔ Nat.ofDigitChars 10 first 0 < Nat.ofDigitChars 10 second 0) := by
  induction first with
  | nil =>
      intro second _ _ same
      rw [List.length_nil, eq_comm, List.length_eq_zero_iff] at same
      subst same
      simp
  | cons char rest ih =>
      intro second decimal otherDecimal same
      cases second with
      | nil => cases same
      | cons otherChar otherRest =>
          have restDecimal := isDigits_of_subset (List.subset_cons_self _ _) decimal
          have otherRestDecimal := isDigits_of_subset (List.subset_cons_self _ _) otherDecimal
          have lengths : rest.length = otherRest.length := Nat.succ.inj same
          have small := ofDigitChars_lt restDecimal
          have otherSmall := ofDigitChars_lt otherRestDecimal
          have bounds := digit_bounds (decimal char List.mem_cons_self)
          have otherBounds := digit_bounds (otherDecimal otherChar List.mem_cons_self)
          have digitLt : char < otherChar ↔ char.toNat - 48 < otherChar.toNat - 48 := by
            have values : char < otherChar ↔ char.toNat < otherChar.toNat := Iff.rfl
            rw [values]
            omega
          have digitEq : char = otherChar ↔ char.toNat - 48 = otherChar.toNat - 48 := by
            rw [← Char.toNat_inj]
            omega
          rw [← lengths] at otherSmall
          rw [List.cons_lt_cons_iff, ofDigitChars_cons_zero, ofDigitChars_cons_zero, ← lengths,
            scaled_lt_iff small otherSmall, ih restDecimal otherRestDecimal lengths, digitLt,
            digitEq]

theorem zeroPadded_lt_iff {width value other : ℕ} (positive : 0 < width)
    (fits : value < 10 ^ width) (otherFits : other < 10 ^ width) :
    zeroPadded width value < zeroPadded width other ↔ value < other := by
  have lengths : (zeroPadded width value).length = (zeroPadded width other).length := by
    rw [zeroPadded_length positive fits, zeroPadded_length positive otherFits]
  rw [digits_lt_iff (isDigits_zeroPadded _ _) (isDigits_zeroPadded _ _) lengths,
    ofDigitChars_zeroPadded, ofDigitChars_zeroPadded]

theorem zeroPadded_inj {width value other : ℕ} :
    zeroPadded width value = zeroPadded width other ↔ value = other := by
  constructor
  · intro same
    have numbers := congrArg (Nat.ofDigitChars 10 · 0) same
    rwa [ofDigitChars_zeroPadded, ofDigitChars_zeroPadded] at numbers
  · rintro rfl
    rfl

/-! ## Numbers without zeros -/

section Unpadded
variable {number other : ℕ} {mark : Char}

def digitCount (number : ℕ) : ℕ := (Nat.toDigits 10 number).length

/-- Less than as many first digits of the other. -/
def LessInFront (number other : ℕ) : Prop :=
  number < other / 10 ^ (digitCount other - digitCount number)

instance (number other : ℕ) : Decidable (LessInFront number other) :=
  inferInstanceAs (Decidable (_ < _))

theorem zeroPadded_of_digits {width value : ℕ} (digits : digitCount value = width) :
    zeroPadded width value = Nat.toDigits 10 value := by
  rw [digitCount] at digits
  rw [zeroPadded, digits, Nat.sub_self]
  rfl

theorem digitCount_eq_iff {count value : ℕ} (positive : 0 < count) :
    digitCount value = count + 1 ↔ 10 ^ count ≤ value ∧ value < 10 ^ (count + 1) := by
  have shorter := @Nat.length_toDigits_le_iff 10 value count (by decide) positive
  have fits := @Nat.length_toDigits_le_iff 10 value (count + 1) (by decide) (Nat.succ_pos _)
  rw [digitCount, ← fits, ← Nat.not_lt, ← shorter]
  omega

theorem digitCount_mono (ordered : number ≤ other) : digitCount number ≤ digitCount other := by
  have positive : 0 < digitCount other := Nat.length_toDigits_pos
  have bound := (Nat.length_toDigits_le_iff (b := 10) (n := other) (by decide) positive).mp
    (Nat.le_refl _)
  exact (Nat.length_toDigits_le_iff (by decide) positive).mpr (Nat.lt_of_le_of_lt ordered bound)

theorem ofDigitChars_take {digits : List Char} (decimal : isDigits digits) (count : ℕ) :
    Nat.ofDigitChars 10 (digits.take count) 0 =
      Nat.ofDigitChars 10 digits 0 / 10 ^ (digits.length - count) := by
  have behind := isDigits_of_subset (List.drop_subset count digits) decimal
  have small := ofDigitChars_lt behind
  have whole : Nat.ofDigitChars 10 digits 0 = 10 ^ (digits.length - count) *
      Nat.ofDigitChars 10 (digits.take count) 0 + Nat.ofDigitChars 10 (digits.drop count) 0 := by
    conv_lhs => rw [← List.take_append_drop count digits]
    rw [Nat.ofDigitChars_append, Nat.ofDigitChars_eq_ofDigitChars_zero, List.length_drop]
  rw [List.length_drop] at small
  rw [whole, Nat.mul_add_div (Nat.pow_pos (by decide)), Nat.div_eq_of_lt small, Nat.add_zero]

/-- Of two numbers in front of a mark the smaller comes first exactly when it is
less than as many first digits of the other. -/
theorem marked_lt_iff (ordered : number ≤ other)
    (above : ∀ char : Char, char.isDigit = true → char < mark) :
    Nat.toDigits 10 number ++ [mark] < Nat.toDigits 10 other ++ [mark] ↔
      LessInFront number other := by
  have decimal := isDigits_toDigits other
  have front := isDigits_of_subset (List.take_subset (digitCount number) _) decimal
  have lengths : (Nat.toDigits 10 number).length =
      ((Nat.toDigits 10 other).take (digitCount number)).length := by
    rw [List.length_take]
    exact (Nat.min_eq_left (digitCount_mono ordered)).symm
  have notBehind : ¬ [mark] < (Nat.toDigits 10 other).drop (digitCount number) ++ [mark] := by
    cases behind : (Nat.toDigits 10 other).drop (digitCount number) with
    | nil => simp
    | cons char rest =>
        have isDigit := isDigits_of_subset (List.drop_subset (digitCount number) _) decimal
        rw [behind] at isDigit
        have first := above char (isDigit char List.mem_cons_self)
        rw [List.cons_append, List.cons_lt_cons_iff]
        rintro (before | ⟨same, -⟩)
        · exact Char.lt_irrefl _ (Char.lt_trans first before)
        · rw [same] at first
          exact Char.lt_irrefl _ first
  conv_lhs => rw [← List.take_append_drop (digitCount number) (Nat.toDigits 10 other)]
  rw [List.append_assoc, append_lt_append_iff lengths, or_iff_left fun both => notBehind both.2,
    digits_lt_iff (isDigits_toDigits number) front lengths, ofDigitChars_take decimal,
    Nat.ofDigitChars_ten_toDigits, Nat.ofDigitChars_ten_toDigits]
  rfl

theorem LessInFront.lt (front : LessInFront number other) : number < other :=
  Nat.lt_of_lt_of_le front (Nat.div_le_self _ _)

theorem lessInFront_iff_lt (count : digitCount number = digitCount other) :
    LessInFront number other ↔ number < other := by
  rw [LessInFront, count, Nat.sub_self, Nat.pow_zero, Nat.div_one]

theorem marked_alike_of_lt (smaller : number < other)
    (above : ∀ char : Char, char.isDigit = true → char < mark) :
    (Nat.toDigits 10 number ++ [mark] < Nat.toDigits 10 other ++ [mark] ↔ number < other) ∧
        (Nat.toDigits 10 other ++ [mark] < Nat.toDigits 10 number ++ [mark] ↔ other < number) ↔
      LessInFront number other := by
  have front := marked_lt_iff (Nat.le_of_lt smaller) above
  constructor
  · intro alike
    exact front.mp (alike.1.mpr smaller)
  · intro less
    have before := front.mpr less
    exact ⟨iff_of_true before smaller,
      iff_of_false (List.lt_asymm before) (Nat.not_lt_of_gt smaller)⟩

theorem marked_alike_iff (number other : ℕ)
    (above : ∀ char : Char, char.isDigit = true → char < mark) :
    (Nat.toDigits 10 number ++ [mark] < Nat.toDigits 10 other ++ [mark] ↔ number < other) ∧
        (Nat.toDigits 10 other ++ [mark] < Nat.toDigits 10 number ++ [mark] ↔ other < number) ↔
      number = other ∨ LessInFront number other ∨ LessInFront other number := by
  rcases Nat.lt_trichotomy number other with smaller | same | larger
  · have notBehind : ¬ LessInFront other number := fun front => Nat.lt_asymm smaller front.lt
    rw [marked_alike_of_lt smaller above, or_iff_left notBehind,
      or_iff_right (Nat.ne_of_lt smaller)]
  · subst same
    simp
  · have notBefore : ¬ LessInFront number other := fun front => Nat.lt_asymm larger front.lt
    rw [and_comm, marked_alike_of_lt larger above, or_iff_right notBefore,
      or_iff_right (Nat.ne_of_gt larger)]

end Unpadded

end DecimalText
