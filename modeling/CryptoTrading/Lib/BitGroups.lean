import Mathlib.Algebra.Group.Nat.Defs
import Mathlib.Data.List.Basic
import Mathlib.Tactic.Ring

/-! # Numbers as groups of bits

Bits of a given width, most significant first, and lists cut into groups of one
length.  Writing numbers of one width after another and cutting the bits at
another width is how a text over one alphabet becomes one over another. -/
set_option autoImplicit false

namespace BitGroups

/-! ## Bits of a number -/

/-- The lowest `width` bits, the most significant first. -/
def bits : ℕ → ℕ → List Bool
  | 0, _ => []
  | width + 1, value => decide (value / 2 ^ width % 2 = 1) :: bits width value

def ofBits : List Bool → ℕ
  | [] => 0
  | bit :: rest => bit.toNat * 2 ^ rest.length + ofBits rest

@[simp] theorem length_bits (width value : ℕ) : (bits width value).length = width := by
  induction width with
  | zero => rfl
  | succ width ih => rw [bits, List.length_cons, ih]

theorem bits_add (high low value : ℕ) :
    bits (high + low) value = bits high (value / 2 ^ low) ++ bits low value := by
  induction high with
  | zero => rw [Nat.zero_add, bits, List.nil_append]
  | succ high ih =>
      rw [Nat.add_right_comm, bits, bits, ih, Nat.div_div_eq_div_mul, ← Nat.pow_add,
        Nat.add_comm low high]
      rfl

theorem bits_mod (width value : ℕ) : bits width (value % 2 ^ width) = bits width value := by
  have lower : ∀ low, low ≤ width → bits low (value % 2 ^ width) = bits low value := by
    intro low
    induction low with
    | zero => exact fun _ => rfl
    | succ low ih =>
        intro within
        have split : 2 ^ width = 2 ^ low * 2 ^ (width - low) := by
          rw [← Nat.pow_add, Nat.add_sub_cancel' (Nat.le_of_succ_le within)]
        have even : 2 ∣ 2 ^ (width - low) := dvd_pow_self 2 (by omega)
        rw [bits, bits, ih (Nat.le_of_succ_le within), split, Nat.mod_mul_right_div_self,
          Nat.mod_mod_of_dvd _ even]
  exact lower width (Nat.le_refl width)

theorem bits_append (high low value : ℕ) {rest : ℕ} (small : rest < 2 ^ low) :
    bits high value ++ bits low rest = bits (high + low) (value * 2 ^ low + rest) := by
  have top : (value * 2 ^ low + rest) / 2 ^ low = value := by
    rw [Nat.add_comm, Nat.add_mul_div_right _ _ (Nat.two_pow_pos low), Nat.div_eq_of_lt small,
      Nat.zero_add]
  have bottom : bits low (value * 2 ^ low + rest) = bits low rest := by
    rw [← bits_mod, Nat.add_comm, Nat.add_mul_mod_self_right, bits_mod]
  rw [bits_add, top, bottom]

theorem ofBits_bits (width value : ℕ) : ofBits (bits width value) = value % 2 ^ width := by
  induction width with
  | zero => rw [bits, ofBits, Nat.pow_zero, Nat.mod_one]
  | succ width ih =>
      have bit : (decide (value / 2 ^ width % 2 = 1)).toNat = value / 2 ^ width % 2 := by
        rcases Nat.mod_two_eq_zero_or_one (value / 2 ^ width) with even | odd
        · rw [even]
          rfl
        · rw [odd]
          rfl
      rw [bits, ofBits, length_bits, ih, bit, Nat.pow_succ, Nat.mod_mul]
      ring

theorem bits_shift (width count value : ℕ) :
    bits (width + count) (value * 2 ^ count) = bits width value ++ List.replicate count false := by
  have zeros : bits count (value * 2 ^ count) = List.replicate count false := by
    rw [← bits_mod, Nat.mul_mod_left]
    induction count with
    | zero => rfl
    | succ count ih => rw [bits, ih, Nat.zero_div, List.replicate_succ]; rfl
  rw [bits_add, Nat.mul_div_cancel _ (Nat.two_pow_pos count), zeros]

theorem ofBits_lt (list : List Bool) : ofBits list < 2 ^ list.length := by
  induction list with
  | nil => exact Nat.one_pos
  | cons bit rest ih =>
      have atMost : bit.toNat * 2 ^ rest.length ≤ 2 ^ rest.length :=
        (Nat.mul_le_mul_right _ (Bool.toNat_le bit)).trans_eq (Nat.one_mul _)
      rw [ofBits, List.length_cons, Nat.pow_succ]
      omega

theorem bits_ofBits (list : List Bool) : bits list.length (ofBits list) = list := by
  induction list with
  | nil => rfl
  | cons bit rest ih =>
      have one : bits 1 bit.toNat = [bit] := by cases bit <;> rfl
      rw [ofBits, List.length_cons, Nat.add_comm, ← bits_append _ _ _ (ofBits_lt rest), one, ih]
      rfl

/-! ## Groups -/

section Groups
variable {α β : Type} {width : ℕ}

/-- Groups of `width`; what is left over at the end is dropped. -/
def groups (width : ℕ) (items : List α) : List (List α) :=
  (List.range (items.length / width)).map fun i => (items.drop (width * i)).take width

@[simp] theorem length_groups (width : ℕ) (items : List α) :
    (groups width items).length = items.length / width := by
  rw [groups, List.length_map, List.length_range]

theorem groups_short {items : List α} (short : items.length < width) : groups width items = [] := by
  rw [groups, Nat.div_eq_of_lt short]
  rfl

theorem groups_append_group {group rest : List α} (positive : 0 < width)
    (whole : group.length = width) : groups width (group ++ rest) = group :: groups width rest := by
  have count : (group ++ rest).length / width = rest.length / width + 1 := by
    rw [List.length_append, whole, Nat.add_div_left _ positive]
  have first : ((group ++ rest).drop (width * 0)).take width = group := by
    rw [Nat.mul_zero, List.drop_zero, ← whole, List.take_left]
  have later : ∀ i, ((group ++ rest).drop (width * (i + 1))).take width =
      (rest.drop (width * i)).take width := by
    intro i
    have step : width * (i + 1) = group.length + width * i := by
      rw [whole, Nat.mul_succ, Nat.add_comm]
    rw [step, List.drop_append, List.drop_eq_nil_of_le (Nat.le_add_right _ _), List.nil_append,
      Nat.add_sub_cancel_left]
  rw [groups, count, List.range_succ_eq_map, List.map_cons, first, List.map_map]
  exact congrArg (group :: ·) (List.map_congr_left fun i _ => later i)

/-- Cutting at the width that was written with gives back what was written. -/
theorem groups_flatMap {write : β → List α} (positive : 0 < width)
    (fixed : ∀ item, (write item).length = width) {left : List α} (short : left.length < width)
    (items : List β) : groups width (items.flatMap write ++ left) = items.map write := by
  induction items with
  | nil => exact groups_short short
  | cons item rest ih =>
      rw [List.flatMap_cons, List.append_assoc, groups_append_group positive (fixed item), ih,
        List.map_cons]

theorem wholeGroups_induction (P : List α → Prop) (empty : P [])
    (further : ∀ group rest : List α, group.length = width → P rest → P (group ++ rest))
    (count : ℕ) : ∀ items : List α, items.length = width * count → P items := by
  induction count with
  | zero =>
      intro items none
      rw [Nat.mul_zero, List.length_eq_zero_iff] at none
      rw [none]
      exact empty
  | succ count ih =>
      intro items whole
      rw [Nat.mul_succ] at whole
      have first : (items.take width).length = width := by
        rw [List.length_take]
        omega
      have behind : (items.drop width).length = width * count := by
        rw [List.length_drop]
        omega
      rw [← List.take_append_drop width items]
      exact further _ _ first (ih _ behind)

theorem groups_append (positive : 0 < width) (count : ℕ) {front : List α} (rest : List α)
    (whole : front.length = width * count) :
    groups width (front ++ rest) = groups width front ++ groups width rest := by
  refine wholeGroups_induction (fun front => groups width (front ++ rest) =
    groups width front ++ groups width rest) ?_ ?_ count front whole
  · rw [List.nil_append, @groups_short α width [] positive, List.nil_append]
  · intro group behind full ih
    rw [List.append_assoc, groups_append_group positive full, ih,
      groups_append_group positive full, List.cons_append]

theorem flatten_groups (positive : 0 < width) (count : ℕ) (items : List α)
    (whole : items.length = width * count) : (groups width items).flatten = items := by
  refine wholeGroups_induction (fun items => (groups width items).flatten = items) ?_ ?_
    count items whole
  · rw [groups_short positive]
    rfl
  · intro group behind full ih
    rw [groups_append_group positive full, List.flatten_cons, ih]

theorem length_of_mem_groups {items group : List α} (member : group ∈ groups width items) :
    group.length = width := by
  obtain ⟨i, below, rfl⟩ := List.mem_map.mp member
  rw [List.mem_range] at below
  have room : width * (i + 1) ≤ items.length :=
    (Nat.mul_le_mul_left width below).trans (Nat.mul_div_le _ _)
  rw [Nat.mul_succ] at room
  rw [List.length_take, List.length_drop]
  omega

end Groups

end BitGroups
