import CryptoTrading.Lib.BitGroups
import Mathlib.Data.List.TakeWhile

/-! # Base 64 text

The standard encoding of bytes: their bits, filled up with zeros to groups of
six, each written as a character of the alphabet, and the characters filled up
to groups of four.  Decoding refuses text that is not the encoding of bytes, and
gives back the bytes that were encoded. -/
set_option autoImplicit false

namespace Base64Text

open BitGroups

/-! ## Alphabet -/

/-- Capital letters, small letters, digits, plus and slash. -/
def sextetChar (value : ℕ) : Char :=
  if value < 26 then Char.ofNat (0x41 + value)
  else if value < 52 then Char.ofNat (0x61 + (value - 26))
  else if value < 62 then Char.ofNat (0x30 + (value - 52))
  else if value = 62 then '+'
  else '/'

def charSextet (char : Char) : Option ℕ :=
  if 0x41 ≤ char.toNat ∧ char.toNat ≤ 0x5A then some (char.toNat - 0x41)
  else if 0x61 ≤ char.toNat ∧ char.toNat ≤ 0x7A then some (char.toNat - 0x61 + 26)
  else if 0x30 ≤ char.toNat ∧ char.toNat ≤ 0x39 then some (char.toNat - 0x30 + 52)
  else if char = '+' then some 62
  else if char = '/' then some 63
  else none

theorem charSextet_sextetChar : ∀ value < 64,
    charSextet (sextetChar value) = some value ∧ sextetChar value ≠ '=' := by
  decide +kernel

/-! ## Encoding and decoding -/

def byteBits (byte : UInt8) : List Bool := bits 8 byte.toNat

def bitsByte (group : List Bool) : UInt8 := UInt8.ofNat (ofBits group)

/-- Zeros up to a whole number of groups of six. -/
def fill (list : List Bool) : List Bool :=
  list ++ List.replicate ((6 - list.length % 6) % 6) false

def sextets (data : List UInt8) : List (List Bool) := groups 6 (fill (data.flatMap byteBits))

def characters (data : List UInt8) : List Char :=
  (sextets data).map fun group => sextetChar (ofBits group)

def padding (count : ℕ) : List Char := List.replicate ((4 - count % 4) % 4) '='

def encode (data : List UInt8) : List Char :=
  characters data ++ padding (characters data).length

/-- The bytes that a text stands for, if it is one of whole groups with at most
two characters that fill up and only zeros behind the last byte. -/
def decode (text : List Char) : Option (List UInt8) :=
  let chars := text.takeWhile (· ≠ '=')
  if text.dropWhile (· ≠ '=') = padding chars.length ∧ chars.length % 4 ≠ 1 then do
    let values ← chars.mapM charSextet
    let list := values.flatMap (bits 6)
    if (list.drop (8 * (list.length / 8))).all (· = false) then
      some ((groups 8 list).map bitsByte)
    else none
  else none

example : encode [0x4D, 0x61, 0x6E, 0x4D] = "TWFuTQ==".toList := by decide +kernel

example : decode "TWFuTR==".toList = none := by decide +kernel

/-! ## Round trip -/

section RoundTrip
variable (data : List UInt8)

@[simp] theorem length_byteBits (byte : UInt8) : (byteBits byte).length = 8 := length_bits 8 _

theorem bitsByte_byteBits (byte : UInt8) : bitsByte (byteBits byte) = byte := by
  rw [bitsByte, byteBits, ofBits_bits, Nat.mod_eq_of_lt byte.toNat_lt, UInt8.ofNat_toNat]

theorem length_dataBits : (data.flatMap byteBits).length = 8 * data.length := by
  induction data with
  | nil => rfl
  | cons byte rest ih =>
      rw [List.flatMap_cons, List.length_append, length_byteBits, ih, List.length_cons]
      omega

theorem length_fill (list : List Bool) : (fill list).length = 6 * ((list.length + 5) / 6) := by
  rw [fill, List.length_append, List.length_replicate]
  omega

theorem length_characters : (characters data).length = (8 * data.length + 5) / 6 := by
  rw [characters, List.length_map, sextets, length_groups, length_fill, length_dataBits,
    Nat.mul_div_cancel_left _ (by decide)]

theorem length_encode : (encode data).length = 4 * ((data.length + 2) / 3) := by
  rw [encode, List.length_append, padding, List.length_replicate, length_characters]
  omega

theorem length_of_mem_sextets {group : List Bool} (member : group ∈ sextets data) :
    group.length = 6 := length_of_mem_groups member

theorem charSextet_group {group : List Bool} (six : group.length = 6) :
    charSextet (sextetChar (ofBits group)) = some (ofBits group) ∧
      sextetChar (ofBits group) ≠ '=' := by
  have small := ofBits_lt group
  rw [six] at small
  exact charSextet_sextetChar _ small

theorem characters_unpadded : ∀ char ∈ characters data, decide (char ≠ '=') = true := by
  intro char member
  obtain ⟨group, listed, rfl⟩ := List.mem_map.mp member
  exact decide_eq_true (charSextet_group (length_of_mem_sextets data listed)).2

theorem mapM_characters :
    (characters data).mapM charSextet = some ((sextets data).map ofBits) := by
  have six : ∀ group ∈ sextets data, group.length = 6 := fun group member =>
    length_of_mem_sextets data member
  rw [characters]
  generalize sextets data = list at six
  induction list with
  | nil => rfl
  | cons group rest ih =>
      rw [List.map_cons, List.mapM_cons, (charSextet_group (six group List.mem_cons_self)).1,
        ih fun other member => six other (List.mem_cons_of_mem _ member)]
      rfl

theorem flatMap_sextets :
    ((sextets data).map ofBits).flatMap (bits 6) = fill (data.flatMap byteBits) := by
  have same : (sextets data).map (bits 6 ∘ ofBits) = sextets data := by
    rw [List.map_congr_left fun group member => ?_, List.map_id]
    have written := bits_ofBits group
    rwa [length_of_mem_sextets data member] at written
  rw [List.flatMap_def, List.map_map, same]
  exact flatten_groups (by decide) _ _ (length_fill _)

theorem decode_encode : decode (encode data) = some data := by
  have unpadded := characters_unpadded data
  have front : (encode data).takeWhile (· ≠ '=') = characters data := by
    rw [encode, List.takeWhile_append_of_pos unpadded, padding, List.takeWhile_replicate]
    simp
  have behind : (encode data).dropWhile (· ≠ '=') = padding (characters data).length := by
    rw [encode, List.dropWhile_append_of_pos unpadded, padding, List.dropWhile_replicate]
    simp
  have whole : (characters data).length % 4 ≠ 1 := by
    rw [length_characters]
    omega
  have short : (6 - (data.flatMap byteBits).length % 6) % 6 < 8 := by omega
  rw [decode, front, behind]
  dsimp only
  rw [if_pos ⟨rfl, whole⟩, mapM_characters]
  simp only [Option.bind_eq_bind, Option.bind_some]
  rw [flatMap_sextets, fill]
  generalize (6 - (data.flatMap byteBits).length % 6) % 6 = count at short
  have left : (List.replicate count false).length < 8 := by rwa [List.length_replicate]
  have bytes : ((data.flatMap byteBits ++ List.replicate count false).length / 8) =
      data.length := by
    rw [List.length_append, length_dataBits, List.length_replicate]
    omega
  have zeros : (data.flatMap byteBits ++ List.replicate count false).drop (8 * data.length) =
      List.replicate count false := by
    rw [← length_dataBits, List.drop_left]
  rw [bytes, zeros, if_pos (by simp), groups_flatMap (by decide) length_byteBits left,
    List.map_map]
  have back : bitsByte ∘ byteBits = id := funext bitsByte_byteBits
  rw [back, List.map_id]

theorem encode_injective : Function.Injective encode := by
  intro first second same
  have decoded := congrArg decode same
  rw [decode_encode, decode_encode] at decoded
  exact Option.some.inj decoded

end RoundTrip

/-! ## Blocks -/

section Blocks
variable {front : List UInt8}

theorem sextets_append (aligned : front.length % 3 = 0) (rest : List UInt8) :
    sextets (front ++ rest) = sextets front ++ sextets rest := by
  have sixes : (front.flatMap byteBits).length = 6 * (8 * front.length / 6) := by
    rw [length_dataBits]
    omega
  have ofFront : fill (front.flatMap byteBits) = front.flatMap byteBits := by
    rw [fill, sixes, Nat.mul_mod_right, Nat.sub_zero, Nat.mod_self, List.replicate_zero,
      List.append_nil]
  have ofBoth : fill (front.flatMap byteBits ++ rest.flatMap byteBits) =
      front.flatMap byteBits ++ fill (rest.flatMap byteBits) := by
    rw [fill, fill, List.length_append, sixes, Nat.mul_add_mod, List.append_assoc]
  rw [sextets, sextets, sextets, List.flatMap_append, ofBoth, ofFront,
    groups_append (by decide) _ _ sixes]

theorem encode_append (aligned : front.length % 3 = 0) (rest : List UInt8) :
    encode (front ++ rest) = encode front ++ encode rest := by
  have chars : characters (front ++ rest) = characters front ++ characters rest := by
    rw [characters, sextets_append aligned, List.map_append]
    rfl
  have fours : (characters front).length = 4 * (front.length / 3) := by
    rw [length_characters]
    omega
  have none : padding (characters front).length = [] := by
    rw [padding, fours, Nat.mul_mod_right, Nat.sub_zero, Nat.mod_self, List.replicate_zero]
  have same : padding (characters (front ++ rest)).length = padding (characters rest).length := by
    rw [padding, padding, chars, List.length_append, fours, Nat.mul_add_mod]
  rw [encode, same, chars, encode, none, List.append_nil, encode, List.append_assoc]

theorem encode_of_bits {data : List UInt8} {value count : ℕ}
    (number : fill (data.flatMap byteBits) = bits (6 * count) value) :
    encode data = ((List.range count).reverse.map fun i =>
      sextetChar (value / 2 ^ (6 * i) % 2 ^ 6)) ++ padding count := by
  have chars : characters data = (List.range count).reverse.map fun i =>
      sextetChar (value / 2 ^ (6 * i) % 2 ^ 6) := by
    rw [characters, sextets, number]
    clear number
    induction count with
    | zero =>
        rw [Nat.mul_zero, bits, groups_short (by decide)]
        rfl
    | succ count ih =>
        rw [Nat.mul_succ, Nat.add_comm, bits_add, groups_append_group (by decide) (length_bits 6 _),
          List.map_cons, ih, ofBits_bits, List.range_succ, List.reverse_append]
        rfl
  rw [encode, chars, List.length_map, List.length_reverse, List.length_range]

theorem encode_one (first : UInt8) : encode [first] =
    [sextetChar (first.toNat * 2 ^ 4 / 2 ^ 6 % 2 ^ 6), sextetChar (first.toNat * 2 ^ 4 % 2 ^ 6),
      '=', '='] := by
  have number : fill ([first].flatMap byteBits) = bits (6 * 2) (first.toNat * 2 ^ 4) := by
    rw [fill, length_dataBits, bits_shift 8 4]
    simp [byteBits]
  rw [encode_of_bits number]
  simp [List.range_succ, padding]

theorem encode_two (first second : UInt8) : encode [first, second] =
    [sextetChar ((first.toNat * 2 ^ 8 + second.toNat) * 2 ^ 2 / 2 ^ 12 % 2 ^ 6),
      sextetChar ((first.toNat * 2 ^ 8 + second.toNat) * 2 ^ 2 / 2 ^ 6 % 2 ^ 6),
      sextetChar ((first.toNat * 2 ^ 8 + second.toNat) * 2 ^ 2 % 2 ^ 6), '='] := by
  have number : fill ([first, second].flatMap byteBits) =
      bits (6 * 3) ((first.toNat * 2 ^ 8 + second.toNat) * 2 ^ 2) := by
    rw [fill, length_dataBits, bits_shift 16 2, ← bits_append 8 8 _ second.toNat_lt]
    simp [byteBits]
  rw [encode_of_bits number]
  simp [List.range_succ, padding]

theorem encode_three (first second third : UInt8) : encode [first, second, third] =
    [sextetChar ((first.toNat * 2 ^ 16 + (second.toNat * 2 ^ 8 + third.toNat)) / 2 ^ 18 % 2 ^ 6),
      sextetChar ((first.toNat * 2 ^ 16 + (second.toNat * 2 ^ 8 + third.toNat)) / 2 ^ 12 % 2 ^ 6),
      sextetChar ((first.toNat * 2 ^ 16 + (second.toNat * 2 ^ 8 + third.toNat)) / 2 ^ 6 % 2 ^ 6),
      sextetChar ((first.toNat * 2 ^ 16 + (second.toNat * 2 ^ 8 + third.toNat)) % 2 ^ 6)] := by
  have secondLt := second.toNat_lt
  have thirdLt := third.toNat_lt
  have number : fill ([first, second, third].flatMap byteBits) =
      bits (6 * 4) (first.toNat * 2 ^ 16 + (second.toNat * 2 ^ 8 + third.toNat)) := by
    rw [fill, length_dataBits, ← bits_append 8 16 _ (by omega), ← bits_append 8 8 _ thirdLt]
    simp [byteBits]
  rw [encode_of_bits number]
  simp [List.range_succ, padding]

end Blocks

end Base64Text
