import CryptoTrading.Lib.Base64Text

/-! # Base64

`Base64Encode` of `websocket.hpp`, by which signatures and handshake keys become
text.  Its turns write the standard encoding, three bytes at a time. -/
set_option autoImplicit false

namespace CryptoTrading

namespace WsClient

def base64Table : List Char :=
  "ABCDEFGHIJKLMNOPQRSTUVWXYZabcdefghijklmnopqrstuvwxyz0123456789+/".toList

def base64Char (bits : ℕ) : Char := base64Table.getD (bits &&& 0x3F) '='

/-- A turn of the loop: four characters for up to three bytes. -/
def base64Turn (first : UInt8) (second third : Option UInt8) : List Char :=
  let block := first.toNat <<< 16 ||| (second.elim 0 UInt8.toNat) <<< 8 |||
    third.elim 0 UInt8.toNat
  [base64Char (block >>> 18), base64Char (block >>> 12),
    if second.isSome then base64Char (block >>> 6) else '=',
    if third.isSome then base64Char block else '=']

def base64Encode : List UInt8 → List Char
  | [] => []
  | [first] => base64Turn first none none
  | [first, second] => base64Turn first (some second) none
  | first :: second :: third :: rest =>
      base64Turn first (some second) (some third) ++ base64Encode rest

example : base64Encode [0x4D, 0x61, 0x6E, 0x4D] = "TWFuTQ==".toList := by decide +kernel

theorem base64Char_mem (bits : ℕ) : base64Char bits ∈ '=' :: base64Table := by
  rw [base64Char, List.getD_eq_getElem?_getD]
  cases found : base64Table[bits &&& 0x3F]? with
  | none => exact List.mem_cons_self
  | some char => exact List.mem_cons_of_mem _ (List.mem_of_getElem? found)

theorem base64Turn_mem {first : UInt8} {second third : Option UInt8} {char : Char}
    (member : char ∈ base64Turn first second third) : char ∈ '=' :: base64Table := by
  simp only [base64Turn, List.mem_cons, List.not_mem_nil, or_false] at member
  rcases member with rfl | rfl | rfl | rfl
  · exact base64Char_mem _
  · exact base64Char_mem _
  · split
    · exact base64Char_mem _
    · exact List.mem_cons_self
  · split
    · exact base64Char_mem _
    · exact List.mem_cons_self

theorem base64Encode_mem {data : List UInt8} {char : Char}
    (member : char ∈ base64Encode data) : char ∈ '=' :: base64Table := by
  induction data using base64Encode.induct with
  | case1 => cases member
  | case2 first => exact base64Turn_mem member
  | case3 first second => exact base64Turn_mem member
  | case4 first second third rest ih =>
      rw [base64Encode, List.mem_append] at member
      rcases member with here | later
      · exact base64Turn_mem here
      · exact ih later

/-! ## The standard encoding -/

section Standard
open BitGroups Base64Text

theorem base64Char_eq (value : ℕ) : base64Char value = sextetChar (value % 2 ^ 6) := by
  have table : ∀ value < 64, base64Table.getD value '=' = sextetChar value := by decide +kernel
  rw [base64Char, show (0x3F : ℕ) = 2 ^ 6 - 1 from rfl, Nat.and_two_pow_sub_one_eq_mod]
  exact table _ (Nat.mod_lt _ (by decide))

theorem block_eq (first : ℕ) {second third : ℕ} (second_lt : second < 2 ^ 8)
    (third_lt : third < 2 ^ 8) : first <<< 16 ||| second <<< 8 ||| third =
      first * 2 ^ 16 + (second * 2 ^ 8 + third) := by
  have low : second <<< 8 ||| third = second * 2 ^ 8 + third := by
    rw [Nat.shiftLeft_eq, Nat.mul_comm, Nat.two_pow_add_eq_or_of_lt third_lt]
  have small : second * 2 ^ 8 + third < 2 ^ 16 := by omega
  rw [Nat.or_assoc, low, Nat.shiftLeft_eq, Nat.mul_comm first,
    Nat.two_pow_add_eq_or_of_lt small]

theorem base64Turn_eq (first second third : UInt8) :
    base64Turn first none none = encode [first] ∧
      base64Turn first (some second) none = encode [first, second] ∧
        base64Turn first (some second) (some third) = encode [first, second, third] := by
  refine ⟨?_, ?_, ?_⟩
  · have block := @block_eq first.toNat 0 0 (by decide) (by decide)
    have high : (first.toNat * 2 ^ 16 + (0 * 2 ^ 8 + 0)) / 2 ^ 18 =
        first.toNat * 2 ^ 4 / 2 ^ 6 := by omega
    have low : (first.toNat * 2 ^ 16 + (0 * 2 ^ 8 + 0)) / 2 ^ 12 = first.toNat * 2 ^ 4 := by omega
    rw [encode_one, base64Turn]
    simp only [Option.elim_none, block, base64Char_eq, Nat.shiftRight_eq_div_pow, high, low,
      Option.isSome_none, Bool.false_eq_true, if_false]
  · have block := @block_eq first.toNat second.toNat 0 second.toNat_lt (by decide)
    have high : (first.toNat * 2 ^ 16 + (second.toNat * 2 ^ 8 + 0)) / 2 ^ 18 =
        (first.toNat * 2 ^ 8 + second.toNat) * 2 ^ 2 / 2 ^ 12 := by omega
    have middle : (first.toNat * 2 ^ 16 + (second.toNat * 2 ^ 8 + 0)) / 2 ^ 12 =
        (first.toNat * 2 ^ 8 + second.toNat) * 2 ^ 2 / 2 ^ 6 := by omega
    have low : (first.toNat * 2 ^ 16 + (second.toNat * 2 ^ 8 + 0)) / 2 ^ 6 =
        (first.toNat * 2 ^ 8 + second.toNat) * 2 ^ 2 := by omega
    rw [encode_two, base64Turn]
    simp only [Option.elim_some, Option.elim_none, block, base64Char_eq, Nat.shiftRight_eq_div_pow,
      high, middle, low, Option.isSome_some, Option.isSome_none, Bool.false_eq_true, if_true,
      if_false]
  · have block := block_eq first.toNat second.toNat_lt third.toNat_lt
    rw [encode_three, base64Turn]
    simp only [Option.elim_some, block, base64Char_eq, Nat.shiftRight_eq_div_pow,
      Option.isSome_some, if_true]

theorem base64Encode_eq (data : List UInt8) : base64Encode data = encode data := by
  induction data using base64Encode.induct with
  | case1 => rfl
  | case2 first => exact (base64Turn_eq first 0 0).1
  | case3 first second => exact (base64Turn_eq first second 0).2.1
  | case4 first second third rest ih =>
      have split := @encode_append [first, second, third] (by simp) rest
      rw [base64Encode, (base64Turn_eq first second third).2.2, ih, ← split]
      rfl

/-- `Base64Encode` writes the standard encoding, four characters for three bytes,
and the standard decoding gives the bytes back. -/
theorem base64Encode_decodable (data : List UInt8) :
    base64Encode data = encode data ∧
      (base64Encode data).length = 4 * ((data.length + 2) / 3) ∧
      decode (base64Encode data) = some data ∧ Function.Injective base64Encode := by
  have same : base64Encode = encode := funext base64Encode_eq
  rw [same]
  exact ⟨rfl, length_encode data, decode_encode data, encode_injective⟩

end Standard

end WsClient

end CryptoTrading
