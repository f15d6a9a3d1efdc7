import CryptoTrading.Lib.TextSearch
import Mathlib.Algebra.Group.Nat.Defs

/-! # Responses of HTTPS requests

What `HttpsRequest` makes of the bytes of a response: where the header block
ends, whether the body is decoded as chunks, and the loop over the chunks.
Positions and sizes are numbers below 2^64 whose sums wrap around. -/
set_option autoImplicit false

namespace CryptoTrading

namespace Https

open TextSearch

def ascii (text : String) : List UInt8 := text.toList.map fun char => UInt8.ofNat char.toNat

def crlf : List UInt8 := [0x0D, 0x0A]

/-- The bytes a `std::string` can hold. -/
def StdString : Type := { bytes : List UInt8 // bytes.length < 2 ^ 63 }

/-- Sums of `size_t`. -/
def wrap (value : ℕ) : ℕ := value % 2 ^ 64

/-! ## Header block -/

/-- Whether `line.find(part)` finds something. -/
def Has (line : List UInt8) (part : String) : Prop := ascii part <:+: line

instance (line : List UInt8) (part : String) : Decidable (Has line part) :=
  inferInstanceAs (Decidable (_ <:+: _))

/-- The two words that the scan looks for in a line. -/
def NamesChunked (line : List UInt8) : Prop := Has line "Transfer-Encoding" ∧ Has line "chunked"

instance (line : List UInt8) : Decidable (NamesChunked line) :=
  inferInstanceAs (Decidable (_ ∧ _))

/-- The loop over the lines behind a line end; every turn moves on by two bytes
at least. -/
def scanLines (headers : List UInt8) : ℕ → ℕ → Bool
  | 0, _ => false
  | fuel + 1, pos =>
      match findFrom crlf headers pos with
      | none => false
      | some pos =>
          let lineStart := pos + 2
          let lineEnd := (findFrom crlf headers lineStart).getD headers.length
          if NamesChunked ((headers.drop lineStart).take (lineEnd - lineStart)) then true
          else scanLines headers fuel (pos + 2)

def isChunked (headers : List UInt8) : Bool := scanLines headers (headers.length + 1) 0

/-! ## Numbers -/

def isSpace (byte : UInt8) : Bool := byte = 0x20 ∨ 0x09 ≤ byte ∧ byte ≤ 0x0D

def hexDigit (byte : UInt8) : Option ℕ :=
  if 0x30 ≤ byte ∧ byte ≤ 0x39 then some (byte.toNat - 0x30)
  else if 0x41 ≤ byte ∧ byte ≤ 0x46 then some (byte.toNat - 0x41 + 10)
  else if 0x61 ≤ byte ∧ byte ≤ 0x66 then some (byte.toNat - 0x61 + 10)
  else none

/-- The number of the hexadecimal digits at the front. -/
def hexValue : ℕ → List UInt8 → ℕ
  | value, [] => value
  | value, byte :: rest =>
      match hexDigit byte with
      | none => value
      | some digit => hexValue (value * 16 + digit) rest

/-- Without the prefix 0x, if a digit follows it. -/
def skipPrefix (text : List UInt8) : List UInt8 :=
  match text with
  | zero :: mark :: digit :: rest =>
      if zero = 0x30 ∧ (mark = 0x78 ∨ mark = 0x58) ∧ (hexDigit digit).isSome then digit :: rest
      else text
  | _ => text

/-- `std::strtoul(text, nullptr, 16)`: a number out of range is the largest one,
and a minus sign is taken modulo 2^64. -/
def strtoul (text : List UInt8) : ℕ :=
  let text := text.dropWhile isSpace
  let negative := text.head? = some 0x2D
  let unsigned := if negative ∨ text.head? = some 0x2B then text.tail else text
  let magnitude := hexValue 0 (skipPrefix unsigned)
  if magnitude ≥ 2 ^ 64 then 2 ^ 64 - 1
  else if negative then wrap (2 ^ 64 - magnitude)
  else magnitude

example : strtoul (ascii "-6\r\n") = 2 ^ 64 - 6 := by decide +kernel

/-! ## Chunks -/

structure ChunkState where
  pos : ℕ := 0
  decoded : List UInt8 := []
  deriving DecidableEq, Repr

/-- A turn of the loop, or `none` when the loop is left. -/
def chunkStep (body : List UInt8) (state : ChunkState) : Option ChunkState :=
  if state.pos < body.length then
    match findFrom crlf body state.pos with
    | none => none
    | some crlfPos =>
        let chunkSize := strtoul (body.drop state.pos)
        let pos := crlfPos + 2
        if chunkSize = 0 then none
        else if wrap (pos + chunkSize) > body.length then none
        else some
          { pos := wrap (pos + wrap (chunkSize + 2))
            decoded := state.decoded ++ (body.drop pos).take chunkSize }
  else none

/-- The loop, as far as the turns it is given suffice. -/
def chunkLoop (body : List UInt8) : ℕ → ChunkState → Option (List UInt8)
  | 0, _ => none
  | turns + 1, state =>
      match chunkStep body state with
      | none => some state.decoded
      | some next => chunkLoop body turns next

/-- What `HttpsRequest` returns for the bytes it has read. -/
def responseBody (response : List UInt8) (turns : ℕ) : Option (List UInt8) :=
  match find (crlf ++ crlf) response with
  | none => some []
  | some headerEnd =>
      if isChunked (response.take headerEnd) then
        chunkLoop (response.drop (headerEnd + 4)) turns {}
      else some (response.drop (headerEnd + 4))

example : responseBody (ascii ("HTTP/1.1 200 OK\r\nTransfer-Encoding: chunked\r\n\r\n" ++
    "\x33\r\nabc\r\n\x30\r\n\r\n")) 5 = some (ascii "abc") := by decide +kernel

end Https

end CryptoTrading
