import CryptoTrading.Common.WebSocket
import CryptoTrading.Lib.SelfDelimiting

/-! # Writing WebSocket frames

The bytes that `SendFrame` writes, and any frame as it stands on the wire: `FIN`
set or not, masked or not.  `ReadFrame` takes a frame of either kind exactly off
the front of what it is given. -/
set_option autoImplicit false

namespace CryptoTrading

namespace WsClient

open SelfDelimiting

/-! ## What is written -/

/-- `(len >> (shift * 8)) & 0xFF` for each shift below `width`, the highest first. -/
def lengthBytes : ℕ → ℕ → List UInt8
  | 0, _ => []
  | shift + 1, len => UInt8.ofNat (len >>> (shift * 8)) :: lengthBytes shift len

/-- The header of `SendFrame`, up to and with the mask key. -/
def sendHeader (opcode : UInt8) (maskKey : Vector UInt8 4) (len : ℕ) : List UInt8 :=
  (0x80 ||| opcode) ::
    (if len < 126 then [0x80 ||| UInt8.ofNat len]
      else if len ≤ 0xFFFF then (0x80 ||| 126) :: lengthBytes 2 len
      else (0x80 ||| 127) :: lengthBytes 8 len) ++ maskKey.toList

def sendBody (maskKey : Vector UInt8 4) (payload : List UInt8) : List UInt8 :=
  payload.mapIdx fun idx byte => byte ^^^ maskKey.toList.getD (idx % 4) 0

/-- The bytes of `SendFrame`, when all of them are accepted. -/
def sendFrame (opcode : UInt8) (maskKey : Vector UInt8 4) (payload : List UInt8) : List UInt8 :=
  sendHeader opcode maskKey payload.length ++ sendBody maskKey payload

def flagBit (set : Bool) : UInt8 := if set then 0x80 else 0

structure WireFrame where
  fin : Bool := true
  opcode : UInt8
  mask : Option (Vector UInt8 4) := none
  payload : List UInt8
  deriving DecidableEq, Repr

/-- The seven bits of the length, and the bytes that extend them. -/
def shortLength (len : ℕ) : UInt8 :=
  if len < 126 then UInt8.ofNat len else if len ≤ 0xFFFF then 126 else 127

def extendedLength (len : ℕ) : List UInt8 :=
  if len < 126 then [] else if len ≤ 0xFFFF then lengthBytes 2 len else lengthBytes 8 len

namespace WireFrame

def maskBytes (frame : WireFrame) : List UInt8 :=
  match frame.mask with
  | none => []
  | some maskKey => maskKey.toList

def body (frame : WireFrame) : List UInt8 :=
  match frame.mask with
  | none => frame.payload
  | some maskKey => sendBody maskKey frame.payload

def bytes (frame : WireFrame) : List UInt8 :=
  (flagBit frame.fin ||| frame.opcode) ::
    (flagBit frame.mask.isSome ||| shortLength frame.payload.length) ::
    (extendedLength frame.payload.length ++ (frame.maskBytes ++ frame.body))

end WireFrame

theorem sendFrame_eq_bytes (opcode : UInt8) (maskKey : Vector UInt8 4) (payload : List UInt8) :
    sendFrame opcode maskKey payload =
      WireFrame.bytes { opcode := opcode, mask := some maskKey, payload := payload } := by
  rw [sendFrame, sendHeader, WireFrame.bytes, shortLength, extendedLength]
  split
  · simp [WireFrame.maskBytes, WireFrame.body, flagBit]
  · split <;> simp [WireFrame.maskBytes, WireFrame.body, flagBit]

/-! ## Bits -/

section Bits

theorem lowBits_or (set : Bool) {low : UInt8} (below : low < 128) :
    (flagBit set ||| low) &&& 0x7F = low ∧ decide ((flagBit set ||| low) &&& 0x80 ≠ 0) = set := by
  have bits : ∀ bits : BitVec 8, bits < 128#8 →
      ((0x80#8 ||| bits) &&& 0x7F#8 = bits ∧ (0x80#8 ||| bits) &&& 0x80#8 ≠ 0#8) ∧
        (0#8 ||| bits) &&& 0x7F#8 = bits ∧ (0#8 ||| bits) &&& 0x80#8 = 0#8 := by
    decide +kernel
  obtain ⟨⟨lowOfSet, nonzero⟩, lowOfClear, zero⟩ := bits low.toBitVec below
  cases set with
  | true =>
      refine ⟨UInt8.eq_of_toBitVec_eq lowOfSet, decide_eq_true fun same => nonzero ?_⟩
      exact congrArg UInt8.toBitVec same
  | false =>
      refine ⟨UInt8.eq_of_toBitVec_eq lowOfClear, decide_eq_false (not_not.mpr ?_)⟩
      exact UInt8.eq_of_toBitVec_eq zero

theorem opcodeBits_or (set : Bool) {opcode : UInt8} (below : opcode < 16) :
    (flagBit set ||| opcode) &&& 0x0F = opcode := by
  have bits : ∀ bits : BitVec 8, bits < 16#8 →
      (0x80#8 ||| bits) &&& 0x0F#8 = bits ∧ (0#8 ||| bits) &&& 0x0F#8 = bits := by
    decide +kernel
  obtain ⟨ofSet, ofClear⟩ := bits opcode.toBitVec below
  cases set with
  | true => exact UInt8.eq_of_toBitVec_eq ofSet
  | false => exact UInt8.eq_of_toBitVec_eq ofClear

theorem shortLength_lt (len : ℕ) : shortLength len < 128 := by
  rw [shortLength]
  split
  · next small =>
      rw [UInt8.lt_iff_toNat_lt, UInt8.toNat_ofNat']
      show len % 2 ^ 8 < 128
      omega
  · split <;> decide

theorem unmask_sendBody (maskKey : Vector UInt8 4) (payload : List UInt8) :
    unmask maskKey.toList (sendBody maskKey payload) = payload := by
  rw [unmask, sendBody, List.mapIdx_mapIdx, List.mapIdx_eq_iff]
  intro idx
  cases payload[idx]? with
  | none => rfl
  | some byte =>
      rw [Option.map_some, Function.comp_apply, UInt8.xor_assoc, UInt8.xor_self, UInt8.xor_zero]

theorem length_sendBody (maskKey : Vector UInt8 4) (payload : List UInt8) :
    (sendBody maskKey payload).length = payload.length :=
  List.length_mapIdx

end Bits

/-! ## Lengths -/

section Lengths

theorem length_lengthBytes (width len : ℕ) : (lengthBytes width len).length = width := by
  induction width with
  | zero => rfl
  | succ shift ih => rw [lengthBytes, List.length_cons, ih]

/-- The bytes are the digits of the length to the base 256. -/
theorem bigEndian_lengthBytes (width len : ℕ) :
    bigEndian (lengthBytes width len) = len % 256 ^ width := by
  have onward : ∀ value, (lengthBytes width len).foldl
      (fun value byte => value * 256 + byte.toNat) value =
        value * 256 ^ width + len % 256 ^ width := by
    induction width with
    | zero =>
        intro value
        simp [lengthBytes, Nat.mod_one]
    | succ shift ih =>
        intro value
        have digit : (UInt8.ofNat (len >>> (shift * 8))).toNat = len / 256 ^ shift % 256 := by
          rw [UInt8.toNat_ofNat', Nat.shiftRight_eq_div_pow, Nat.mul_comm, Nat.pow_mul]
        rw [lengthBytes, List.foldl_cons, ih, digit, Nat.mod_pow_succ, Nat.add_mul, Nat.pow_succ,
          Nat.mul_comm (256 ^ shift) 256, Nat.mul_assoc, Nat.add_assoc,
          Nat.add_comm (len % 256 ^ shift), Nat.mul_comm (256 ^ shift) (len / 256 ^ shift % 256)]
  rw [bigEndian, onward 0, Nat.zero_mul, Nat.zero_add]

theorem rawRecv_append {taken rest : List UInt8} {len : ℕ} (exact : taken.length = len)
    (small : len < 2 ^ 31) : rawRecv len (taken ++ rest) = .ok (taken, rest) := by
  subst exact
  rw [rawRecv, if_pos ⟨small, by simp⟩, List.take_left, List.drop_left]

theorem readLength_extendedLength {len : ℕ} (small : len < 2 ^ 31) (rest : List UInt8) :
    readLength (shortLength len) (extendedLength len ++ rest) = .ok (len, rest) := by
  have extended : ∀ width, width < 2 ^ 31 → len < 256 ^ width →
      ((rawRecv width (lengthBytes width len ++ rest)).bind fun received =>
        .ok (bigEndian received.1, received.2)) = .ok (len, rest) := by
    intro width narrow fits
    rw [rawRecv_append (length_lengthBytes width len) narrow]
    simp only [Except.bind, bigEndian_lengthBytes, Nat.mod_eq_of_lt fits]
  rw [readLength, shortLength, extendedLength]
  by_cases tiny : len < 126
  · have value : (UInt8.ofNat len).toNat = len := by
      rw [UInt8.toNat_ofNat']
      exact Nat.mod_eq_of_lt (by omega)
    have notMark : ∀ mark : UInt8, 126 ≤ mark.toNat → UInt8.ofNat len ≠ mark := by
      rintro mark above rfl
      omega
    rw [if_pos tiny, if_pos tiny, if_neg (notMark 126 (by simp)), if_neg (notMark 127 (by simp)),
      value, List.nil_append]
  · rw [if_neg tiny, if_neg tiny]
    by_cases short : len ≤ 0xFFFF
    · rw [if_pos short, if_pos short, if_pos rfl]
      exact extended 2 (by decide) (by omega)
    · rw [if_neg short, if_neg short, if_neg (by decide), if_pos rfl]
      exact extended 8 (by decide) (by omega)

end Lengths

/-! ## A frame that is read back -/

section RoundTrip
variable {resizable : ℕ → Bool}

theorem readMaskKey_append (maskKey : Vector UInt8 4) (rest : List UInt8) :
    readMaskKey true (maskKey.toList ++ rest) = .ok (maskKey.toList, rest) := by
  rw [readMaskKey, if_pos rfl]
  exact rawRecv_append Vector.length_toList (by decide)

theorem readHeader_bytes (frame : WireFrame) (known : frame.opcode < 16)
    (small : frame.payload.length < 2 ^ 31) (rest : List UInt8) :
    ∃ header, readHeader (frame.bytes ++ rest) = .ok (header, frame.body ++ rest) ∧
      header.opcode = frame.opcode ∧ header.masked = frame.mask.isSome ∧
      header.payloadLen = frame.payload.length ∧
      (frame.mask.isSome = true → header.maskKey = frame.maskBytes) := by
  obtain ⟨low, flagged⟩ := lowBits_or frame.mask.isSome (shortLength_lt frame.payload.length)
  have head : rawRecv 2 (frame.bytes ++ rest) = .ok
      ([flagBit frame.fin ||| frame.opcode,
        flagBit frame.mask.isSome ||| shortLength frame.payload.length],
        extendedLength frame.payload.length ++ (frame.maskBytes ++ (frame.body ++ rest))) := by
    rw [WireFrame.bytes, List.cons_append, List.cons_append, List.append_assoc, List.append_assoc]
    exact @rawRecv_append [_, _] _ 2 rfl (by decide)
  have keyed : readMaskKey frame.mask.isSome (frame.maskBytes ++ (frame.body ++ rest)) =
      .ok (if frame.mask.isSome then frame.maskBytes else [0, 0, 0, 0], frame.body ++ rest) := by
    rw [WireFrame.maskBytes]
    cases frame.mask with
    | none => rfl
    | some maskKey => exact readMaskKey_append maskKey _
  refine ⟨⟨frame.opcode, frame.mask.isSome, frame.payload.length,
    if frame.mask.isSome then frame.maskBytes else [0, 0, 0, 0]⟩, ?_, rfl, rfl, rfl,
    fun isMasked => if_pos isMasked⟩
  rw [readHeader, head]
  simp only [bind, Except.bind, List.getD_cons_zero, List.getD_cons_succ, low,
    readLength_extendedLength small, opcodeBits_or frame.fin known, flagged, keyed]

theorem readFrame_bytes (frame : WireFrame) (known : frame.opcode < 16)
    (small : frame.payload.length < 2 ^ 31)
    (room : resizable frame.payload.length = true) (rest : List UInt8) :
    readFrame resizable (frame.bytes ++ rest) = .ok (⟨frame.opcode, frame.payload⟩, rest) := by
  obtain ⟨header, read, opcode, masked, len, key⟩ := readHeader_bytes frame known small rest
  have bodyLength : frame.body.length = frame.payload.length := by
    rw [WireFrame.body]
    split
    · rfl
    · exact length_sendBody ..
  rw [readFrame, read]
  simp only [bind, Except.bind, len, room, if_true, rawRecv_append bodyLength small, masked, opcode]
  cases mask : frame.mask with
  | none => simp [WireFrame.body, mask]
  | some maskKey =>
      rw [mask] at key
      rw [key rfl]
      simp [WireFrame.body, WireFrame.maskBytes, mask, unmask_sendBody]

structure SentFrame where
  opcode : UInt8
  maskKey : Vector UInt8 4
  payload : List UInt8
  known : opcode < 16
  small : payload.length < 2 ^ 31

def SentFrame.bytes (sent : SentFrame) : List UInt8 :=
  sendFrame sent.opcode sent.maskKey sent.payload

def SentFrame.frame (sent : SentFrame) : Frame := ⟨sent.opcode, sent.payload⟩

theorem delimits_sentFrame (room : ∀ len < 2 ^ 31, resizable len = true) (sent : SentFrame) :
    Delimits SentFrame.bytes (readFrame resizable) SentFrame.frame sent := by
  intro rest
  rw [SentFrame.bytes, sendFrame_eq_bytes]
  exact readFrame_bytes _ sent.known sent.small (room _ sent.small) rest

/-- `ReadFrame` undoes `SendFrame`, whatever follows, and any concatenation of
frames is read back frame by frame. -/
theorem readFrame_sendFrame (room : ∀ len < 2 ^ 31, resizable len = true) :
    (∀ (sent : SentFrame) (rest : List UInt8),
      readFrame resizable (sent.bytes ++ rest) = .ok (sent.frame, rest)) ∧
    ∀ (frames : List SentFrame) (rest : List UInt8),
      readMany (readFrame resizable) frames.length (frames.flatMap SentFrame.bytes ++ rest) =
        .ok (frames.map SentFrame.frame, rest) :=
  ⟨delimits_sentFrame room, fun _ =>
    readMany_writes fun sent _ => delimits_sentFrame room sent⟩

theorem replicate_small {len : ℕ} (byte : UInt8) (small : len < 2 ^ 31) :
    (List.replicate len byte).length < 2 ^ 31 := by
  rwa [List.length_replicate]

/-- The answer to an empty ping, and a text for each way to write a length. -/
def eachLength : List SentFrame :=
  [⟨0x0A, #v[1, 2, 3, 4], [], by decide, by decide⟩,
    ⟨0x01, #v[5, 6, 7, 8], [0x41], by decide, by decide⟩,
    ⟨0x01, #v[9, 0, 1, 2], List.replicate 200 0x42, by decide, replicate_small _ (by decide)⟩,
    ⟨0x01, #v[3, 4, 5, 6], List.replicate 70000 0x43, by decide, replicate_small _ (by decide)⟩]

theorem readFrame_sendFrame_eachLength :
    readMany (readFrame fun len => decide (len < 2 ^ 62)) 4
        (eachLength.flatMap SentFrame.bytes ++ [0xFF]) =
      .ok ([⟨0x0A, []⟩, ⟨0x01, [0x41]⟩, ⟨0x01, List.replicate 200 0x42⟩,
        ⟨0x01, List.replicate 70000 0x43⟩], [0xFF]) :=
  (readFrame_sendFrame fun _ small => decide_eq_true (by omega)).2 eachLength [0xFF]

end RoundTrip

end WsClient

end CryptoTrading
