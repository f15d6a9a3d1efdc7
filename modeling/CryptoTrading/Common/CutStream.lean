import CryptoTrading.Common.WsMessages

/-! # Frames on a connection that breaks

The bytes of a connection are the first ones of the frames that the server wrote.
`Read` hands out the payloads of the frames that have arrived as a whole, up to a
close; a frame that breaks off is never taken for another one. -/
set_option autoImplicit false

namespace CryptoTrading

namespace WsClient

open SelfDelimiting

/-! ## Readers do not look ahead -/

section Stability
variable {resizable : ℕ → Bool}

theorem stable_rawRecv (len : ℕ) : Stable (rawRecv len) := by
  intro input more rest taken ran
  rw [rawRecv] at ran
  split at ran
  · next fits =>
      cases ran
      have longer : len ≤ (input ++ more).length := by
        rw [List.length_append]
        omega
      rw [rawRecv, if_pos ⟨fits.1, longer⟩, List.take_append_of_le_length fits.2,
        List.drop_append_of_le_length fits.2]
  · cases ran

theorem stable_readLength (short : UInt8) : Stable (readLength short) := by
  have extended : ∀ width, Stable fun incoming =>
      (rawRecv width incoming).bind fun received => .ok (bigEndian received.1, received.2) :=
    fun width => (stable_rawRecv width).bind fun ext => stable_ok (bigEndian ext)
  intro input more rest len ran
  rw [readLength] at ran ⊢
  split_ifs at ran ⊢
  · exact extended 2 _ _ _ _ ran
  · exact extended 8 _ _ _ _ ran
  · exact stable_ok short.toNat _ _ _ _ ran

theorem stable_readMaskKey (masked : Bool) : Stable (readMaskKey masked) := by
  intro input more rest maskKey ran
  rw [readMaskKey] at ran ⊢
  split_ifs at ran ⊢
  · exact stable_rawRecv 4 _ _ _ _ ran
  · exact stable_ok [0, 0, 0, 0] _ _ _ _ ran

theorem stable_readHeader : Stable readHeader := by
  have parts := (stable_rawRecv 2).bind fun head =>
    (stable_readLength (head.getD 1 0 &&& 0x7F)).bind fun payloadLen =>
      (stable_readMaskKey (head.getD 1 0 &&& 0x80 ≠ 0)).bind fun maskKey =>
        @stable_ok _ _ ReadFault (FrameHeader.mk (head.getD 0 0 &&& 0x0F)
          (head.getD 1 0 &&& 0x80 ≠ 0) payloadLen maskKey)
  exact parts

theorem stable_readFrame : Stable (readFrame resizable) := by
  have payload : ∀ header : FrameHeader, Stable fun incoming =>
      if resizable header.payloadLen then
        (rawRecv header.payloadLen incoming).bind fun received =>
          .ok (Frame.mk header.opcode
            (if header.masked then unmask header.maskKey received.1 else received.1), received.2)
      else .error .thrown := by
    intro header
    cases resizable header.payloadLen with
    | true =>
        exact (stable_rawRecv header.payloadLen).bind fun payload => stable_ok
          (Frame.mk header.opcode
            (if header.masked then unmask header.maskKey payload else payload))
    | false => exact stable_error ReadFault.thrown
  exact stable_readHeader.bind payload

end Stability

/-! ## The messages that arrive -/

def WireFrame.Sendable (frame : WireFrame) : Prop :=
  frame.opcode < 16 ∧ frame.payload.length < 2 ^ 31

/-- The payloads of the frames that lie within the first bytes, up to a close and
without those of pings. -/
def messagesIn : ℕ → List WireFrame → List (List UInt8)
  | _, [] => []
  | count, frame :: rest =>
      if frame.bytes.length ≤ count then
        if frame.opcode = pingOpcode then messagesIn (count - frame.bytes.length) rest
        else if frame.opcode = closeOpcode then []
        else frame.payload :: messagesIn (count - frame.bytes.length) rest
      else []

/-- The bytes are the first ones of some frames, and these messages arrive in them. -/
def Carries (incoming : List UInt8) (messages : List (List UInt8)) : Prop :=
  ∃ frames count, (∀ frame ∈ frames, WireFrame.Sendable frame) ∧
    incoming = (frames.flatMap WireFrame.bytes).take count ∧ messages = messagesIn count frames

section Arrived
variable {resizable : ℕ → Bool} {frame : WireFrame} {frames : List WireFrame} {count : ℕ}

theorem readFrame_cut (room : ∀ len < 2 ^ 31, resizable len = true) (sendable : frame.Sendable)
    (early : count < frame.bytes.length) :
    readFrame resizable (frame.bytes.take count) = .error .failed := by
  obtain ⟨known, small⟩ := sendable
  have delimits : Delimits WireFrame.bytes (readFrame resizable)
      (fun frame => ⟨frame.opcode, frame.payload⟩) frame :=
    readFrame_bytes frame known small (room _ small)
  cases ran : readFrame resizable (frame.bytes.take count) with
  | ok result => exact absurd ran (delimits.not_early stable_readFrame early result)
  | error fault =>
      cases fault with
      | failed => rfl
      | thrown =>
          -- a header that has arrived announces the length of the frame
          obtain ⟨header, rest, read, large⟩ := readFrame_thrown_iff.mp ran
          have longer := stable_readHeader _ (frame.bytes.drop count) _ _ read
          obtain ⟨whole, readWhole, -, -, length, -⟩ := readHeader_bytes frame known small []
          rw [List.take_append_drop] at longer
          rw [List.append_nil, longer] at readWhole
          rw [(Prod.mk.inj (Except.ok.inj readWhole)).1, length, room _ small] at large
          cases large

theorem take_frames (frame : WireFrame) (frames : List WireFrame) (count : ℕ) :
    ((frame :: frames).flatMap WireFrame.bytes).take count =
      if frame.bytes.length ≤ count then
        frame.bytes ++ (frames.flatMap WireFrame.bytes).take (count - frame.bytes.length)
      else frame.bytes.take count := by
  rw [List.flatMap_cons, List.take_append]
  split
  · next whole => rw [List.take_of_length_le whole]
  · next early =>
      rw [Nat.sub_eq_zero_of_le (by omega), List.take_zero, List.append_nil]

/-- A call of `Read` takes the next message, and fails when there is none. -/
theorem read_arrived (room : ∀ len < 2 ^ 31, resizable len = true) (frames : List WireFrame) :
    ∀ count, (∀ frame ∈ frames, WireFrame.Sendable frame) →
      match messagesIn count frames with
      | [] => read resizable ((frames.flatMap WireFrame.bytes).take count) = .error .failed
      | message :: later => ∃ rest,
          read resizable ((frames.flatMap WireFrame.bytes).take count) = .ok (message, rest) ∧
            Carries rest later := by
  induction frames with
  | nil =>
      intro count _
      rw [messagesIn, List.flatMap_nil, List.take_nil]
      rfl
  | cons frame others ih =>
      intro count sendable
      have here := sendable frame List.mem_cons_self
      have sendableLater := fun other member => sendable other (List.mem_cons_of_mem frame member)
      rw [messagesIn, take_frames]
      by_cases whole : frame.bytes.length ≤ count
      · rw [if_pos whole, if_pos whole]
        by_cases isPing : frame.opcode = pingOpcode
        · rw [if_pos isPing, (read_pingFrame frame isPing here.2 room _).2]
          exact ih _ sendableLater
        · rw [if_neg isPing]
          by_cases isClose : frame.opcode = closeOpcode
          · rw [if_pos isClose, read_eq, readFrame_bytes frame here.1 here.2 (room _ here.2)]
            dsimp only
            rw [if_neg isPing, if_pos isClose]
          · rw [if_neg isClose]
            exact ⟨_, read_dataFrame frame here.1 isPing isClose here.2 room _, others, _,
              sendableLater, rfl, rfl⟩
      · rw [if_neg whole, if_neg whole, read_eq, readFrame_cut room here (by omega)]

theorem Carries.read_none (room : ∀ len < 2 ^ 31, resizable len = true) {incoming : List UInt8}
    (carries : Carries incoming []) : read resizable incoming = .error .failed := by
  obtain ⟨frames, count, sendable, rfl, nothing⟩ := carries
  have taken := read_arrived room frames count sendable
  rw [← nothing] at taken
  exact taken

theorem Carries.read_next (room : ∀ len < 2 ^ 31, resizable len = true)
    {incoming message : List UInt8} {later : List (List UInt8)}
    (carries : Carries incoming (message :: later)) :
    ∃ rest, read resizable incoming = .ok (message, rest) ∧ Carries rest later := by
  obtain ⟨frames, count, sendable, rfl, arrived⟩ := carries
  have taken := read_arrived room frames count sendable
  rw [← arrived] at taken
  exact taken

end Arrived

end WsClient

end CryptoTrading
