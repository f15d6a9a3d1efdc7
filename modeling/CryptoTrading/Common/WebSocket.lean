import Mathlib.Algebra.Group.Nat.Defs

/-! # Reading WebSocket frames

`RawRecv`, `ReadFrame` and `Read` of `websocket.hpp` on the bytes that the
server sends before the connection ends.  `resizable` says to which lengths the
string that takes a payload can be resized; to any other length `resize` throws,
before a byte of the payload is read. -/
set_option autoImplicit false

namespace CryptoTrading

namespace WsClient

/-- `return false`, or an exception. -/
inductive ReadFault where
  | failed
  | thrown
  deriving DecidableEq, Repr

/-- The loop of `SSL_read` calls.  From 2^31 bytes on the length that is left is
sooner or later cut to an `int` that `SSL_read` refuses. -/
def rawRecv (len : ℕ) (incoming : List UInt8) : Except ReadFault (List UInt8 × List UInt8) :=
  if len < 2 ^ 31 ∧ len ≤ incoming.length then .ok (incoming.take len, incoming.drop len)
  else .error .failed

/-- `(value << 8) | byte` over all bytes. -/
def bigEndian (bytes : List UInt8) : ℕ :=
  bytes.foldl (fun value byte => value * 256 + byte.toNat) 0

structure FrameHeader where
  opcode : UInt8
  masked : Bool
  payloadLen : ℕ
  maskKey : List UInt8
  deriving DecidableEq, Repr

/-- The length from its seven bits, or from the two or eight bytes behind them. -/
def readLength (short : UInt8) (incoming : List UInt8) : Except ReadFault (ℕ × List UInt8) :=
  if short = 126 then do
    let (ext, incoming) ← rawRecv 2 incoming
    .ok (bigEndian ext, incoming)
  else if short = 127 then do
    let (ext, incoming) ← rawRecv 8 incoming
    .ok (bigEndian ext, incoming)
  else .ok (short.toNat, incoming)

def readMaskKey (masked : Bool) (incoming : List UInt8) :
    Except ReadFault (List UInt8 × List UInt8) :=
  if masked then rawRecv 4 incoming else .ok ([0, 0, 0, 0], incoming)

def readHeader (incoming : List UInt8) : Except ReadFault (FrameHeader × List UInt8) := do
  let (head, incoming) ← rawRecv 2 incoming
  let masked := head.getD 1 0 &&& 0x80 ≠ 0
  let (payloadLen, incoming) ← readLength (head.getD 1 0 &&& 0x7F) incoming
  let (maskKey, incoming) ← readMaskKey masked incoming
  .ok (⟨head.getD 0 0 &&& 0x0F, masked, payloadLen, maskKey⟩, incoming)

def unmask (maskKey payload : List UInt8) : List UInt8 :=
  payload.mapIdx fun idx byte => byte ^^^ maskKey.getD (idx % 4) 0

structure Frame where
  opcode : UInt8
  payload : List UInt8
  deriving DecidableEq, Repr

def readFrame (resizable : ℕ → Bool) (incoming : List UInt8) :
    Except ReadFault (Frame × List UInt8) := do
  let (header, incoming) ← readHeader incoming
  if resizable header.payloadLen then
    let (payload, incoming) ← rawRecv header.payloadLen incoming
    .ok (⟨header.opcode, if header.masked then unmask header.maskKey payload else payload⟩,
      incoming)
  else .error .thrown

def pingOpcode : UInt8 := 0x09

def closeOpcode : UInt8 := 0x08

/-- The loop of `Read`; whether the answer to a ping could be sent is not looked
at.  Each turn takes at least two bytes. -/
def readLoop (resizable : ℕ → Bool) :
    ℕ → List UInt8 → Except ReadFault (List UInt8 × List UInt8)
  | 0, _ => .error .failed
  | fuel + 1, incoming => do
      let (frame, rest) ← readFrame resizable incoming
      if frame.opcode = pingOpcode then readLoop resizable fuel rest
      else if frame.opcode = closeOpcode then .error .failed
      else .ok (frame.payload, rest)

def read (resizable : ℕ → Bool) (incoming : List UInt8) :
    Except ReadFault (List UInt8 × List UInt8) :=
  readLoop resizable (incoming.length + 1) incoming

example : (read (fun _ => true) [0x89, 0x00, 0x81, 0x82, 1, 2, 3, 4, 0x69, 0x6B]).toOption =
    some ([0x68, 0x69], []) := by decide +kernel

/-! ## What a frame takes -/

section Bind
variable {α β : Type} {first : Except ReadFault α} {next : α → Except ReadFault β}

theorem bind_ok {result : β} (ran : first >>= next = .ok result) :
    ∃ value, first = .ok value ∧ next value = .ok result := by
  cases first with
  | error fault => cases ran
  | ok value => exact ⟨value, rfl, ran⟩

theorem bind_fault {fault : ReadFault} (ran : first >>= next = .error fault) :
    first = .error fault ∨ ∃ value, first = .ok value ∧ next value = .error fault := by
  cases first with
  | error other =>
      cases ran
      exact .inl rfl
  | ok value => exact .inr ⟨value, rfl, ran⟩

end Bind

section Consumed
variable {incoming rest : List UInt8}

theorem rawRecv_ok {len : ℕ} {taken : List UInt8}
    (ran : rawRecv len incoming = .ok (taken, rest)) : rest.length + len = incoming.length := by
  rw [rawRecv] at ran
  split at ran
  · next fits =>
      cases ran
      rw [List.length_drop]
      omega
  · cases ran

theorem rawRecv_fault {len : ℕ} {fault : ReadFault} (ran : rawRecv len incoming = .error fault) :
    fault = .failed := by
  rw [rawRecv] at ran
  split at ran
  · cases ran
  · cases ran
    rfl

theorem readLength_cases (short : UInt8) (incoming : List UInt8) :
    readLength short incoming = .ok (short.toNat, incoming) ∨
      ∃ width, readLength short incoming = rawRecv width incoming >>= fun received =>
        .ok (bigEndian received.1, received.2) := by
  rw [readLength]
  split
  · exact .inr ⟨2, rfl⟩
  · split
    · exact .inr ⟨8, rfl⟩
    · exact .inl rfl

theorem readLength_ok {short : UInt8} {len : ℕ}
    (ran : readLength short incoming = .ok (len, rest)) : rest.length ≤ incoming.length := by
  rcases readLength_cases short incoming with within | ⟨width, extended⟩
  · rw [within] at ran
    cases ran
    exact Nat.le_refl _
  · rw [extended] at ran
    obtain ⟨⟨ext, after⟩, received, same⟩ := bind_ok ran
    cases same
    have taken := rawRecv_ok received
    dsimp only
    omega

theorem readLength_fault {short : UInt8} {fault : ReadFault}
    (ran : readLength short incoming = .error fault) : fault = .failed := by
  rcases readLength_cases short incoming with within | ⟨width, extended⟩
  · rw [within] at ran
    cases ran
  · rw [extended] at ran
    obtain failed | ⟨value, -, done⟩ := bind_fault ran
    · exact rawRecv_fault failed
    · cases done

theorem readMaskKey_ok {masked : Bool} {maskKey : List UInt8}
    (ran : readMaskKey masked incoming = .ok (maskKey, rest)) :
    rest.length ≤ incoming.length := by
  rw [readMaskKey] at ran
  split at ran
  · have taken := rawRecv_ok ran
    omega
  · cases ran
    exact Nat.le_refl _

theorem readMaskKey_fault {masked : Bool} {fault : ReadFault}
    (ran : readMaskKey masked incoming = .error fault) : fault = .failed := by
  rw [readMaskKey] at ran
  split at ran
  · exact rawRecv_fault ran
  · cases ran

theorem readHeader_ok {header : FrameHeader}
    (ran : readHeader incoming = .ok (header, rest)) : rest.length + 2 ≤ incoming.length := by
  obtain ⟨⟨head, afterHead⟩, received, ran⟩ := bind_ok ran
  obtain ⟨⟨len, afterLength⟩, measured, ran⟩ := bind_ok ran
  obtain ⟨⟨maskKey, afterMask⟩, keyed, same⟩ := bind_ok ran
  cases same
  have two := rawRecv_ok received
  have behindLength := readLength_ok measured
  have behindKey := readMaskKey_ok keyed
  omega

theorem readHeader_fault {fault : ReadFault} (ran : readHeader incoming = .error fault) :
    fault = .failed := by
  obtain failed | ⟨⟨head, afterHead⟩, -, ran⟩ := bind_fault ran
  · exact rawRecv_fault failed
  obtain failed | ⟨⟨len, afterLength⟩, -, ran⟩ := bind_fault ran
  · exact readLength_fault failed
  obtain failed | ⟨⟨maskKey, afterMask⟩, -, done⟩ := bind_fault ran
  · exact readMaskKey_fault failed
  · cases done

end Consumed

/-! ## Frames and messages -/

section Frames
variable {resizable : ℕ → Bool} {incoming rest : List UInt8}

theorem readFrame_ok {frame : Frame}
    (ran : readFrame resizable incoming = .ok (frame, rest)) :
    rest.length + 2 ≤ incoming.length := by
  obtain ⟨⟨header, afterHeader⟩, read, ran⟩ := bind_ok ran
  have shorter := readHeader_ok read
  dsimp only at ran
  split at ran
  · obtain ⟨⟨payload, afterPayload⟩, received, same⟩ := bind_ok ran
    cases same
    have taken := rawRecv_ok received
    dsimp only at taken ⊢
    omega
  · cases ran

/-- The next frame announces a payload that no string can take. -/
def Oversized (resizable : ℕ → Bool) (incoming : List UInt8) : Prop :=
  ∃ header rest, readHeader incoming = .ok (header, rest) ∧ resizable header.payloadLen = false

theorem readFrame_thrown_iff :
    readFrame resizable incoming = .error .thrown ↔ Oversized resizable incoming := by
  constructor
  · intro ran
    obtain failed | ⟨⟨header, afterHeader⟩, read, ran⟩ := bind_fault ran
    · cases readHeader_fault failed
    · dsimp only at ran
      split at ran
      · obtain failed | ⟨value, -, done⟩ := bind_fault ran
        · cases rawRecv_fault failed
        · cases done
      · next small => exact ⟨header, afterHeader, read, Bool.eq_false_iff.mpr small⟩
  · rintro ⟨header, afterHeader, read, large⟩
    rw [readFrame, read]
    simp [bind, Except.bind, large]

theorem readLoop_succ (fuel : ℕ) : readLoop resizable (fuel + 1) incoming =
    match readFrame resizable incoming with
    | .error fault => .error fault
    | .ok (frame, rest) =>
        if frame.opcode = pingOpcode then readLoop resizable fuel rest
        else if frame.opcode = closeOpcode then .error .failed
        else .ok (frame.payload, rest) := by
  rw [readLoop]
  cases readFrame resizable incoming <;> rfl

theorem readLoop_fuel (fuel : ℕ) : ∀ incoming : List UInt8, incoming.length < fuel →
    readLoop resizable fuel incoming = read resizable incoming := by
  induction fuel using Nat.strongRecOn with
  | ind fuel ih =>
      intro incoming enough
      obtain ⟨less, rfl⟩ : ∃ less, fuel = less + 1 := ⟨fuel - 1, by omega⟩
      rw [read, readLoop_succ, readLoop_succ]
      cases read : readFrame resizable incoming with
      | error fault => rfl
      | ok result =>
          obtain ⟨frame, rest⟩ := result
          have shorter := readFrame_ok read
          dsimp only
          split
          · rw [ih less (by omega) rest (by omega)]
            by_cases same : incoming.length = less
            · rw [same, ih less (by omega) rest (by omega)]
            · rw [ih incoming.length (by omega) rest (by omega)]
          · rfl

theorem read_eq (resizable : ℕ → Bool) (incoming : List UInt8) : read resizable incoming =
    match readFrame resizable incoming with
    | .error fault => .error fault
    | .ok (frame, rest) =>
        if frame.opcode = pingOpcode then read resizable rest
        else if frame.opcode = closeOpcode then .error .failed
        else .ok (frame.payload, rest) := by
  rw [read, readLoop_succ]
  cases read : readFrame resizable incoming with
  | error fault => rfl
  | ok result =>
      obtain ⟨frame, rest⟩ := result
      have shorter := readFrame_ok read
      dsimp only
      rw [readLoop_fuel _ rest (by omega)]

/-- `later` is what is left when some pings at the front of `incoming` have been
answered. -/
inductive PastPings (resizable : ℕ → Bool) : List UInt8 → List UInt8 → Prop where
  | here (incoming : List UInt8) : PastPings resizable incoming incoming
  | ping {incoming rest later : List UInt8} {frame : Frame}
      (read : readFrame resizable incoming = .ok (frame, rest))
      (isPing : frame.opcode = pingOpcode) (onward : PastPings resizable rest later) :
      PastPings resizable incoming later

def Message (resizable : ℕ → Bool) (incoming payload rest : List UInt8) : Prop :=
  ∃ frame, readFrame resizable incoming = .ok (frame, rest) ∧ frame.opcode ≠ pingOpcode ∧
    frame.opcode ≠ closeOpcode ∧ frame.payload = payload

/-- What holds of `Read` holds at the first frame or behind a ping. -/
theorem read_induction {P : List UInt8 → Prop}
    (step : ∀ incoming, (∀ frame rest, readFrame resizable incoming = .ok (frame, rest) →
      frame.opcode = pingOpcode → P rest) → P incoming) (incoming : List UInt8) : P incoming := by
  induction bytes : incoming.length using Nat.strongRecOn generalizing incoming with
  | ind length ih =>
      apply step
      intro frame rest read _
      have shorter := readFrame_ok read
      exact ih rest.length (by omega) rest rfl

theorem read_thrown_iff (incoming : List UInt8) : read resizable incoming = .error .thrown ↔
    ∃ later, PastPings resizable incoming later ∧ Oversized resizable later := by
  constructor
  · revert incoming
    apply @read_induction resizable
    intro incoming ih thrown
    rw [read_eq] at thrown
    cases first : readFrame resizable incoming with
    | error fault =>
        rw [first] at thrown
        cases thrown
        exact ⟨incoming, .here incoming, readFrame_thrown_iff.mp first⟩
    | ok result =>
        obtain ⟨frame, rest⟩ := result
        rw [first] at thrown
        dsimp only at thrown
        split at thrown
        · next isPing =>
            obtain ⟨later, onward, large⟩ := ih frame rest first isPing thrown
            exact ⟨later, .ping first isPing onward, large⟩
        · split at thrown <;> cases thrown
  · rintro ⟨later, past, large⟩
    induction past with
    | here incoming => rw [read_eq, readFrame_thrown_iff.mpr large]
    | ping first isPing _ ih =>
        rw [read_eq, first]
        dsimp only
        rw [if_pos isPing, ih large]

theorem read_ok_iff {payload : List UInt8} (incoming : List UInt8) :
    read resizable incoming = .ok (payload, rest) ↔
      ∃ later, PastPings resizable incoming later ∧ Message resizable later payload rest := by
  constructor
  · revert incoming
    apply @read_induction resizable
    intro incoming ih done
    rw [read_eq] at done
    cases first : readFrame resizable incoming with
    | error fault =>
        rw [first] at done
        cases done
    | ok result =>
        obtain ⟨frame, after⟩ := result
        rw [first] at done
        dsimp only at done
        split at done
        · next isPing =>
            obtain ⟨later, onward, message⟩ := ih frame after first isPing done
            exact ⟨later, .ping first isPing onward, message⟩
        · next notPing =>
            split at done
            · cases done
            · next notClose =>
                cases done
                exact ⟨incoming, .here incoming, frame, first, notPing, notClose, rfl⟩
  · rintro ⟨later, past, message⟩
    induction past with
    | here incoming =>
        obtain ⟨frame, first, notPing, notClose, rfl⟩ := message
        rw [read_eq, first]
        dsimp only
        rw [if_neg notPing, if_neg notClose]
    | ping first isPing _ ih =>
        rw [read_eq, first]
        dsimp only
        rw [if_pos isPing, ih message]

end Frames

end WsClient

end CryptoTrading
