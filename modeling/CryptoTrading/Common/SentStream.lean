import CryptoTrading.Common.CutStream
import CryptoTrading.Common.WsSend

/-! # Frames that reach the other side

Frames are handed to a connection one after another.  As long as no call of
`SSL_write` fails, the other side takes off exactly these frames; and when nothing
is accepted any more behind a call that fails, the first of them. -/
set_option autoImplicit false

namespace CryptoTrading

namespace WsClient

open SelfDelimiting

def framesIn : ℕ → List UInt8 → List Frame
  | 0, _ => []
  | fuel + 1, incoming =>
      match readFrame (fun _ => true) incoming with
      | .error _ => []
      | .ok (frame, rest) => frame :: framesIn fuel rest

def receivedFrames (incoming : List UInt8) : List Frame :=
  framesIn (incoming.length + 1) incoming

def WireFrame.frame (frame : WireFrame) : Frame := ⟨frame.opcode, frame.payload⟩

/-- Nothing is accepted behind a call that fails. -/
def Dies (events : List WriteEvent) : Prop :=
  ∀ before after, events = before ++ .failed :: after → written after = []

/-- What was written of the frames: all of them, or the front of their bytes. -/
structure Streams (frames : List WireFrame) (events : List WriteEvent) : Prop where
  whole : .failed ∉ events → written events = frames.flatMap WireFrame.bytes
  front : Dies events → written events <+: frames.flatMap WireFrame.bytes

/-! ## Writing -/

section Writing
variable {data : List UInt8} {outcomes : List WriteOutcome}

/-- `RawSend` writes the front of its data, and all of them without a failure. -/
theorem rawSend_front (outcomes : List WriteOutcome) : ∀ data : List UInt8,
    written (rawSend data outcomes).events <+: data ∧
      (.failed ∉ (rawSend data outcomes).events →
        written (rawSend data outcomes).events = data) := by
  induction outcomes with
  | nil =>
      intro data
      rw [rawSend]
      split
      · next none => simp [none, written]
      · simp [written]
  | cons outcome outcomes ih =>
      intro data
      rw [rawSend]
      split
      · next none => simp [none, written]
      · split
        · simp [written]
        · next count _ =>
            obtain ⟨front, whole⟩ := ih (data.drop count)
            dsimp only
            rw [written_cons]
            constructor
            · obtain ⟨rest, split⟩ := front
              refine ⟨rest, ?_⟩
              rw [List.append_assoc, split, List.take_append_drop]
            · intro clean
              rw [whole fun failed => clean (List.mem_cons_of_mem _ failed),
                List.take_append_drop]

theorem Dies.left {first second : List WriteEvent} (dies : Dies (first ++ second)) :
    Dies first := by
  intro before after split
  have nothing := dies before (after ++ second) (by rw [split]; simp)
  rw [written_append] at nothing
  exact (List.append_eq_nil_iff.mp nothing).1

theorem Dies.right {first second : List WriteEvent} (dies : Dies (first ++ second)) :
    Dies second := by
  intro before after split
  exact dies (first ++ before) after (by rw [split, List.append_assoc])

theorem Dies.behind {first second : List WriteEvent} (dies : Dies (first ++ second))
    (failed : .failed ∈ first) : written second = [] := by
  obtain ⟨before, after, rfl⟩ := List.append_of_mem failed
  have nothing := dies before (after ++ second) (by simp)
  rw [written_append] at nothing
  exact (List.append_eq_nil_iff.mp nothing).2

theorem written_parts {first second : List WriteEvent} {one other : List UInt8}
    (dies : Dies (first ++ second)) (frontOne : written first <+: one)
    (wholeOne : .failed ∉ first → written first = one) (frontOther : written second <+: other) :
    written (first ++ second) <+: one ++ other := by
  rw [written_append]
  by_cases failed : .failed ∈ first
  · rw [dies.behind failed, List.append_nil]
    exact frontOne.trans (List.prefix_append one other)
  · rw [wholeOne failed]
    exact (List.prefix_append_right_inj one).mpr frontOther

theorem sendFrameTo_front {opcode : UInt8} {maskKey : Vector UInt8 4} {payload : List UInt8}
    (outcomes : List WriteOutcome) (dies : Dies (sendFrameTo opcode maskKey payload outcomes)) :
    written (sendFrameTo opcode maskKey payload outcomes) <+:
      sendFrame opcode maskKey payload := by
  obtain ⟨frontHeader, wholeHeader⟩ :=
    rawSend_front outcomes (sendHeader opcode maskKey payload.length)
  exact written_parts dies frontHeader wholeHeader (rawSend_front _ _).1

theorem sendFrameTo_whole {opcode : UInt8} {maskKey : Vector UInt8 4} {payload : List UInt8}
    (outcomes : List WriteOutcome)
    (clean : .failed ∉ sendFrameTo opcode maskKey payload outcomes) :
    written (sendFrameTo opcode maskKey payload outcomes) =
      sendFrame opcode maskKey payload := by
  rw [sendFrameTo, List.mem_append, not_or] at clean
  rw [sendFrameTo, written_append, sendFrame, (rawSend_front _ _).2 clean.1,
    (rawSend_front _ _).2 clean.2]

theorem streams_nil : Streams [] [] := ⟨fun _ => rfl, fun _ => List.nil_prefix⟩

theorem Streams.send {frames : List WireFrame} {events : List WriteEvent}
    (streams : Streams frames events) (opcode : UInt8) (maskKey : Vector UInt8 4)
    (payload : List UInt8) (outcomes : List WriteOutcome) :
    Streams (frames ++ [{ opcode := opcode, mask := some maskKey, payload := payload }])
      (events ++ sendFrameTo opcode maskKey payload outcomes) := by
  have bytes := sendFrame_eq_bytes opcode maskKey payload
  constructor
  · intro clean
    rw [List.mem_append, not_or] at clean
    rw [written_append, streams.whole clean.1, sendFrameTo_whole _ clean.2, bytes,
      List.flatMap_append, List.flatMap_singleton]
  · intro dies
    rw [List.flatMap_append, List.flatMap_singleton, ← bytes]
    exact written_parts dies (streams.front dies.left) streams.whole
      (sendFrameTo_front outcomes dies.right)

end Writing

/-! ## Reading -/

section Reading
variable {frames : List WireFrame}

theorem readFrame_small {resizable : ℕ → Bool} {incoming rest : List UInt8} {frame : Frame}
    (ran : readFrame resizable incoming = .ok (frame, rest)) :
    frame.payload.length < 2 ^ 31 := by
  obtain ⟨⟨header, afterHeader⟩, -, ran⟩ := bind_ok ran
  dsimp only at ran
  split at ran
  · obtain ⟨⟨payload, afterPayload⟩, received, same⟩ := bind_ok ran
    cases same
    rw [rawRecv] at received
    split at received
    · next fits =>
        cases received
        dsimp only
        split
        · rw [unmask, List.length_mapIdx, List.length_take]
          omega
        · rw [List.length_take]
          omega
    · cases received
  · cases ran

theorem framesIn_take (frames : List WireFrame) : ∀ fuel count,
    (∀ frame ∈ frames, WireFrame.Sendable frame) →
      framesIn fuel ((frames.flatMap WireFrame.bytes).take count) <+:
        frames.map WireFrame.frame := by
  induction frames with
  | nil =>
      intro fuel count _
      cases fuel with
      | zero => exact List.nil_prefix
      | succ fuel => rw [List.flatMap_nil, List.take_nil]; exact List.nil_prefix
  | cons frame others ih =>
      intro fuel count sendable
      obtain ⟨known, small⟩ := sendable frame List.mem_cons_self
      cases fuel with
      | zero => exact List.nil_prefix
      | succ fuel =>
          rw [take_frames, framesIn]
          split_ifs with whole
          · rw [readFrame_bytes frame known small rfl]
            exact List.cons_prefix_cons.mpr ⟨rfl, ih fuel _ fun other member =>
              sendable other (List.mem_cons_of_mem frame member)⟩
          · rw [readFrame_cut (fun _ _ => rfl) ⟨known, small⟩ (by omega)]
            exact List.nil_prefix

theorem framesIn_whole (frames : List WireFrame) : ∀ fuel,
    (∀ frame ∈ frames, WireFrame.Sendable frame) →
      (frames.flatMap WireFrame.bytes).length < fuel →
        framesIn fuel (frames.flatMap WireFrame.bytes) = frames.map WireFrame.frame := by
  induction frames with
  | nil =>
      intro fuel _ _
      cases fuel <;> rfl
  | cons frame others ih =>
      intro fuel sendable enough
      obtain ⟨known, small⟩ := sendable frame List.mem_cons_self
      have positive : 0 < frame.bytes.length := by
        rw [WireFrame.bytes]
        exact Nat.succ_pos _
      cases fuel with
      | zero => omega
      | succ fuel =>
          rw [List.flatMap_cons, List.length_append] at enough
          rw [List.flatMap_cons, framesIn, readFrame_bytes frame known small rfl]
          dsimp only
          rw [ih fuel (fun other member => sendable other (List.mem_cons_of_mem frame member))
            (by omega)]
          rfl

theorem Streams.received {events : List WriteEvent} (streams : Streams frames events)
    (sendable : ∀ frame ∈ frames, WireFrame.Sendable frame) (dies : Dies events) :
    receivedFrames (written events) <+: frames.map WireFrame.frame := by
  rw [List.prefix_iff_eq_take.mp (streams.front dies)]
  exact framesIn_take frames _ _ sendable

theorem Streams.received_whole {events : List WriteEvent} (streams : Streams frames events)
    (sendable : ∀ frame ∈ frames, WireFrame.Sendable frame) (clean : .failed ∉ events) :
    receivedFrames (written events) = frames.map WireFrame.frame := by
  rw [streams.whole clean]
  exact framesIn_whole frames _ sendable (Nat.lt_succ_self _)

end Reading

end WsClient

end CryptoTrading
