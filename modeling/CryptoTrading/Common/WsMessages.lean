import CryptoTrading.Common.WsFrames

/-! # Messages in several frames

`Read` hands out the payload of every frame that is neither a ping nor a close.
It keeps nothing from one call to the next, so a message that the server splits
comes back in its pieces. -/
set_option autoImplicit false

namespace CryptoTrading

namespace WsClient

open SelfDelimiting

/-! ## What the server sends -/

def continuationOpcode : UInt8 := 0x00

def textOpcode : UInt8 := 0x01

def pongOpcode : UInt8 := 0x0A

/-- The frames that carry on a message; the last of them ends it. -/
def continuationFrames : List (List UInt8) → List WireFrame
  | [] => []
  | payload :: rest =>
      { fin := rest.isEmpty, opcode := continuationOpcode, payload := payload } ::
        continuationFrames rest

/-- The frames of a text message, given in the pieces it is split into. -/
def messageFrames : List (List UInt8) → List WireFrame
  | [] => []
  | payload :: rest =>
      { fin := rest.isEmpty, opcode := textOpcode, payload := payload } :: continuationFrames rest

/-- The frames of the messages, in order, with control frames anywhere between
them; `control` are the opcodes of these. -/
structure ServerStream (control : List UInt8) (messages : List (List (List UInt8)))
    (frames : List WireFrame) : Prop where
  pieces : ∀ message ∈ messages, message ≠ []
  data : frames.filter (fun frame => frame.opcode ∉ control) = messages.flatMap messageFrames
  small : ∀ frame ∈ frames, frame.payload.length < 2 ^ 31

/-! ## What is read -/

section Stream
variable {resizable : ℕ → Bool}

theorem payloads_messageFrames (messages : List (List (List UInt8))) :
    (messages.flatMap messageFrames).map WireFrame.payload = messages.flatten := by
  have continued : ∀ pieces, (continuationFrames pieces).map WireFrame.payload = pieces := by
    intro pieces
    induction pieces with
    | nil => rfl
    | cons payload rest ih => rw [continuationFrames, List.map_cons, ih]
  have whole : ∀ pieces, (messageFrames pieces).map WireFrame.payload = pieces := by
    intro pieces
    cases pieces with
    | nil => rfl
    | cons payload rest => rw [messageFrames, List.map_cons, continued]
  rw [List.map_flatMap, List.flatMap_congr fun pieces _ => whole pieces, List.flatMap_id']

theorem opcode_messageFrames {messages : List (List (List UInt8))} {frame : WireFrame}
    (member : frame ∈ messages.flatMap messageFrames) :
    frame.opcode = textOpcode ∨ frame.opcode = continuationOpcode := by
  have continued : ∀ pieces, ∀ frame ∈ continuationFrames pieces,
      frame.opcode = continuationOpcode := by
    intro pieces
    induction pieces with
    | nil =>
        intro frame member
        cases member
    | cons payload rest ih =>
        intro frame member
        rcases List.mem_cons.mp member with rfl | later
        · rfl
        · exact ih frame later
  obtain ⟨pieces, -, member⟩ := List.mem_flatMap.mp member
  cases pieces with
  | nil => cases member
  | cons payload rest =>
      rcases List.mem_cons.mp member with rfl | later
      · exact Or.inl rfl
      · exact Or.inr (continued rest frame later)

theorem read_dataFrame (frame : WireFrame) (known : frame.opcode < 16)
    (notPing : frame.opcode ≠ pingOpcode) (notClose : frame.opcode ≠ closeOpcode)
    (small : frame.payload.length < 2 ^ 31) (room : ∀ len < 2 ^ 31, resizable len = true)
    (rest : List UInt8) : read resizable (frame.bytes ++ rest) = .ok (frame.payload, rest) := by
  rw [read_eq, readFrame_bytes frame known small (room _ small)]
  dsimp only
  rw [if_neg notPing, if_neg notClose]

theorem read_pingFrame (frame : WireFrame) (isPing : frame.opcode = pingOpcode)
    (small : frame.payload.length < 2 ^ 31) (room : ∀ len < 2 ^ 31, resizable len = true)
    (rest : List UInt8) :
    readFrame resizable (frame.bytes ++ rest) = .ok (⟨frame.opcode, frame.payload⟩, rest) ∧
      read resizable (frame.bytes ++ rest) = read resizable rest := by
  have known : frame.opcode < 16 := by
    rw [isPing]
    decide
  have taken := readFrame_bytes frame known small (room _ small) rest
  refine ⟨taken, ?_⟩
  rw [read_eq, taken]
  dsimp only
  rw [if_pos isPing]

/-- Over frames of data with pings between them, the calls hand out the payloads
of the data; pings behind the last are left to the next call. -/
theorem readMany_dataFrames (room : ∀ len < 2 ^ 31, resizable len = true)
    (frames : List WireFrame) (small : ∀ frame ∈ frames, frame.payload.length < 2 ^ 31)
    (known : ∀ frame ∈ frames, frame.opcode ≠ pingOpcode →
      frame.opcode < 16 ∧ frame.opcode ≠ closeOpcode) (rest : List UInt8) :
    ∃ later, readMany (read resizable) (frames.filter (·.opcode ≠ pingOpcode)).length
        (frames.flatMap WireFrame.bytes ++ rest) =
          .ok ((frames.filter (·.opcode ≠ pingOpcode)).map WireFrame.payload, later) ∧
      PastPings resizable later rest := by
  induction frames with
  | nil => exact ⟨rest, rfl, .here rest⟩
  | cons frame others ih =>
      obtain ⟨later, ran, past⟩ :=
        ih (fun other member => small other (List.mem_cons_of_mem _ member))
          (fun other member => known other (List.mem_cons_of_mem _ member))
      have smallHere := small frame List.mem_cons_self
      rw [List.flatMap_cons, List.append_assoc]
      by_cases isPing : frame.opcode = pingOpcode
      · obtain ⟨taken, skipped⟩ := read_pingFrame frame isPing smallHere room
          (others.flatMap WireFrame.bytes ++ rest)
        rw [List.filter_cons_of_neg (by simp [isPing])]
        cases count : (others.filter (·.opcode ≠ pingOpcode)) with
        | nil =>
            rw [count] at ran
            cases ran
            exact ⟨_, rfl, .ping taken isPing past⟩
        | cons first data =>
            rw [count, List.length_cons, readMany] at ran
            refine ⟨later, ?_, past⟩
            rw [List.length_cons, readMany, skipped, ran]
      · obtain ⟨below, notClose⟩ := known frame List.mem_cons_self isPing
        rw [List.filter_cons_of_pos (by simp [isPing])]
        refine ⟨later, ?_, past⟩
        exact readMany_cons
          (read_dataFrame frame below isPing notClose smallHere room _) ran

theorem read_of_pastPings {incoming later : List UInt8}
    (past : PastPings resizable incoming later) :
    read resizable incoming = read resizable later := by
  induction past with
  | here incoming => rfl
  | ping first isPing _ ih =>
      rw [read_eq, first]
      dsimp only
      rw [if_pos isPing, ih]

/-- Successive calls of `Read` hand out the frames of the messages one by one,
never a ping, and with nothing behind the frames the next call fails. -/
theorem read_fragments (room : ∀ len < 2 ^ 31, resizable len = true)
    {messages : List (List (List UInt8))} {frames : List WireFrame}
    (stream : ServerStream [pingOpcode] messages frames) (rest : List UInt8) :
    ∃ later, readMany (read resizable) messages.flatten.length
        (frames.flatMap WireFrame.bytes ++ rest) = .ok (messages.flatten, later) ∧
      PastPings resizable later rest ∧
      (rest = [] → read resizable later = .error .failed) := by
  have data : frames.filter (·.opcode ≠ pingOpcode) = messages.flatMap messageFrames := by
    rw [← stream.data]
    exact List.filter_congr fun frame _ => by simp
  have known : ∀ frame ∈ frames, frame.opcode ≠ pingOpcode →
      frame.opcode < 16 ∧ frame.opcode ≠ closeOpcode := by
    intro frame member notPing
    have kept : frame ∈ messages.flatMap messageFrames := by
      rw [← data]
      exact List.mem_filter.mpr ⟨member, decide_eq_true notPing⟩
    rcases opcode_messageFrames kept with isText | isContinuation
    · rw [isText]
      decide
    · rw [isContinuation]
      decide
  obtain ⟨later, ran, past⟩ := readMany_dataFrames room frames stream.small known rest
  have count : (messages.flatMap messageFrames).length = messages.flatten.length := by
    rw [← payloads_messageFrames, List.length_map]
  rw [data, payloads_messageFrames, count] at ran
  refine ⟨later, ran, past, ?_⟩
  rintro rfl
  rw [read_of_pastPings past]
  rfl

/-! ## A message in two frames -/

/-- A ping with a payload stands between the two halves of a message. -/
def splitFrames : List WireFrame :=
  [{ fin := false, opcode := textOpcode, payload := [0x68] },
    { opcode := pingOpcode, payload := [0x00] },
    { opcode := continuationOpcode, payload := [0x69] }]

theorem splitFrames_stream (control : List UInt8) (pings : pingOpcode ∈ control)
    (noData : textOpcode ∉ control ∧ continuationOpcode ∉ control) :
    ServerStream control [[[0x68], [0x69]]] splitFrames := by
  refine ⟨by simp, ?_, ?_⟩
  · simp [splitFrames, pings, noData, messageFrames, continuationFrames]
  · intro frame member
    simp only [splitFrames, List.mem_cons, List.not_mem_nil, or_false] at member
    rcases member with rfl | rfl | rfl <;> decide

theorem read_fragments_split : ∃ later,
    readMany (read fun len => decide (len < 2 ^ 62)) 2 (splitFrames.flatMap WireFrame.bytes ++ []) =
      .ok ([[0x68], [0x69]], later) := by
  obtain ⟨later, ran, -⟩ := @read_fragments (fun len => decide (len < 2 ^ 62))
    (fun _ small => decide_eq_true (by omega)) [[[0x68], [0x69]]] splitFrames
    (splitFrames_stream _ (by decide) (by decide)) []
  exact ⟨later, ran⟩

theorem split_message_in_pieces : ¬ ∀ (resizable : ℕ → Bool),
    (∀ len < 2 ^ 31, resizable len = true) →
    ∀ (messages : List (List (List UInt8))) (frames : List WireFrame) (rest : List UInt8),
      ServerStream [pingOpcode, pongOpcode] messages frames →
      ∃ later, readMany (read resizable) messages.length
        (frames.flatMap WireFrame.bytes ++ rest) = .ok (messages.map List.flatten, later) := by
  intro claim
  obtain ⟨later, ran⟩ := claim (fun len => decide (len < 2 ^ 62))
    (fun _ small => decide_eq_true (by omega)) [[[0x68], [0x69]]] splitFrames []
    (splitFrames_stream _ (by decide) (by decide))
  have first : (readMany (read fun len => decide (len < 2 ^ 62)) 1
      (splitFrames.flatMap WireFrame.bytes ++ [])).toOption.map Prod.fst = some [[0x68]] := by
    decide +kernel
  rw [show readMany _ 1 _ = _ from ran] at first
  cases first

end Stream

end WsClient

end CryptoTrading
