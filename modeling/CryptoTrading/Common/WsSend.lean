import CryptoTrading.Common.WsMessages

/-! # Sending over a failing connection

`RawSend`, `SendFrame` and `Send` call by call of `SSL_write`.  What a call
accepts is left open.  `RawSend` stops at a failure and reports it, but
`SendFrame` looks at neither of its two reports. -/
set_option autoImplicit false

namespace CryptoTrading

namespace WsClient

/-! ## Calls of `SSL_write` -/

inductive WriteOutcome where
  | accepts (count : ℕ)
  | fails
  deriving DecidableEq, Repr

/-- A call that does not fail accepts at least one byte and at most as many as
it is offered; a length that is not positive is refused. -/
def sslWrite (num : Int) : WriteOutcome → Option ℕ
  | .fails => none
  | .accepts count => if num ≤ 0 then none else some (max 1 (min count num.toNat))

inductive WriteEvent where
  | wrote (bytes : List UInt8)
  | failed
  deriving DecidableEq, Repr

def written (events : List WriteEvent) : List UInt8 :=
  events.flatMap fun event => match event with
    | .wrote bytes => bytes
    | .failed => []

structure SendResult where
  ok : Bool
  events : List WriteEvent
  /-- What is in store for the calls after these. -/
  later : List WriteOutcome
  deriving DecidableEq, Repr

/-- `RawSend`.  The length that is left is cut to an `int`; when nothing is in
store any more, every call fails. -/
def rawSend (data : List UInt8) : List WriteOutcome → SendResult
  | [] => if data = [] then ⟨true, [], []⟩ else ⟨false, [.failed], []⟩
  | outcome :: outcomes =>
      if data = [] then ⟨true, [], outcome :: outcomes⟩
      else
        match sslWrite ((data.length : Int).bmod (2 ^ 32)) outcome with
        | none => ⟨false, [.failed], outcomes⟩
        | some count =>
            let result := rawSend (data.drop count) outcomes
            { result with events := .wrote (data.take count) :: result.events }

/-- `SendFrame`. -/
def sendFrameTo (opcode : UInt8) (maskKey : Vector UInt8 4) (payload : List UInt8)
    (outcomes : List WriteOutcome) : List WriteEvent :=
  let header := rawSend (sendHeader opcode maskKey payload.length) outcomes
  let body := rawSend (sendBody maskKey payload) header.later
  header.events ++ body.events

def outcomesAfter (opcode : UInt8) (maskKey : Vector UInt8 4) (payload : List UInt8)
    (outcomes : List WriteOutcome) : List WriteOutcome :=
  (rawSend (sendBody maskKey payload)
    (rawSend (sendHeader opcode maskKey payload.length) outcomes).later).later

/-- `Send`: what it returns, and what happens on the connection. -/
def send (isOpen : Bool) (maskKey : Vector UInt8 4) (payload : List UInt8)
    (outcomes : List WriteOutcome) : Bool × List WriteEvent :=
  if isOpen then (true, sendFrameTo textOpcode maskKey payload outcomes) else (false, [])

/-! ## The truth -/

/-- It is true that the frame was sent when that is what was returned, and
nothing of it is written after a failure. -/
structure TellsTruth (frame : List UInt8) (result : Bool × List WriteEvent) : Prop where
  sent : result.1 = true → written result.2 = frame
  stops : ∀ before after, result.2 = before ++ .failed :: after → written after = []

/-- The calls for `len` bytes, up to the one that brings the last of them, all
accept something; `later` is in store behind them. -/
inductive Accepts : ℕ → List WriteOutcome → List WriteOutcome → Prop where
  | all (outcomes : List WriteOutcome) : Accepts 0 outcomes outcomes
  | part {len count : ℕ} {outcome : WriteOutcome} {outcomes later : List WriteOutcome}
      (more : len ≠ 0) (accepted : sslWrite ((len : Int).bmod (2 ^ 32)) outcome = some count)
      (rest : Accepts (len - count) outcomes later) : Accepts len (outcome :: outcomes) later

section Send
variable {data : List UInt8} {outcomes : List WriteOutcome}

theorem written_append (first second : List WriteEvent) :
    written (first ++ second) = written first ++ written second :=
  List.flatMap_append

theorem written_cons (bytes : List UInt8) (events : List WriteEvent) :
    written (.wrote bytes :: events) = bytes ++ written events := rfl

theorem rawSend_accepts {len : ℕ} {later : List WriteOutcome}
    (accepts : Accepts len outcomes later) : ∀ {data : List UInt8}, data.length = len →
      (rawSend data outcomes).later = later ∧ written (rawSend data outcomes).events = data ∧
        .failed ∉ (rawSend data outcomes).events := by
  induction accepts with
  | all outcomes =>
      intro data none
      rw [List.length_eq_zero_iff] at none
      subst none
      cases outcomes <;> exact ⟨rfl, rfl, by simp [rawSend]⟩
  | @part len count outcome outcomes later more accepted _ ih =>
      intro data length
      have nonempty : data ≠ [] := by
        rintro rfl
        exact more length.symm
      obtain ⟨sameLater, all, clean⟩ := ih (show (data.drop count).length = len - count by
        rw [List.length_drop, length])
      rw [rawSend, if_neg nonempty, length, accepted]
      refine ⟨sameLater, ?_, ?_⟩
      · dsimp only
        rw [written_cons, all, List.take_append_drop]
      · simpa using clean

theorem rawSend_cases (outcomes : List WriteOutcome) : ∀ data : List UInt8,
    (∃ later, Accepts data.length outcomes later) ∨
      (written (rawSend data outcomes).events).length < data.length := by
  induction outcomes with
  | nil =>
      intro data
      cases data with
      | nil => exact Or.inl ⟨[], .all []⟩
      | cons byte rest => exact Or.inr (by simp [rawSend, written])
  | cons outcome outcomes ih =>
      intro data
      by_cases none : data = []
      · subst none
        exact Or.inl ⟨_, .all _⟩
      · have more : data.length ≠ 0 := by
          rw [Ne, List.length_eq_zero_iff]
          exact none
        rw [rawSend, if_neg none]
        cases accepted : sslWrite ((data.length : Int).bmod (2 ^ 32)) outcome with
        | none => exact Or.inr (by simp [written]; omega)
        | some count =>
            rcases ih (data.drop count) with ⟨later, accepts⟩ | short
            · rw [List.length_drop] at accepts
              exact Or.inl ⟨later, .part more accepted accepts⟩
            · right
              dsimp only
              rw [written_cons, List.length_append, List.length_take]
              rw [List.length_drop] at short
              omega

theorem written_rawSend_le (outcomes : List WriteOutcome) (data : List UInt8) :
    (written (rawSend data outcomes).events).length ≤ data.length := by
  rcases rawSend_cases outcomes data with ⟨later, accepts⟩ | short
  · have whole := congrArg List.length (rawSend_accepts accepts rfl).2.1
    exact Nat.le_of_eq whole
  · exact Nat.le_of_lt short

section Frame
variable {opcode : UInt8} {maskKey : Vector UInt8 4} {payload : List UInt8}

theorem sendFrameTo_accepts {middle later : List WriteOutcome}
    (header : Accepts (sendHeader opcode maskKey payload.length).length outcomes middle)
    (body : Accepts payload.length middle later) :
    written (sendFrameTo opcode maskKey payload outcomes) = sendFrame opcode maskKey payload ∧
      .failed ∉ sendFrameTo opcode maskKey payload outcomes := by
  obtain ⟨sameLater, writtenHeader, cleanHeader⟩ := rawSend_accepts header rfl
  obtain ⟨-, writtenBody, cleanBody⟩ := rawSend_accepts body (length_sendBody maskKey payload)
  rw [sendFrameTo, sameLater]
  constructor
  · rw [written_append, writtenHeader, writtenBody, sendFrame]
  · intro failed
    rcases List.mem_append.mp failed with inHeader | inBody
    · exact cleanHeader inHeader
    · exact cleanBody inBody

theorem accepts_of_written
    (all : written (sendFrameTo opcode maskKey payload outcomes) =
      sendFrame opcode maskKey payload) :
    ∃ middle later,
      Accepts (sendHeader opcode maskKey payload.length).length outcomes middle ∧
        Accepts payload.length middle later := by
  rw [sendFrameTo, written_append, sendFrame] at all
  have lengths := congrArg List.length all
  rw [List.length_append, List.length_append] at lengths
  rcases rawSend_cases outcomes (sendHeader opcode maskKey payload.length) with
    ⟨middle, header⟩ | short
  · obtain ⟨sameLater, writtenHeader, -⟩ := rawSend_accepts header rfl
    rw [sameLater, writtenHeader] at lengths
    rcases rawSend_cases middle (sendBody maskKey payload) with ⟨later, body⟩ | short
    · rw [length_sendBody] at body
      exact ⟨middle, later, header, body⟩
    · omega
  · have atMost := written_rawSend_le
      (rawSend (sendHeader opcode maskKey payload.length) outcomes).later
      (sendBody maskKey payload)
    omega

end Frame

/-- `Send` tells the truth exactly when the connection is not open, or no call of
`SSL_write` fails before the header and then the body are accepted. -/
theorem send_tellsTruth_iff (isOpen : Bool) (maskKey : Vector UInt8 4) (payload : List UInt8)
    (outcomes : List WriteOutcome) :
    TellsTruth (sendFrame textOpcode maskKey payload) (send isOpen maskKey payload outcomes) ↔
      (isOpen = true → ∃ middle later,
        Accepts (sendHeader textOpcode maskKey payload.length).length outcomes middle ∧
          Accepts payload.length middle later) := by
  cases isOpen with
  | false =>
      refine iff_of_true ⟨fun impossible => ?_, fun before after split => ?_⟩
        fun impossible => ?_
      · cases impossible
      · exact absurd split.symm (by simp [send])
      · cases impossible
  | true =>
      rw [forall_prop_of_true rfl, send, if_pos rfl]
      constructor
      · intro truth
        exact accepts_of_written (truth.sent rfl)
      · rintro ⟨middle, later, header, body⟩
        obtain ⟨whole, clean⟩ := sendFrameTo_accepts header body
        refine ⟨fun _ => whole, fun before after split => ?_⟩
        dsimp only at split
        exact absurd (by rw [split]; simp) clean

/-- A ping on a connection that is gone is reported as sent. -/
theorem failed_send_reported_true : ¬ ∀ (isOpen : Bool) (maskKey : Vector UInt8 4)
    (payload : List UInt8) (outcomes : List WriteOutcome),
      TellsTruth (sendFrame textOpcode maskKey payload)
        (send isOpen maskKey payload outcomes) := by
  intro claim
  have sent := (claim true #v[1, 2, 3, 4] [0x70, 0x69, 0x6E, 0x67] [.fails, .fails]).sent rfl
  exact absurd sent (by decide +kernel)

end Send

end WsClient

end CryptoTrading
