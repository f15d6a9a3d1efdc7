import CryptoTrading.Common.Https

/-! # The chunk loop

On a body that was encoded in chunks the loop gives back the data of the chunks.
On an arbitrary body it can be sent backwards: the size is read from the text
unchecked, and a number just below 2^64 passes the test of the bounds, whose sum
wraps around, and takes the cursor to where it was or before. -/
set_option autoImplicit false

namespace CryptoTrading

namespace Https

open TextSearch

/-! ## Encoded chunks -/

/-- A number in hexadecimal, in any letter case and with any leading zeros. -/
def SpellsHex (text : List UInt8) (value : ℕ) : Prop :=
  text ≠ [] ∧ (∀ byte ∈ text, (hexDigit byte).isSome = true) ∧ hexValue 0 text = value

/-- What may stand between a size and the end of its line. -/
def ChunkExtension (text : List UInt8) : Prop :=
  (text = [] ∨ ∃ rest, text = 0x3B :: rest) ∧ ¬ crlf <:+: text

structure Chunk where
  size : List UInt8
  extension : List UInt8
  data : List UInt8
  nonempty : data ≠ []
  spelled : SpellsHex size data.length
  extended : ChunkExtension extension

def Chunk.bytes (chunk : Chunk) : List UInt8 :=
  chunk.size ++ chunk.extension ++ crlf ++ (chunk.data ++ crlf)

/-- The chunk of size zero, and whatever stands behind its line. -/
structure LastChunk where
  size : List UInt8
  extension : List UInt8
  trailer : List UInt8
  spelled : SpellsHex size 0
  extended : ChunkExtension extension

def LastChunk.bytes (last : LastChunk) : List UInt8 :=
  last.size ++ last.extension ++ crlf ++ last.trailer

/-! ## A size line -/

section SizeLine
variable {size extension rest : List UInt8}

theorem hexDigit_isSome {byte : UInt8} (digit : (hexDigit byte).isSome = true) :
    isSpace byte = false ∧ byte ≠ 0x2D ∧ byte ≠ 0x2B ∧ byte ≠ 0x78 ∧ byte ≠ 0x58 ∧
      byte ≠ 0x0D ∧ byte ≠ 0x0A ∧ byte ≠ 0x3B := by
  have bytes : ∀ bits : BitVec 8, (hexDigit ⟨bits⟩).isSome = true →
      isSpace ⟨bits⟩ = false ∧ (⟨bits⟩ : UInt8) ≠ 0x2D ∧ (⟨bits⟩ : UInt8) ≠ 0x2B ∧
        (⟨bits⟩ : UInt8) ≠ 0x78 ∧ (⟨bits⟩ : UInt8) ≠ 0x58 ∧ (⟨bits⟩ : UInt8) ≠ 0x0D ∧
        (⟨bits⟩ : UInt8) ≠ 0x0A ∧ (⟨bits⟩ : UInt8) ≠ 0x3B := by
    decide +kernel
  exact bytes byte.toBitVec digit

theorem hexValue_append (digits : ∀ byte ∈ size, (hexDigit byte).isSome = true)
    {next : UInt8} (stops : hexDigit next = none) : ∀ value,
      hexValue value (size ++ next :: rest) = hexValue value size := by
  induction size with
  | nil =>
      intro value
      simp only [List.nil_append, hexValue, stops]
  | cons byte others ih =>
      intro value
      obtain ⟨digit, read⟩ := Option.isSome_iff_exists.mp (digits byte List.mem_cons_self)
      rw [List.cons_append, hexValue, hexValue, read]
      exact ih (fun other member => digits other (List.mem_cons_of_mem _ member)) _

theorem skipPrefix_unmarked {zero mark : UInt8} (notLower : mark ≠ 0x78) (notUpper : mark ≠ 0x58)
    (rest : List UInt8) : skipPrefix (zero :: mark :: rest) = zero :: mark :: rest := by
  cases rest with
  | nil => rfl
  | cons digit others => exact if_neg fun marked => marked.2.1.elim notLower notUpper

def EndsSize (next : UInt8) : Prop := hexDigit next = none ∧ next ≠ 0x78 ∧ next ≠ 0x58

theorem strtoul_size {value : ℕ} (spelled : SpellsHex size value) (small : value < 2 ^ 64)
    {next : UInt8} (ends : EndsSize next) : strtoul (size ++ next :: rest) = value := by
  obtain ⟨nonempty, digits, reads⟩ := spelled
  obtain ⟨stops, notLower, notUpper⟩ := ends
  cases size with
  | nil => exact absurd rfl nonempty
  | cons first others =>
      obtain ⟨notSpace, notMinus, notPlus, -⟩ := hexDigit_isSome (digits first List.mem_cons_self)
      have noPrefix : skipPrefix (first :: (others ++ next :: rest)) =
          first :: (others ++ next :: rest) := by
        cases others with
        | nil => exact skipPrefix_unmarked notLower notUpper rest
        | cons second more =>
            obtain ⟨-, -, -, secondLower, secondUpper, -⟩ :=
              hexDigit_isSome (digits second (by simp))
            exact skipPrefix_unmarked secondLower secondUpper _
      have magnitude : hexValue 0 (first :: (others ++ next :: rest)) = value := by
        rw [← List.cons_append, hexValue_append digits stops, reads]
      have kept : (first :: (others ++ next :: rest)).dropWhile isSpace =
          first :: (others ++ next :: rest) := by
        rw [List.dropWhile_cons_of_neg (by simp [notSpace])]
      simp only [strtoul, List.cons_append, kept, List.head?_cons, Option.some.injEq, notMinus,
        notPlus, or_self, if_false, noPrefix, magnitude, ge_iff_le, not_le.mpr small]

theorem endsAtFirst_sizeLine (digits : ∀ byte ∈ size, (hexDigit byte).isSome = true)
    (extended : ChunkExtension extension) : EndsAtFirst crlf (size ++ extension) := by
  refine endsAtFirst_pair (by decide) ?_
  induction size with
  | nil => exact extended.2
  | cons byte others ih =>
      obtain ⟨-, -, -, -, -, notReturn, -⟩ := hexDigit_isSome (digits byte List.mem_cons_self)
      rw [List.cons_append, List.infix_cons_iff]
      rintro (here | later)
      · exact notReturn (List.cons_prefix_cons.mp here).1.symm
      · exact ih (fun other member => digits other (List.mem_cons_of_mem _ member)) later

theorem strtoul_sizeLine {value : ℕ} (spelled : SpellsHex size value) (small : value < 2 ^ 64)
    (extended : ChunkExtension extension) :
    strtoul (size ++ extension ++ crlf ++ rest) = value := by
  rcases extended.1 with rfl | ⟨others, rfl⟩
  · rw [List.append_nil, List.append_assoc]
    exact strtoul_size spelled small ⟨rfl, by decide, by decide⟩
  · rw [List.append_assoc, List.append_assoc]
    exact strtoul_size spelled small ⟨rfl, by decide, by decide⟩

end SizeLine

/-! ## Decoding -/

section Decoding
variable {body : StdString} {before rest decoded : List UInt8}

theorem wrap_of_lt {value : ℕ} (small : value < 2 ^ 64) : wrap value = value :=
  Nat.mod_eq_of_lt small

/-- The cursor stands at a chunk: its data is taken and the cursor put behind it. -/
theorem chunkStep_chunk (chunk : Chunk) (split : body.1 = before ++ (chunk.bytes ++ rest)) :
    chunkStep body.1 ⟨before.length, decoded⟩ =
      some ⟨(before ++ chunk.bytes).length, decoded ++ chunk.data⟩ := by
  obtain ⟨size, extension, data, nonempty, spelled, extended⟩ := chunk
  have line : body.1 = before ++ (size ++ extension ++ crlf ++ (data ++ (crlf ++ rest))) := by
    rw [split, Chunk.bytes]
    simp only [List.append_assoc]
  have total := congrArg List.length line
  have room := body.2
  have crlfLength : crlf.length = 2 := rfl
  simp only [List.length_append, crlfLength] at total
  have positive := List.length_pos_of_ne_nil nonempty
  have found : findFrom crlf body.1 before.length =
      some (before.length + (size ++ extension).length) := by
    rw [line]
    exact findFrom_line (by decide) (endsAtFirst_sizeLine spelled.2.1 extended)
  have number : strtoul (body.1.drop before.length) = data.length := by
    rw [line, List.drop_left]
    exact strtoul_sizeLine spelled (by omega) extended
  have taken : (body.1.drop (before.length + (size ++ extension).length + 2)).take data.length =
      data := by
    have front : body.1 = (before ++ (size ++ extension) ++ crlf) ++ (data ++ (crlf ++ rest)) := by
      rw [line]
      simp only [List.append_assoc]
    have position : before.length + (size ++ extension).length + 2 =
        (before ++ (size ++ extension) ++ crlf).length := by
      simp only [List.length_append, crlfLength]
    rw [position, front, List.drop_left, List.take_left]
  have fits : before.length + (size ++ extension).length + 2 + data.length ≤ body.1.length := by
    rw [List.length_append]
    omega
  rw [chunkStep, if_pos (by dsimp only; omega), found]
  dsimp only
  rw [number, if_neg positive.ne', wrap_of_lt (by omega), if_neg (not_lt.mpr fits), taken,
    @wrap_of_lt (data.length + 2) (by omega), wrap_of_lt (by omega)]
  congr 2
  simp only [Chunk.bytes, List.length_append, crlfLength]
  omega

theorem chunkStep_last (last : LastChunk) (split : body.1 = before ++ last.bytes) :
    chunkStep body.1 ⟨before.length, decoded⟩ = none := by
  obtain ⟨size, extension, trailer, spelled, extended⟩ := last
  rw [LastChunk.bytes] at split
  have found : findFrom crlf body.1 before.length =
      some (before.length + (size ++ extension).length) := by
    rw [split]
    exact findFrom_line (by decide) (endsAtFirst_sizeLine spelled.2.1 extended)
  have number : strtoul (body.1.drop before.length) = 0 := by
    rw [split, List.drop_left]
    exact strtoul_sizeLine spelled (by decide) extended
  rw [chunkStep]
  split
  · rw [found]
    dsimp only
    rw [number, if_pos rfl]
  · rfl

theorem chunkLoop_chunks (last : LastChunk) (chunks : List Chunk) :
    ∀ {before decoded : List UInt8},
      body.1 = before ++ (chunks.flatMap Chunk.bytes ++ last.bytes) →
      ∀ turns, chunks.length < turns → chunkLoop body.1 turns ⟨before.length, decoded⟩ =
        some (decoded ++ chunks.flatMap Chunk.data) := by
  induction chunks with
  | nil =>
      intro before decoded split turns enough
      cases turns with
      | zero => exact absurd enough (Nat.not_lt_zero _)
      | succ turns =>
          rw [chunkLoop, chunkStep_last last split]
          simp
  | cons chunk others ih =>
      intro before decoded split turns enough
      cases turns with
      | zero => exact absurd enough (Nat.not_lt_zero _)
      | succ turns =>
          have here : body.1 = before ++ (chunk.bytes ++
              (others.flatMap Chunk.bytes ++ last.bytes)) := by
            rw [split, List.flatMap_cons, List.append_assoc]
          have onward : body.1 = (before ++ chunk.bytes) ++
              (others.flatMap Chunk.bytes ++ last.bytes) := by
            rw [here, List.append_assoc]
          rw [chunkLoop, chunkStep_chunk chunk here]
          dsimp only
          rw [ih onward turns (Nat.lt_of_succ_lt_succ enough), List.append_assoc,
            List.flatMap_cons]

/-- The loop ends, and gives back the data of the chunks. -/
theorem chunkLoop_encoded (chunks : List Chunk) (last : LastChunk)
    (encoded : body.1 = chunks.flatMap Chunk.bytes ++ last.bytes) :
    ∃ enough, ∀ turns, enough ≤ turns →
      chunkLoop body.1 turns {} = some (chunks.flatMap Chunk.data) := by
  refine ⟨chunks.length + 1, fun turns suffice => ?_⟩
  have start : body.1 = [] ++ (chunks.flatMap Chunk.bytes ++ last.bytes) := encoded
  exact chunkLoop_chunks last chunks start turns suffice

end Decoding

/-- Five bytes that look like framing, in a chunk with an extension. -/
def framingChunk : Chunk :=
  { size := ascii "05", extension := ascii ";a", data := ascii "\r\n0\r\n"
    nonempty := by decide
    spelled := by
      refine ⟨by decide, ?_, by decide +kernel⟩
      intro byte member
      have digits : (ascii "05").all fun byte => (hexDigit byte).isSome := by decide +kernel
      exact List.all_eq_true.mp digits byte member
    extended := ⟨Or.inr ⟨ascii "a", by decide +kernel⟩, by decide +kernel⟩ }

def emptyLast : LastChunk :=
  { size := ascii "0", extension := [], trailer := crlf
    spelled := by
      refine ⟨by decide, ?_, by decide +kernel⟩
      intro byte member
      have digits : (ascii "0").all fun byte => (hexDigit byte).isSome := by decide +kernel
      exact List.all_eq_true.mp digits byte member
    extended := ⟨Or.inl rfl, by decide +kernel⟩ }

theorem chunkLoop_encoded_framing : ∃ enough, ∀ turns, enough ≤ turns →
    chunkLoop (ascii "05;a\r\n\r\n0\r\n\r\n0\r\n\r\n") turns {} =
      some (ascii "\r\n0\r\n") := by
  have encoded : ascii "05;a\r\n\r\n0\r\n\r\n0\r\n\r\n" =
      [framingChunk].flatMap Chunk.bytes ++ emptyLast.bytes := by decide +kernel
  exact @chunkLoop_encoded ⟨_, by decide +kernel⟩ [framingChunk] emptyLast encoded

/-! ## Arbitrary bodies -/

inductive Reached (body : List UInt8) : ChunkState → Prop where
  | start : Reached body {}
  | turn {state next : ChunkState} (reached : Reached body state)
      (stepped : chunkStep body state = some next) : Reached body next

/-- The loop ends; a turn that continues moves the cursor on and appends no more
than there is behind its size line. -/
structure WellBehaved (body : List UInt8) : Prop where
  ends : ∃ turns decoded, chunkLoop body turns {} = some decoded
  advances : ∀ state next, Reached body state → chunkStep body state = some next →
    state.pos < next.pos
  bounded : ∀ state next, Reached body state → chunkStep body state = some next →
    ∃ crlfPos piece, findFrom crlf body state.pos = some crlfPos ∧
      next.decoded = state.decoded ++ piece ∧ piece.length ≤ body.length - (crlfPos + 2)

/-- The size line at `pos` holds a number that, counted on from behind the line
and the line end after the data, comes round to `pos` or before it. -/
def TurnsBack (body : List UInt8) (pos : ℕ) : Prop :=
  pos < body.length ∧ ∃ crlfPos, findFrom crlf body pos = some crlfPos ∧
    2 ^ 64 ≤ strtoul (body.drop pos) + (crlfPos + 2) ∧
    strtoul (body.drop pos) + (crlfPos + 4) ≤ 2 ^ 64 + pos

section Arbitrary
variable {body : StdString} {state next : ChunkState}

theorem strtoul_lt (text : List UInt8) : strtoul text < 2 ^ 64 := by
  unfold strtoul
  extract_lets text negative unsigned magnitude
  by_cases large : magnitude ≥ 2 ^ 64
  · rw [if_pos large]
    decide
  · rw [if_neg large]
    split
    · exact Nat.mod_lt _ (by decide)
    · exact not_le.mp large

theorem chunkStep_some (stepped : chunkStep body.1 state = some next) :
    state.pos < body.1.length ∧ ∃ crlfPos, findFrom crlf body.1 state.pos = some crlfPos ∧
      crlfPos + 2 ≤ body.1.length ∧ state.pos ≤ crlfPos ∧
      wrap (crlfPos + 2 + strtoul (body.1.drop state.pos)) ≤ body.1.length ∧
      next.pos = wrap (crlfPos + 2 + wrap (strtoul (body.1.drop state.pos) + 2)) ∧
      next.decoded = state.decoded ++
        (body.1.drop (crlfPos + 2)).take (strtoul (body.1.drop state.pos)) := by
  rw [chunkStep] at stepped
  split at stepped
  · next inside =>
      split at stepped
      · cases stepped
      · next crlfPos found =>
          dsimp only at stepped
          split at stepped
          · cases stepped
          · split at stepped
            · cases stepped
            · next fits =>
                cases stepped
                obtain ⟨later, within⟩ := findFrom_some found
                exact ⟨inside, crlfPos, found, within, later, not_lt.mp fits, rfl, rfl⟩
  · cases stepped

theorem advances_iff (stepped : chunkStep body.1 state = some next) :
    state.pos < next.pos ↔ ¬ TurnsBack body.1 state.pos := by
  obtain ⟨inside, crlfPos, found, within, later, fits, position, -⟩ := chunkStep_some stepped
  have turns : TurnsBack body.1 state.pos ↔
      2 ^ 64 ≤ strtoul (body.1.drop state.pos) + (crlfPos + 2) ∧
        strtoul (body.1.drop state.pos) + (crlfPos + 4) ≤ 2 ^ 64 + state.pos := by
    constructor
    · rintro ⟨-, other, foundOther, bounds⟩
      rw [found] at foundOther
      cases foundOther
      exact bounds
    · exact fun bounds => ⟨inside, crlfPos, found, bounds⟩
  have small := strtoul_lt (body.1.drop state.pos)
  have room := body.2
  rw [turns, position]
  rw [wrap] at fits ⊢
  rw [wrap]
  omega

theorem chunkStep_turnsBack (turns : TurnsBack body.1 state.pos) :
    ∃ next, chunkStep body.1 state = some next := by
  obtain ⟨inside, crlfPos, found, wraps, -⟩ := turns
  obtain ⟨-, within⟩ := findFrom_some found
  have crlfLength : crlf.length = 2 := rfl
  have small := strtoul_lt (body.1.drop state.pos)
  have room := body.2
  rw [crlfLength] at within
  have nonzero : strtoul (body.1.drop state.pos) ≠ 0 := by omega
  have fits : ¬ wrap (crlfPos + 2 + strtoul (body.1.drop state.pos)) > body.1.length := by
    rw [wrap]
    omega
  rw [chunkStep, if_pos inside, found]
  dsimp only
  rw [if_neg nonzero, if_neg fits]
  exact ⟨_, rfl⟩

theorem chunkLoop_ends (advances : ∀ state next, Reached body.1 state →
    chunkStep body.1 state = some next → state.pos < next.pos) (turns : ℕ) :
    ∀ state, Reached body.1 state → body.1.length - state.pos < turns →
      ∃ decoded, chunkLoop body.1 turns state = some decoded := by
  induction turns with
  | zero =>
      intro state _ impossible
      exact absurd impossible (Nat.not_lt_zero _)
  | succ turns ih =>
      intro state reached enough
      rw [chunkLoop]
      cases stepped : chunkStep body.1 state with
      | none => exact ⟨_, rfl⟩
      | some next =>
          obtain ⟨inside, -⟩ := chunkStep_some stepped
          have onward := advances state next reached stepped
          exact ih next (.turn reached stepped) (by omega)

/-- The chunk loop is well behaved exactly when no size line it comes to turns
back. -/
theorem wellBehaved_iff (body : StdString) :
    WellBehaved body.1 ↔ ∀ state, Reached body.1 state → ¬ TurnsBack body.1 state.pos := by
  constructor
  · intro behaved state reached turns
    obtain ⟨next, stepped⟩ := chunkStep_turnsBack turns
    exact (advances_iff stepped).mp (behaved.advances state next reached stepped) turns
  · intro onward
    have advances : ∀ state next, Reached body.1 state → chunkStep body.1 state = some next →
        state.pos < next.pos :=
      fun state _ reached stepped => (advances_iff stepped).mpr (onward state reached)
    obtain ⟨decoded, ended⟩ := chunkLoop_ends advances (body.1.length + 1) {} .start
      (Nat.lt_succ_of_le (Nat.sub_le _ _))
    refine ⟨⟨_, decoded, ended⟩, advances, ?_⟩
    intro state next reached stepped
    obtain ⟨-, crlfPos, found, -, -, -, -, appended⟩ := chunkStep_some stepped
    refine ⟨crlfPos, _, found, appended, ?_⟩
    rw [List.length_take, List.length_drop]
    exact Nat.min_le_right _ _

def minusSix : List UInt8 := ascii "1\r\na\r\n-6\r\n"

/-- A second size line of -6 sends the loop round and round. -/
theorem chunkLoop_minusSix (turns : ℕ) : chunkLoop minusSix turns {} = none := by
  have first : chunkStep minusSix {} = some ⟨6, ascii "a"⟩ := by decide +kernel
  have again : chunkStep minusSix ⟨6, ascii "a"⟩ = some ⟨6, ascii "a"⟩ := by decide +kernel
  have round : ∀ turns, chunkLoop minusSix turns ⟨6, ascii "a"⟩ = none := by
    intro turns
    induction turns with
    | zero => rfl
    | succ turns ih =>
        rw [chunkLoop, again]
        exact ih
  cases turns with
  | zero => rfl
  | succ turns =>
      rw [chunkLoop, first]
      exact round turns

theorem minus_six_loops : ¬ ∀ body : StdString, WellBehaved body.1 := by
  intro claim
  obtain ⟨turns, decoded, ended⟩ := (claim ⟨minusSix, by decide +kernel⟩).ends
  rw [show chunkLoop _ turns {} = none from chunkLoop_minusSix turns] at ended
  cases ended

end Arbitrary

end Https

end CryptoTrading
