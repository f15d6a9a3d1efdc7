import CryptoTrading.Common.Chunks
import CryptoTrading.Common.HeaderScan

/-! # Responses that are cut off

`HttpsRequest` from the name lookup to the text it returns.  A connection that
breaks is read like one that was closed behind the response, so what the caller
gets is the part of the body that has arrived: of a plain body its first bytes,
of a chunked one the chunks whose data are complete. -/
set_option autoImplicit false

namespace CryptoTrading

namespace Https

open TextSearch

/-! ## The connection -/

/-- What the calls on the way return.  The pieces are those of successive calls
of `recv` and `SSL_read`; an empty one stands for an end or an error. -/
structure Peer where
  resolves : Bool
  connects : List Bool
  proxied : Bool
  proxyPieces : List (List UInt8)
  handshakes : Bool
  pieces : List (List UInt8)

/-- The loop that waits for the end of the header block of the proxy. -/
def proxyResponse : List UInt8 → List (List UInt8) → Option (List UInt8)
  | _, [] => none
  | received, piece :: rest =>
      if piece = [] then none
      else if crlf ++ crlf <:+: received ++ piece then some (received ++ piece)
      else proxyResponse (received ++ piece) rest

def Peer.proxyAccepts (peer : Peer) : Bool :=
  match proxyResponse [] peer.proxyPieces with
  | none => false
  | some response => Has response "200"

def Peer.opens (peer : Peer) : Bool :=
  peer.resolves && peer.connects.any id && (!peer.proxied || peer.proxyAccepts) &&
    peer.handshakes

/-- The loop of `SSL_read` calls. -/
def readResponse (pieces : List (List UInt8)) : List UInt8 :=
  (pieces.takeWhile (· ≠ [])).flatten

/-- What `HttpsRequest` returns, as far as the turns of the chunk loop suffice. -/
def httpsRequest (peer : Peer) (turns : ℕ) : Option (List UInt8) :=
  if peer.opens then responseBody (readResponse peer.pieces) turns else some []

example : httpsRequest
    { resolves := true, connects := [false, true], proxied := true, handshakes := true
      proxyPieces := [ascii "HTTP/1.1 200", ascii " OK\r\n\r\n"]
      pieces := [ascii "HTTP/1.1 200 OK\r\n\r", ascii "\nab", [], ascii "c"] } 1 =
    some (ascii "ab") := by decide +kernel

/-! ## What the server sends -/

inductive SentBody where
  | plain (data : List UInt8)
  | chunked (chunks : List Chunk) (last : LastChunk)

namespace SentBody

def isChunked : SentBody → Bool
  | .plain _ => false
  | .chunked _ _ => true

def bytes : SentBody → List UInt8
  | .plain data => data
  | .chunked chunks last => chunks.flatMap Chunk.bytes ++ last.bytes

def data : SentBody → List UInt8
  | .plain data => data
  | .chunked chunks _ => chunks.flatMap Chunk.data

end SentBody

def Chunk.front (chunk : Chunk) : List UInt8 :=
  chunk.size ++ chunk.extension ++ crlf ++ chunk.data

def arrivedChunks : ℕ → List Chunk → List Chunk
  | _, [] => []
  | count, chunk :: rest =>
      if chunk.front.length ≤ count then chunk :: arrivedChunks (count - chunk.bytes.length) rest
      else []

def SentBody.arrived (count : ℕ) : SentBody → List UInt8
  | .plain data => data.take count
  | .chunked chunks _ => (arrivedChunks count chunks).flatMap Chunk.data

structure SentResponse where
  header : HeaderBlock
  body : SentBody
  fieldsNonempty : ∀ field ∈ header.fields, field ≠ []

namespace SentResponse
variable (response : SentResponse)

def head : List UInt8 := response.header.bytes ++ (crlf ++ crlf)

def bytes : List UInt8 := response.head ++ response.body.bytes

/-- What the scan makes of the header block is how the body is sent.  It is not for
every response: the scan misses a field spelled in another case. -/
def Announced : Prop :=
  (∃ field ∈ response.header.fields, NamesChunked field) ↔ response.body.isChunked = true

/-- The data within the first bytes; there are none before the header block is
complete. -/
def arrived (count : ℕ) : List UInt8 :=
  if response.head.length ≤ count then response.body.arrived (count - response.head.length)
  else []

end SentResponse

/-! ## Where the header block ends -/

section Head
variable {line rest : List UInt8}

theorem lineEnd_notStarted (clear : ¬ crlf <:+: line) {before after : List UInt8}
    (split : line = before ++ after) (nonempty : after ≠ []) :
    ¬ crlf <+: after ++ (crlf ++ rest) := by
  intro here
  rw [← List.append_assoc] at here
  refine endsAtFirst_pair (by decide) clear before after split nonempty ?_
  refine List.prefix_of_prefix_length_le here (List.prefix_append _ rest) ?_
  rw [List.length_append]
  omega

theorem find_overLine (clear : ¬ crlf <:+: line) :
    find (crlf ++ crlf) (line ++ (crlf ++ rest)) =
      (find (crlf ++ crlf) (crlf ++ rest)).map (line.length + ·) := by
  refine find_skip fun before after split nonempty here => ?_
  exact lineEnd_notStarted clear split nonempty ((List.prefix_append crlf crlf).trans here)

theorem find_overLineEnd (clear : ¬ crlf <:+: line) (nonempty : line ≠ []) :
    find (crlf ++ crlf) (crlf ++ (line ++ (crlf ++ rest))) =
      (find (crlf ++ crlf) (line ++ (crlf ++ rest))).map (crlf.length + ·) := by
  refine find_skip fun before after split remains here => ?_
  rcases before with _ | ⟨one, _ | ⟨two, more⟩⟩
  · rw [List.nil_append] at split
    rw [← split, List.prefix_append_right_inj] at here
    exact lineEnd_notStarted clear (List.nil_append line).symm nonempty here
  · obtain ⟨-, tail⟩ := List.cons.inj split
    rw [show after = [0x0A] from tail.symm] at here
    exact absurd (List.cons_prefix_cons.mp here).1 (by decide)
  · obtain ⟨-, tail⟩ := List.cons.inj split
    obtain ⟨-, tail⟩ := List.cons.inj tail
    exact remains (List.append_eq_nil_iff.mp tail.symm).2

theorem fieldBytes_lineEnd (fields : List (List UInt8)) (rest : List UInt8) :
    ∃ more, fieldBytes fields ++ (crlf ++ (crlf ++ rest)) = crlf ++ more := by
  cases fields with
  | nil => exact ⟨crlf ++ rest, rfl⟩
  | cons first others =>
      refine ⟨first ++ fieldBytes others ++ (crlf ++ (crlf ++ rest)), ?_⟩
      simp only [fieldBytes, List.flatMap_cons, List.append_assoc]

theorem find_head (fields : List (List UInt8)) : ∀ {line : List UInt8}, ¬ crlf <:+: line →
    (∀ field ∈ fields, ¬ crlf <:+: field) → (∀ field ∈ fields, field ≠ []) →
    find (crlf ++ crlf) (line ++ (fieldBytes fields ++ (crlf ++ (crlf ++ rest)))) =
      some (line ++ fieldBytes fields).length := by
  induction fields with
  | nil =>
      intro line clear _ _
      have here : find (crlf ++ crlf) (crlf ++ (crlf ++ rest)) = some 0 := by
        rw [← List.append_assoc]
        exact if_pos (List.prefix_append _ _)
      rw [fieldBytes, List.flatMap_nil, List.nil_append, List.append_nil, find_overLine clear,
        here]
      rfl
  | cons first others ih =>
      intro line clear fieldsClear nonempty
      have firstClear := fieldsClear first List.mem_cons_self
      have onward := @ih first firstClear
        (fun field member => fieldsClear field (List.mem_cons_of_mem _ member))
        (fun field member => nonempty field (List.mem_cons_of_mem _ member))
      have text : fieldBytes (first :: others) ++ (crlf ++ (crlf ++ rest)) =
          crlf ++ (first ++ (fieldBytes others ++ (crlf ++ (crlf ++ rest)))) := by
        simp only [fieldBytes, List.flatMap_cons, List.append_assoc]
      obtain ⟨more, follows⟩ := fieldBytes_lineEnd others rest
      rw [follows] at onward text
      rw [text, find_overLine clear, find_overLineEnd firstClear (nonempty _ List.mem_cons_self),
        onward]
      simp only [Option.map_some, Option.some.injEq, fieldBytes, List.flatMap_cons,
        List.length_append]
      omega

end Head

/-! ## The chunk loop on the first bytes of a body -/

section Cut
variable {body : StdString} {before rest decoded : List UInt8} {count : ℕ}

theorem find_sizeLine {size extension : List UInt8}
    (digits : ∀ byte ∈ size, (hexDigit byte).isSome = true) (extended : ChunkExtension extension)
    (split : body.1 = before ++ (size ++ extension ++ crlf ++ rest)) :
    findFrom crlf (body.1.take count) before.length =
      if before.length + (size ++ extension).length + 2 ≤ count then
        some (before.length + (size ++ extension).length)
      else none := by
  have found : findFrom crlf body.1 before.length =
      some (before.length + (size ++ extension).length) := by
    rw [split]
    exact findFrom_line (by decide) (endsAtFirst_sizeLine digits extended)
  have two : crlf.length = 2 := rfl
  rw [findFrom_take (by decide), found, Option.filter, two]
  simp only [decide_eq_true_eq]

theorem strtoul_arrived {size extension : List UInt8} {value : ℕ}
    (spelled : SpellsHex size value) (extended : ChunkExtension extension)
    (small : value < 2 ^ 64)
    (split : body.1 = before ++ (size ++ extension ++ crlf ++ rest))
    (arrived : before.length + (size ++ extension).length + 2 ≤ count) :
    strtoul ((body.1.take count).drop before.length) = value := by
  have two : crlf.length = 2 := rfl
  obtain ⟨more, enough⟩ : ∃ more, count - before.length =
      (size ++ extension ++ crlf).length + more := by
    refine ⟨count - before.length - (size ++ extension ++ crlf).length, ?_⟩
    rw [@List.length_append _ (size ++ extension) crlf, two]
    omega
  rw [List.drop_take, split, List.drop_left, enough, List.take_length_add_append]
  exact strtoul_sizeLine spelled small extended

theorem length_bytes (chunk : Chunk) : chunk.bytes.length = chunk.front.length + 2 := by
  rw [Chunk.bytes, Chunk.front]
  simp only [List.length_append]
  rfl

/-- A chunk is taken when its data have arrived; the line end behind them is not
waited for. -/
theorem chunkStep_cut (chunk : Chunk) (split : body.1 = before ++ (chunk.bytes ++ rest)) :
    chunkStep (body.1.take count) ⟨before.length, decoded⟩ =
      if before.length + chunk.front.length ≤ count then
        some ⟨(before ++ chunk.bytes).length, decoded ++ chunk.data⟩
      else none := by
  have whole := length_bytes chunk
  obtain ⟨size, extension, data, nonempty, spelled, extended⟩ := chunk
  have line : body.1 = before ++ (size ++ extension ++ crlf ++ (data ++ (crlf ++ rest))) := by
    rw [split, Chunk.bytes]
    simp only [List.append_assoc]
  have total := congrArg List.length line
  have room := body.2
  have two : crlf.length = 2 := rfl
  have positive := List.length_pos_of_ne_nil nonempty
  have reach := @List.length_take _ count body.1
  simp only [Chunk.front, List.length_append, two] at whole total ⊢
  rw [chunkStep, find_sizeLine spelled.2.1 extended line]
  dsimp only
  by_cases lineArrived : before.length + (size ++ extension).length + 2 ≤ count
  · rw [if_pos lineArrived]
    rw [List.length_append] at lineArrived
    dsimp only
    rw [strtoul_arrived spelled extended (by omega) line (by rwa [List.length_append]),
      List.length_append, if_neg positive.ne', wrap_of_lt (by omega),
      @wrap_of_lt (data.length + 2) (by omega), wrap_of_lt (by omega)]
    by_cases dataArrived :
        before.length + (size.length + extension.length + 2 + data.length) ≤ count
    · have front : body.1 =
          (before ++ (size ++ extension) ++ crlf) ++ (data ++ (crlf ++ rest)) := by
        rw [line]
        simp only [List.append_assoc]
      have position : before.length + (size.length + extension.length) + 2 =
          (before ++ (size ++ extension) ++ crlf).length := by
        simp only [List.length_append, two]
      have taken : ((body.1.take count).drop
          (before.length + (size.length + extension.length) + 2)).take data.length = data := by
        obtain ⟨more, enough⟩ : ∃ more, count -
            (before.length + (size.length + extension.length) + 2) = data.length + more :=
          ⟨_, (Nat.add_sub_cancel' (by omega)).symm⟩
        rw [List.drop_take, enough, position, front, List.drop_left, List.take_length_add_append,
          List.take_left']
        rfl
      rw [if_pos (by omega), if_neg (by omega), if_pos dataArrived, taken]
      congr 2
      omega
    · rw [if_neg dataArrived, if_pos (by omega), if_pos (by omega)]
  · have late : ¬ before.length + (size.length + extension.length + 2 + data.length) ≤ count := by
      rw [List.length_append] at lineArrived
      omega
    rw [if_neg lineArrived, if_neg late]
    split <;> rfl

theorem chunkStep_lastCut (last : LastChunk) (split : body.1 = before ++ last.bytes) :
    chunkStep (body.1.take count) ⟨before.length, decoded⟩ = none := by
  obtain ⟨size, extension, trailer, spelled, extended⟩ := last
  rw [chunkStep, find_sizeLine spelled.2.1 extended split]
  dsimp only
  by_cases arrived : before.length + (size ++ extension).length + 2 ≤ count
  · rw [if_pos arrived]
    dsimp only
    rw [strtoul_arrived spelled extended (by decide) split arrived, if_pos rfl]
    exact ite_self _
  · rw [if_neg arrived]
    exact ite_self _

/-- The loop gives the data of the chunks that have arrived.  The induction is on
the chunks that the cursor has not come to. -/
theorem chunkLoop_cut (last : LastChunk) (count : ℕ) (chunks : List Chunk) :
    ∀ {before decoded : List UInt8},
      body.1 = before ++ (chunks.flatMap Chunk.bytes ++ last.bytes) →
      ∀ turns, chunks.length < turns →
        chunkLoop (body.1.take count) turns ⟨before.length, decoded⟩ =
          some (decoded ++ (arrivedChunks (count - before.length) chunks).flatMap Chunk.data) := by
  induction chunks with
  | nil =>
      intro before decoded split turns enough
      obtain ⟨less, rfl⟩ := Nat.exists_eq_add_of_lt enough
      rw [chunkLoop, chunkStep_lastCut last split, arrivedChunks]
      exact congrArg some (List.append_nil _).symm
  | cons chunk others ih =>
      intro before decoded split turns enough
      obtain ⟨less, rfl⟩ := Nat.exists_eq_add_of_lt enough
      have here : body.1 =
          before ++ (chunk.bytes ++ (others.flatMap Chunk.bytes ++ last.bytes)) := by
        rw [split, List.flatMap_cons, List.append_assoc]
      have onward : body.1 =
          (before ++ chunk.bytes) ++ (others.flatMap Chunk.bytes ++ last.bytes) := by
        rw [here, List.append_assoc]
      have positive : 0 < chunk.front.length := by
        rw [Chunk.front, List.length_append]
        exact Nat.add_pos_right _ (List.length_pos_of_ne_nil chunk.nonempty)
      have fits : before.length + chunk.front.length ≤ count ↔
          chunk.front.length ≤ count - before.length := by omega
      rw [chunkLoop, chunkStep_cut chunk here, arrivedChunks]
      by_cases arrived : chunk.front.length ≤ count - before.length
      · rw [if_pos (fits.mpr arrived), if_pos arrived]
        dsimp only
        rw [ih onward _ (by rw [List.length_cons]; omega), List.length_append, Nat.sub_add_eq,
          List.flatMap_cons, List.append_assoc]
      · rw [if_neg fun both => arrived (fits.mp both), if_neg arrived]
        exact congrArg some (List.append_nil _).symm

end Cut

/-! ## The text that is returned -/

section Response
variable (response : SentResponse)

theorem isChunked_header (announced : response.Announced) :
    Https.isChunked response.header.bytes = response.body.isChunked := by
  rw [Bool.eq_iff_iff, isChunked_iff]
  exact announced

theorem find_headArrived (count : ℕ) : find (crlf ++ crlf) (response.bytes.take count) =
    if response.head.length ≤ count then some response.header.bytes.length else none := by
  have found := @find_head response.body.bytes response.header.fields
    response.header.statusLine response.header.statusClear response.header.fieldsClear
    response.fieldsNonempty
  have text : response.bytes = response.header.statusLine ++
      (fieldBytes response.header.fields ++ (crlf ++ (crlf ++ response.body.bytes))) := by
    rw [SentResponse.bytes, SentResponse.head, HeaderBlock.bytes]
    simp only [List.append_assoc]
  have length : response.head.length = response.header.bytes.length + (crlf ++ crlf).length := by
    rw [SentResponse.head, List.length_append]
  rw [← text, ← HeaderBlock.bytes] at found
  rw [find_take (by decide), found, Option.filter, length]
  simp only [decide_eq_true_eq]

theorem arrived_prefix (body : SentBody) (count : ℕ) : body.arrived count <+: body.data := by
  cases body with
  | plain data => exact List.take_prefix count data
  | chunked chunks last =>
      rw [SentBody.arrived, SentBody.data]
      have front : ∀ (chunks : List Chunk) (count : ℕ), arrivedChunks count chunks <+: chunks := by
        intro chunks
        induction chunks with
        | nil => exact fun count => List.prefix_refl _
        | cons chunk others ih =>
            intro count
            rw [arrivedChunks]
            split
            · exact (List.prefix_cons_inj chunk).mpr (ih _)
            · exact List.nil_prefix
      obtain ⟨missing, whole⟩ := front chunks count
      exact ⟨missing.flatMap Chunk.data, by rw [← List.flatMap_append, whole]⟩

theorem arrived_all (body : SentBody) {count : ℕ} (all : body.bytes.length ≤ count) :
    body.arrived count = body.data := by
  cases body with
  | plain data => exact List.take_of_length_le all
  | chunked chunks last =>
      rw [SentBody.arrived, SentBody.data]
      rw [SentBody.bytes, List.length_append] at all
      have every : ∀ (chunks : List Chunk) (count : ℕ),
          (chunks.flatMap Chunk.bytes).length ≤ count → arrivedChunks count chunks = chunks := by
        intro chunks
        induction chunks with
        | nil => exact fun count _ => rfl
        | cons chunk others ih =>
            intro count enough
            have length := length_bytes chunk
            rw [List.flatMap_cons, List.length_append] at enough
            rw [arrivedChunks, if_pos (by omega), ih _ (by omega)]
      rw [every chunks count (by omega)]

theorem responseBody_cut (announced : response.Announced)
    (small : response.bytes.length < 2 ^ 63) (count : ℕ) :
    ∃ enough, ∀ turns, enough ≤ turns → responseBody (response.bytes.take count) turns =
      some (response.arrived count) := by
  rw [SentResponse.arrived]
  by_cases arrived : response.head.length ≤ count
  · have length : response.head.length = response.header.bytes.length + 4 := by
      rw [SentResponse.head, List.length_append]
      rfl
    have header : (response.bytes.take count).take response.header.bytes.length =
        response.header.bytes := by
      rw [List.take_take, min_eq_left (by omega), SentResponse.bytes, SentResponse.head,
        List.append_assoc, List.take_left]
    have behind : (response.bytes.take count).drop (response.header.bytes.length + 4) =
        response.body.bytes.take (count - response.head.length) := by
      rw [← length, List.drop_take, SentResponse.bytes, List.drop_left]
    simp only [responseBody, find_headArrived, if_pos arrived, header, behind,
      isChunked_header response announced]
    cases body : response.body with
    | plain data => exact ⟨0, fun turns _ => rfl⟩
    | chunked chunks last =>
        have room : (chunks.flatMap Chunk.bytes ++ last.bytes).length < 2 ^ 63 := by
          rw [SentResponse.bytes, List.length_append, body] at small
          exact Nat.lt_of_le_of_lt (Nat.le_add_left _ _) small
        refine ⟨chunks.length + 1, fun turns suffice => ?_⟩
        exact @chunkLoop_cut ⟨_, room⟩ last (count - response.head.length) chunks [] [] rfl turns
          suffice
  · refine ⟨0, fun turns _ => ?_⟩
    simp only [responseBody, find_headArrived, if_neg arrived]

/-- However the received bytes of a response that announces its encoding fall into
pieces and wherever they end, the caller gets the part of the data that has arrived,
and nothing when the connection did not come about or ended within the header block. -/
theorem httpsRequest_cut (announced : response.Announced)
    (small : response.bytes.length < 2 ^ 63) (peer : Peer) (count : ℕ)
    (received : readResponse peer.pieces = response.bytes.take count) :
    ∃ enough text, (∀ turns, enough ≤ turns → httpsRequest peer turns = some text) ∧
      text = (if peer.opens then response.arrived count else []) ∧
      text <+: response.body.data ∧
      (peer.opens → response.bytes.length ≤ count → text = response.body.data) := by
  by_cases opened : peer.opens
  · obtain ⟨enough, returned⟩ := responseBody_cut response announced small count
    refine ⟨enough, response.arrived count, fun turns suffice => ?_, (if_pos opened).symm, ?_,
      fun _ all => ?_⟩
    · rw [httpsRequest, if_pos opened, received, returned turns suffice]
    · rw [SentResponse.arrived]
      split
      · exact arrived_prefix _ _
      · exact List.nil_prefix
    · rw [SentResponse.bytes, List.length_append] at all
      rw [SentResponse.arrived, if_pos (by omega), arrived_all _ (by omega)]
  · refine ⟨0, [], fun turns _ => ?_, (if_neg opened).symm, List.nil_prefix,
      fun opens => absurd opens opened⟩
    rw [httpsRequest, if_neg opened]

end Response

/-- Two chunks, of which the second breaks off. -/
def twoChunks : SentResponse :=
  { header :=
      { statusLine := ascii "HTTP/1.1 200 OK", fields := [ascii "Transfer-Encoding: chunked"]
        statusClear := by decide +kernel, fieldsClear := by decide +kernel }
    body := .chunked [framingChunk, framingChunk] emptyLast
    fieldsNonempty := by decide +kernel }

theorem twoChunks_announced : twoChunks.Announced := by
  unfold SentResponse.Announced
  decide +kernel

def breakingPeer : Peer :=
  { resolves := true, connects := [true], proxied := false, proxyPieces := []
    handshakes := true
    pieces := [ascii "HTTP/1.1 200 OK\r\nTransfer-Encoding: chu",
      ascii "nked\r\n\r\n05;a\r\n\r\n0\r\n\r\n05;a\r\n\r\n0", []] }

theorem httpsRequest_cut_secondChunk : ∃ enough, ∀ turns, enough ≤ turns →
    httpsRequest breakingPeer turns = some (ascii "\r\n0\r\n") := by
  obtain ⟨enough, text, returned, same, -⟩ :=
    httpsRequest_cut twoChunks twoChunks_announced (by decide +kernel) breakingPeer 69 (by decide +kernel)
  rw [same] at returned
  exact ⟨enough, fun turns suffice => (returned turns suffice).trans (by decide +kernel)⟩

end Https

end CryptoTrading
