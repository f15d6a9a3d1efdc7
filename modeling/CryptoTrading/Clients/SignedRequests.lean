import CryptoTrading.Clients.OkxLogin
import CryptoTrading.Clients.OkxTimestamp
import CryptoTrading.Lib.HttpRequest

/-! # Signed requests

The text that `HttpsRequest` writes for the five signed queries, and what the
exchange makes of it: it reads the request, looks the parameters up in the target
and computes the signature again.  The credentials stand in the fields as they are,
and the request is accepted exactly when they need no quoting there. -/
set_option autoImplicit false

namespace CryptoTrading

open HttpRequest MessageHead DecimalText

def okxRestHost : String := "www.okx.com"

def okxApiOrdersPending : String := "/api/v5/trade/orders-pending"

def okxApiOrder : String := "/api/v5/trade/order"

def okxApiFills : String := "/api/v5/trade/fills"

def okxApiBalance : String := "/api/v5/account/balance"

def okxApiPositions : String := "/api/v5/account/positions"

/-! ## What is written -/

def contentLength (body : String) : String :=
  if body = "" then "" else "Content-Length: " ++ toString body.utf8ByteSize ++ "\r\n"

def httpsRequestText (host method path headers body : String) : String :=
  method ++ " " ++ path ++ " HTTP/1.1\r\nHost: " ++ host ++ "\r\nConnection: close\r\n" ++
    headers ++ contentLength body ++ "\r\n" ++ body

/-- A query; an empty `after` asks for the first page. -/
inductive SignedQuery where
  | pendingOrders (instType after : String)
  | orderById (instrument orderId : String)
  | recentFills (sinceMs : Int) (instType after : String)
  | balances
  | swapPositions
  deriving DecidableEq, Repr

namespace SignedQuery

def afterText (after : String) : String := if after = "" then "" else "&after=" ++ after

def path : SignedQuery → String
  | .pendingOrders instType after =>
      okxApiOrdersPending ++ "?instType=" ++ instType ++ afterText after
  | .orderById instrument orderId =>
      okxApiOrder ++ "?instId=" ++ instrument ++ "&ordId=" ++ orderId
  | .recentFills sinceMs instType after =>
      okxApiFills ++ "?instType=" ++ instType ++ "&begin=" ++ toString sinceMs ++ afterText after
  | .balances => okxApiBalance
  | .swapPositions => okxApiPositions ++ "?instType=SWAP"

end SignedQuery

section Written
variable (hmac : List UInt8 → List UInt8 → List UInt8) (config : ExchangeConfig)

def signedHeaders (timestamp path : String) : String :=
  let signature := hmacSha256Sign hmac config.secretKey (timestamp ++ "GET" ++ path)
  "OK-ACCESS-KEY: " ++ config.apiKey ++ "\r\nOK-ACCESS-SIGN: " ++ signature ++
    "\r\nOK-ACCESS-TIMESTAMP: " ++ timestamp ++ "\r\nOK-ACCESS-PASSPHRASE: " ++
    config.passphrase ++ "\r\n"

def signedQueryText (now : SystemTime) (query : SignedQuery) : String :=
  httpsRequestText okxRestHost "GET" query.path
    (signedHeaders hmac config (isoTimestampForRest now) query.path) ""

/-! ## What the exchange reads -/

/-- The checks of a signed request, for the time at which it was made. -/
structure Accepts (timestamp : String) (request : HttpRequest) : Prop where
  key : request.value "OK-ACCESS-KEY" = some config.apiKey.toList
  passphrase : request.value "OK-ACCESS-PASSPHRASE" = some config.passphrase.toList
  time : request.value "OK-ACCESS-TIMESTAMP" = some timestamp.toList
  signature : request.value "OK-ACCESS-SIGN" = some (hmacSha256Sign hmac config.secretKey
    (timestamp ++ String.ofList (request.method ++ request.target ++ request.body))).toList

end Written

namespace SignedQuery

def resource : SignedQuery → String
  | .pendingOrders _ _ => okxApiOrdersPending
  | .orderById _ _ => okxApiOrder
  | .recentFills _ _ _ => okxApiFills
  | .balances => okxApiBalance
  | .swapPositions => okxApiPositions

/-- The cursor is left out of the first page. -/
def afterParameter (after : String) : List (String × String) :=
  if after = "" then [] else [("after", after)]

def parameters : SignedQuery → List (String × String)
  | .pendingOrders instType after => ("instType", instType) :: afterParameter after
  | .orderById instrument orderId => [("instId", instrument), ("ordId", orderId)]
  | .recentFills sinceMs instType after =>
      ("instType", instType) :: ("begin", toString sinceMs) :: afterParameter after
  | .balances => []
  | .swapPositions => [("instType", "SWAP")]

def PlainArgument (text : String) : Prop :=
  ∀ char ∈ text.toList, char ≠ ' ' ∧ char ≠ '\r' ∧ char ≠ '&'

instance (text : String) : Decidable (PlainArgument text) := List.decidableBAll _ text.toList

def Plain (query : SignedQuery) : Prop :=
  ∀ parameter ∈ query.parameters, PlainArgument parameter.2

instance (query : SignedQuery) : Decidable query.Plain := List.decidableBAll _ query.parameters

def Asks (query : SignedQuery) (request : HttpRequest) : Prop :=
  request.method = "GET".toList ∧ request.body = [] ∧
    readTarget request.target = (query.resource.toList,
      query.parameters.map fun parameter => (parameter.1.toList, parameter.2.toList))

/-! ## The target -/

section Target
variable {query : SignedQuery}

def targetParameters (query : SignedQuery) : List (List Char × List Char) :=
  query.parameters.map fun parameter => (parameter.1.toList, parameter.2.toList)

theorem toList_path (query : SignedQuery) :
    query.path.toList = targetText query.resource.toList query.targetParameters := by
  have instType : "?instType=".toList = '?' :: ("instType".toList ++ ['=']) := by decide +kernel
  have instId : "?instId=".toList = '?' :: ("instId".toList ++ ['=']) := by decide +kernel
  have ordId : "&ordId=".toList = '&' :: ("ordId".toList ++ ['=']) := by decide +kernel
  have begin' : "&begin=".toList = '&' :: ("begin".toList ++ ['=']) := by decide +kernel
  have after' : "&after=".toList = '&' :: ("after".toList ++ ['=']) := by decide +kernel
  have swap : "?instType=SWAP".toList = '?' :: ("instType".toList ++ '=' :: "SWAP".toList) := by
    decide +kernel
  cases query with
  | pendingOrders type after =>
      by_cases first : after = ""
      · simp [path, resource, targetParameters, parameters, afterText, afterParameter, first,
          targetText, parameterText, List.intercalate, instType]
      · simp [path, resource, targetParameters, parameters, afterText, afterParameter, first,
          targetText, parameterText, List.intercalate, instType, after']
  | orderById instrument orderId =>
      simp [path, resource, targetParameters, parameters, targetText, parameterText,
        List.intercalate, instId, ordId]
  | recentFills sinceMs type after =>
      by_cases first : after = ""
      · simp [path, resource, targetParameters, parameters, afterText, afterParameter, first,
          targetText, parameterText, List.intercalate, instType, begin']
      · simp [path, resource, targetParameters, parameters, afterText, afterParameter, first,
          targetText, parameterText, List.intercalate, instType, begin', after']
  | balances => rfl
  | swapPositions =>
      simp [path, resource, targetParameters, parameters, targetText, parameterText,
        List.intercalate, swap]

theorem parameters_plain (plain : query.Plain) :
    ∀ parameter ∈ query.parameters, '=' ∉ parameter.1.toList ∧
      (∀ char ∈ parameter.1.toList, char ≠ ' ' ∧ char ≠ '\r' ∧ char ≠ '&') ∧
      ∀ char ∈ parameter.2.toList, char ≠ ' ' ∧ char ≠ '\r' ∧ char ≠ '&' := by
  have names : ∀ parameter ∈ query.parameters,
      parameter.1 ∈ ["instType", "after", "instId", "ordId", "begin"] := by
    have later : ∀ after, ∀ parameter ∈ afterParameter after, parameter.1 = "after" := by
      intro after parameter member
      rw [afterParameter] at member
      split at member
      · cases member
      · rw [List.mem_singleton.mp member]
    intro parameter member
    cases query with
    | pendingOrders instType after =>
        rcases List.mem_cons.mp member with rfl | inAfter
        · simp
        · simp [later after parameter inAfter]
    | recentFills sinceMs instType after =>
        rcases List.mem_cons.mp member with rfl | member
        · simp
        rcases List.mem_cons.mp member with rfl | inAfter
        · simp
        · simp [later after parameter inAfter]
    | orderById instrument orderId =>
        simp only [parameters, List.mem_cons, List.not_mem_nil, or_false] at member
        rcases member with rfl | rfl <;> simp
    | balances => cases member
    | swapPositions =>
        rw [List.mem_singleton.mp member]
        simp
  have each : ∀ name ∈ ["instType", "after", "instId", "ordId", "begin"],
      '=' ∉ name.toList ∧ PlainArgument name := by decide +kernel
  intro parameter member
  obtain ⟨noMark, plainName⟩ := each _ (names parameter member)
  exact ⟨noMark, plainName, plain parameter member⟩

theorem resource_plain (query : SignedQuery) :
    '?' ∉ query.resource.toList ∧ ' ' ∉ query.resource.toList ∧
      '\r' ∉ query.resource.toList := by
  have each : ∀ text ∈ [okxApiOrdersPending, okxApiOrder, okxApiFills, okxApiBalance,
      okxApiPositions], '?' ∉ text.toList ∧ ' ' ∉ text.toList ∧ '\r' ∉ text.toList := by
    decide +kernel
  cases query <;> exact each _ (by simp [resource])

theorem part_path (plain : query.Plain) : Part query.path.toList := by
  have without : ∀ char, char = ' ' ∨ char = '\r' → char ∉ query.path.toList := by
    intro char special member
    obtain ⟨-, noBlank, noReturn⟩ := resource_plain query
    rw [toList_path] at member
    rcases mem_targetText member with inResource | mark | mark | mark | ⟨pair, inPairs, here⟩
    · rcases special with rfl | rfl
      · exact noBlank inResource
      · exact noReturn inResource
    · rcases special with rfl | rfl <;> cases mark
    · rcases special with rfl | rfl <;> cases mark
    · rcases special with rfl | rfl <;> cases mark
    · obtain ⟨parameter, inParameters, rfl⟩ := List.mem_map.mp inPairs
      obtain ⟨-, plainName, plainValue⟩ := parameters_plain plain parameter inParameters
      obtain ⟨notBlank, notReturn, -⟩ := here.elim (plainName char) (plainValue char)
      exact special.elim notBlank notReturn
  exact ⟨without ' ' (.inl rfl), without '\r' (.inr rfl)⟩

theorem readTarget_path (plain : query.Plain) :
    readTarget query.path.toList = (query.resource.toList, query.targetParameters) := by
  rw [toList_path]
  refine readTarget_text (resource_plain query).1 ?_ ?_
  · intro pair member
    obtain ⟨parameter, inParameters, rfl⟩ := List.mem_map.mp member
    exact (parameters_plain plain parameter inParameters).1
  · intro pair member
    obtain ⟨parameter, inParameters, rfl⟩ := List.mem_map.mp member
    obtain ⟨-, plainName, plainValue⟩ := parameters_plain plain parameter inParameters
    rw [parameterText, List.mem_append, List.mem_cons]
    rintro (inName | equals | inValue)
    · exact (plainName '&' inName).2.2 rfl
    · cases equals
    · exact (plainValue '&' inValue).2.2 rfl

end Target

end SignedQuery

/-! ## The fields -/

section Fields
variable {hmac : List UInt8 → List UInt8 → List UInt8} {config : ExchangeConfig}

def Solid (text : List Char) : Prop := ∀ char ∈ text, char ≠ '\r' ∧ isBlank char = false

instance (text : List Char) : Decidable (Solid text) := List.decidableBAll _ text

theorem Solid.clean {text : List Char} (solid : Solid text) : Clean lineEnd isBlank text where
  noLineEnd inside := (solid '\r' (inside.subset List.mem_cons_self)).1 rfl
  noBlankFront item first := (solid item (List.mem_of_head? first)).2
  noBlankBack item last := (solid item (List.mem_of_getLast? last)).2

theorem solid_append {first second : List Char} :
    Solid (first ++ second) ↔ Solid first ∧ Solid second := List.forall_mem_append

theorem solid_cons {char : Char} {text : List Char} :
    Solid (char :: text) ↔ (char ≠ '\r' ∧ isBlank char = false) ∧ Solid text :=
  List.forall_mem_cons

theorem solid_digits {text : List Char} (digits : isDigits text) : Solid text := by
  intro char member
  have isDigit := digits char member
  refine ⟨?_, ?_⟩
  · rintro rfl
    cases isDigit
  · rw [isBlank, decide_eq_false_iff_not]
    rintro (rfl | rfl) <;> cases isDigit

theorem solid_timestamp (now : SystemTime) : Solid (isoTimestampForRest now).toList := by
  have padded := fun width value => solid_digits (isDigits_zeroPadded width value)
  have nothing : Solid [] := List.forall_mem_nil _
  rw [toList_isoTimestampForRest, IsoTime.timeText, IsoTime.dateText, IsoTime.clockText]
  simp [solid_append, solid_cons, padded, solid_digits (isDigits_toDigits _), nothing, isBlank]

theorem solid_signature (key message : String) :
    Solid (hmacSha256Sign hmac key message).toList := by
  have table : Solid ('=' :: WsClient.base64Table) := by decide +kernel
  rw [hmacSha256Sign, String.toList_ofList]
  intro char member
  exact table char (WsClient.base64Encode_mem member)

end Fields

/-! ## The request that is read -/

section Request
variable {hmac : List UInt8 → List UInt8 → List UInt8} {config : ExchangeConfig}
  {now : SystemTime} {query : SignedQuery}

variable (hmac config now query) in
def signedRequest : HttpRequest :=
  { method := "GET".toList
    target := query.path.toList
    version := "HTTP/1.1".toList
    fields :=
      [("Host".toList, okxRestHost.toList), ("Connection".toList, "close".toList),
        ("OK-ACCESS-KEY".toList, config.apiKey.toList),
        ("OK-ACCESS-SIGN".toList, (hmacSha256Sign hmac config.secretKey
          (isoTimestampForRest now ++ "GET" ++ query.path)).toList),
        ("OK-ACCESS-TIMESTAMP".toList, (isoTimestampForRest now).toList),
        ("OK-ACCESS-PASSPHRASE".toList, config.passphrase.toList)]
    body := [] }

theorem toList_signedQueryText : (signedQueryText hmac config now query).toList =
    (signedRequest hmac config now query).text := by
  have version : " HTTP/1.1\r\nHost: ".toList =
      ' ' :: ("HTTP/1.1".toList ++ (lineEnd ++ ("Host".toList ++ [':', ' ']))) := by
    decide +kernel
  have connection : "\r\nConnection: close\r\n".toList =
      lineEnd ++ ("Connection".toList ++ ':' :: ' ' :: ("close".toList ++ lineEnd)) := by
    decide +kernel
  have key : "OK-ACCESS-KEY: ".toList = "OK-ACCESS-KEY".toList ++ [':', ' '] := by
    decide +kernel
  have sign : "\r\nOK-ACCESS-SIGN: ".toList =
      lineEnd ++ ("OK-ACCESS-SIGN".toList ++ [':', ' ']) := by
    decide +kernel
  have time : "\r\nOK-ACCESS-TIMESTAMP: ".toList =
      lineEnd ++ ("OK-ACCESS-TIMESTAMP".toList ++ [':', ' ']) := by
    decide +kernel
  have passphrase : "\r\nOK-ACCESS-PASSPHRASE: ".toList =
      lineEnd ++ ("OK-ACCESS-PASSPHRASE".toList ++ [':', ' ']) := by
    decide +kernel
  have ending : "\r\n".toList = lineEnd := by
    decide +kernel
  have noBody : (contentLength "").toList = [] := by
    decide +kernel
  have blank : " ".toList = [' '] := by
    decide +kernel
  have empty : "".toList = [] := by
    decide +kernel
  unfold signedQueryText httpsRequestText signedHeaders
  simp only [String.toList_append, version, connection, key, sign, time, passphrase, ending,
    noBody, blank, empty, HttpRequest.text, headText, signedRequest, requestLine, fieldLine,
    List.map_cons, List.map_nil, List.flatMap_cons, List.flatMap_nil, List.append_assoc,
    List.cons_append, List.nil_append, List.append_nil]

theorem wellFormed_signedRequest (plain : query.Plain)
    (key : Clean lineEnd isBlank config.apiKey.toList)
    (passphrase : Clean lineEnd isBlank config.passphrase.toList) :
    (signedRequest hmac config now query).WellFormed where
  method := show Part "GET".toList from ⟨by decide +kernel, by decide +kernel⟩
  target := SignedQuery.part_path plain
  version := show Part "HTTP/1.1".toList from ⟨by decide +kernel, by decide +kernel⟩
  names := by
    have each : ∀ name ∈ ["Host", "Connection", "OK-ACCESS-KEY", "OK-ACCESS-SIGN",
        "OK-ACCESS-TIMESTAMP", "OK-ACCESS-PASSPHRASE"],
        ':' ∉ name.toList ∧ '\r' ∉ name.toList := by decide +kernel
    intro field member
    simp only [signedRequest, List.mem_cons, List.not_mem_nil, or_false] at member
    rcases member with rfl | rfl | rfl | rfl | rfl | rfl <;> exact each _ (by simp)
  values := by
    have host : Solid okxRestHost.toList := by decide +kernel
    have close : Solid "close".toList := by decide +kernel
    intro field member
    simp only [signedRequest, List.mem_cons, List.not_mem_nil, or_false] at member
    rcases member with rfl | rfl | rfl | rfl | rfl | rfl
    · exact host.clean
    · exact close.clean
    · exact key
    · exact (solid_signature _ _).clean
    · exact (solid_timestamp now).clean
    · exact passphrase

/-- The exchange reads what was asked for and accepts the request, exactly when the
credentials contain no line end and no blank stands at an end of them. -/
theorem signedQuery_accepted_iff (plain : query.Plain) :
    (∃ request, HttpRequest.read (signedQueryText hmac config now query).toList = some request ∧
        query.Asks request ∧ Accepts hmac config (isoTimestampForRest now) request) ↔
      Clean lineEnd isBlank config.apiKey.toList ∧
        Clean lineEnd isBlank config.passphrase.toList := by
  constructor
  · rintro ⟨request, ran, -, accepts⟩
    exact ⟨clean_of_value ran accepts.key, clean_of_value ran accepts.passphrase⟩
  · rintro ⟨key, passphrase⟩
    refine ⟨signedRequest hmac config now query, ?_, ⟨rfl, rfl, ?_⟩, ?_⟩
    · rw [toList_signedQueryText]
      exact read_text (wellFormed_signedRequest plain key passphrase)
    · exact SignedQuery.readTarget_path plain
    · have path : String.ofList ((signedRequest hmac config now query).method ++
          (signedRequest hmac config now query).target ++
            (signedRequest hmac config now query).body) = "GET" ++ query.path := by
        rw [← String.toList_inj, String.toList_ofList, String.toList_append]
        exact List.append_nil _
      refine ⟨rfl, rfl, rfl, ?_⟩
      rw [path, ← String.append_assoc]
      rfl

/-- A blank within a passphrase does no harm. -/
def blankPassphrase : ExchangeConfig :=
  { name := "okx", apiKey := "k", secretKey := "s", passphrase := "a b" }

theorem signedQuery_accepted_iff_fills : ∃ request,
    HttpRequest.read (signedQueryText (fun _ _ => [1, 2, 3]) blankPassphrase
      ⟨1700000000000000000, by decide +kernel⟩ (.recentFills 5 "SPOT" "77")).toList = some request ∧
      (SignedQuery.recentFills 5 "SPOT" "77").Asks request := by
  have key : Solid blankPassphrase.apiKey.toList := by decide +kernel
  have passphrase : Clean lineEnd isBlank blankPassphrase.passphrase.toList :=
    { noLineEnd := fun inside => absurd (inside.subset List.mem_cons_self)
        (show '\r' ∉ "a b".toList by decide +kernel)
      noBlankFront := by rintro _ ⟨⟩; rfl
      noBlankBack := by rintro _ ⟨⟩; rfl }
  obtain ⟨request, ran, asks, -⟩ := (signedQuery_accepted_iff (show
    (SignedQuery.recentFills 5 "SPOT" "77").Plain by decide +kernel)).mpr ⟨key.clean, passphrase⟩
  exact ⟨request, ran, asks⟩

end Request

end CryptoTrading
