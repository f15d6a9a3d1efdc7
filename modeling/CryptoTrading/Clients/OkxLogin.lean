import CryptoTrading.Clients.OkxMessages
import CryptoTrading.Common.Base64

/-! # Login messages as JSON

`BuildLoginMessage` puts the credentials between quotes as they are, while
`LoadConfig` has taken the escapes out of them.  They come through exactly when
they need no escape. -/
set_option autoImplicit false

namespace CryptoTrading

open Json JsonLiteral QuotedText DecimalText

/-! ## The exchange section of a config -/

structure ExchangeConfig where
  name : String
  apiKey : String
  secretKey : String
  passphrase : String
  deriving DecidableEq, Repr

def configText (section' : Json) (key fallback : String) : String :=
  ((section'.field key).bind asText).getD fallback

/-- `LoadConfig` as far as the exchange goes; `reason` is what the parser says
about a text that is not JSON. -/
def loadConfig (reason text : String) : Except String ExchangeConfig :=
  match Json.parse text with
  | none => .error ("invalid JSON config: " ++ reason)
  | some root =>
      match root.field "exchange" with
      | none => .error "missing 'exchange' section"
      | some exchange =>
          let config : ExchangeConfig :=
            { name := configText exchange "name" "okx"
              apiKey := configText exchange "api_key" ""
              secretKey := configText exchange "secret_key" ""
              passphrase := configText exchange "passphrase" "" }
          if config.apiKey = "" ∨ config.secretKey = "" then
            .error "exchange.api_key and exchange.secret_key are required"
          else .ok config

/-! ## The message -/

section Message
variable (hmac : List UInt8 → List UInt8 → List UInt8) (config : ExchangeConfig) (seconds : Int)

def hmacSha256Sign (key message : String) : String :=
  String.ofList (WsClient.base64Encode (hmac key.toUTF8.toList message.toUTF8.toList))

def sign (timestamp method path : String) : String :=
  hmacSha256Sign hmac config.secretKey (timestamp ++ method ++ path)

def buildLoginMessage : String :=
  let timestamp := toString seconds
  let signature := sign hmac config timestamp "GET" "/users/self/verify"
  "\x7b\"op\":\"login\",\"args\":[\x7b\"apiKey\":\"" ++ config.apiKey ++ "\",\"passphrase\":\"" ++
    config.passphrase ++ "\",\"timestamp\":\"" ++ timestamp ++ "\",\"sign\":\"" ++ signature ++
    "\"\x7d]\x7d"

end Message

def loginText (doc : Json) (name : String) : Option String :=
  (((doc.field "args").bind firstElement).bind (·.field name)).bind asText

/-- The message is JSON that decodes to the credentials. -/
def Survives (config : ExchangeConfig) (message : String) : Prop :=
  ∃ doc, Json.parse message = some doc ∧ loginText doc "apiKey" = some config.apiKey ∧
    loginText doc "passphrase" = some config.passphrase

/-! ## Credentials that need no escape -/

theorem plain_toString_int (value : Int) : Plain (toString value).toList := by
  have digits := plain_digits (isDigits_toDigits value.natAbs)
  rw [toList_toString_int]
  split <;> simp [digits]

section Login
variable {hmac : List UInt8 → List UInt8 → List UInt8} {config : ExchangeConfig} {seconds : Int}

theorem plain_sign (timestamp method path : String) :
    Plain (sign hmac config timestamp method path).toList := by
  have table : Plain ('=' :: WsClient.base64Table) := by decide +kernel
  rw [sign, hmacSha256Sign, String.toList_ofList]
  intro char member
  exact table char (WsClient.base64Encode_mem member)

theorem toList_buildLoginMessage : (buildLoginMessage hmac config seconds).toList =
    '{' :: named "op".toList (quoted "login".toList ++ ',' :: named "args".toList
      ('[' :: '{' :: named "apiKey".toList (quoted config.apiKey.toList ++ ',' ::
        named "passphrase".toList (quoted config.passphrase.toList ++ ',' ::
          named "timestamp".toList (quoted (toString seconds).toList ++ ',' ::
            named "sign".toList (quoted
              (sign hmac config (toString seconds) "GET" "/users/self/verify").toList ++
                ['}', ']', '}'])))))) := by
  have opening : "\x7b\"op\":\"login\",\"args\":[\x7b\"apiKey\":\"".toList =
      '{' :: named "op".toList (quoted "login".toList ++ ',' :: named "args".toList
        ('[' :: '{' :: named "apiKey".toList ['"'])) := by decide +kernel
  have passphrase : "\",\"passphrase\":\"".toList =
      '"' :: ',' :: named "passphrase".toList ['"'] := by decide +kernel
  have timestamp : "\",\"timestamp\":\"".toList =
      '"' :: ',' :: named "timestamp".toList ['"'] := by decide +kernel
  have signature : "\",\"sign\":\"".toList = '"' :: ',' :: named "sign".toList ['"'] := by
    decide +kernel
  have ending : "\"\x7d]\x7d".toList = ['"', '}', ']', '}'] := by decide +kernel
  unfold buildLoginMessage
  simp only [String.toList_append, opening, passphrase, timestamp, signature, ending, named, quoted,
    List.cons_append, List.append_assoc, List.nil_append]

theorem parse_buildLoginMessage (plainKey : Plain config.apiKey.toList)
    (plainPassphrase : Plain config.passphrase.toList) :
    Json.parse (buildLoginMessage hmac config seconds) =
      some (.object [("op", .text "login"), ("args", .array [.object
        [("apiKey", .text config.apiKey), ("passphrase", .text config.passphrase),
          ("timestamp", .text (toString seconds)), ("sign", .text
            (sign hmac config (toString seconds) "GET" "/users/self/verify"))]])]) := by
  have outer : Plain "op".toList ∧ Plain "login".toList ∧ Plain "args".toList := by simp
  have inner : Plain "apiKey".toList ∧ Plain "passphrase".toList ∧ Plain "timestamp".toList ∧
      Plain "sign".toList := by simp
  let op := textMember "op" "login" outer.1 outer.2.1
  let apiKey := textMember "apiKey" config.apiKey inner.1 plainKey
  let passphrase := textMember "passphrase" config.passphrase inner.2.1 plainPassphrase
  let timestamp :=
    textMember "timestamp" (toString seconds) inner.2.2.1 (plain_toString_int seconds)
  let signature := textMember "sign"
    (sign hmac config (toString seconds) "GET" "/users/self/verify") inner.2.2.2 (plain_sign _ _ _)
  let args : Member :=
    { name := "args".toList, text := _, json := _, plain := outer.2.2
      spelled := spells_singleton apiKey [passphrase, timestamp, signature] }
  have spelled := spells_object op [args]
  have message : (buildLoginMessage hmac config seconds).toList = objectText op [args] := by
    rw [toList_buildLoginMessage]
    simp only [objectText, laterText, List.flatMap_cons, List.flatMap_nil, named, op, apiKey,
      passphrase, timestamp, signature, args, textMember, List.cons_append, List.append_assoc,
      List.nil_append]
  rw [← message] at spelled
  rw [parse_spelled spelled]
  simp [op, args, apiKey, passphrase, timestamp, signature, Member.read, textMember]

/-! ## Credentials that need one -/

theorem plain_of_survives (survives : Survives config (buildLoginMessage hmac config seconds)) :
    Plain config.apiKey.toList ∧ Plain config.passphrase.toList := by
  obtain ⟨doc, parsed, key, passphrase⟩ := survives
  obtain ⟨_, _, whole⟩ := parse_some parsed
  rw [toList_buildLoginMessage] at whole
  obtain ⟨_, outer, members, rfl⟩ := value_named_some whole
  obtain ⟨_, _, argsOn, rfl⟩ := members_text_some (show Plain "op".toList by simp)
    (show Plain "login".toList by simp) members
  obtain ⟨_, _, _, _, args, rfl, -⟩ :=
    members_named_some (show Plain "args".toList by simp) argsOn
  obtain ⟨_, _, _, _, first, rfl⟩ := value_elements_some args
  obtain ⟨_, inner, credentials, rfl⟩ := value_named_some first
  obtain ⟨_, keyMember, keyText⟩ := Option.bind_eq_some_iff.mp key
  obtain ⟨_, passphraseMember, passphraseText⟩ := Option.bind_eq_some_iff.mp passphrase
  rw [asText_some keyText] at keyMember
  rw [asText_some passphraseText] at passphraseMember
  have plainKey := plain_of_decoded (show Plain "apiKey".toList by simp)
    ⟨'p', "assphrase".toList, by simp, rfl⟩ credentials keyMember
  obtain ⟨_, _, passphraseOn, rfl⟩ :=
    members_text_some (show Plain "apiKey".toList by simp) plainKey credentials
  have plainPassphrase := plain_of_decoded (show Plain "passphrase".toList by simp)
    ⟨'t', "imestamp".toList, by simp, rfl⟩ passphraseOn passphraseMember
  exact ⟨plainKey, plainPassphrase⟩

theorem survives_iff : Survives config (buildLoginMessage hmac config seconds) ↔
    Plain config.apiKey.toList ∧ Plain config.passphrase.toList := by
  refine ⟨plain_of_survives, fun ⟨plainKey, plainPassphrase⟩ => ?_⟩
  refine ⟨_, parse_buildLoginMessage plainKey plainPassphrase, ?_, ?_⟩
  · rfl
  · rfl

variable (hmac seconds) in
/-- What `LoadConfig` makes of a text comes through the login message. -/
def CredentialsSurvive (reason text : String) : Prop :=
  ∀ config, loadConfig reason text = .ok config →
    Survives config (buildLoginMessage hmac config seconds)

theorem credentialsSurvive_iff (reason text : String) :
    CredentialsSurvive hmac seconds reason text ↔
      ∀ config, loadConfig reason text = .ok config →
        Plain config.apiKey.toList ∧ Plain config.passphrase.toList := by
  constructor
  · intro survive config loaded
    exact survives_iff.mp (survive config loaded)
  · intro plain config loaded
    exact survives_iff.mpr (plain config loaded)

/-- A passphrase with a quote does not come through. -/
theorem quoted_passphrase_lost : ¬ ∀ (hmac : List UInt8 → List UInt8 → List UInt8)
    (seconds : Int) (reason text : String), CredentialsSurvive hmac seconds reason text := by
  intro claim
  have loaded : loadConfig "" ("\x7b\"exchange\":\x7b\"api_key\":\"k\",\"secret_key\":\"s\"," ++
      "\"passphrase\":\"a\\\"b\"\x7d\x7d") =
      .ok { name := "okx", apiKey := "k", secretKey := "s", passphrase := "a\"b" } := by
    decide +kernel
  have plain := (survives_iff.mp (claim (fun _ _ => []) 0 _ _ _ loaded)).2
  simp at plain

end Login

end CryptoTrading
