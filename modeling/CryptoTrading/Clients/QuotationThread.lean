import CryptoTrading.Clients.OkxPublic
import CryptoTrading.Common.WebSocket
import CryptoTrading.Lib.Runs

/-! # The quotation thread

The loops of `ExchangeClient::Start` for the public connection.  A connection is
the bytes that the server sends on it before it ends; whether a turn finds data
or times out is left open, and so is when the loops are told to stop.  Nothing
in the loops catches an exception. -/
set_option autoImplicit false

namespace CryptoTrading

open OnDemand WsClient

structure PublicConnection where
  incoming : List UInt8
  pingPending : Bool := false

structure QuotationThread where
  registry : InstrumentRegistry
  connection : Option PublicConnection := none
  published : List MarketData := []

/-- `lost` is any other reason for which a turn ends the connection.  The
registry can be filled at any moment. -/
inductive QuotationAction where
  | add (info : InstrumentInfo)
  | connect (incoming : List UInt8)
  | read
  | timeout
  | lost

def pongText : List UInt8 := [0x70, 0x6F, 0x6E, 0x67]

namespace QuotationThread

/-- What a turn does with the text it got, which is empty after a timeout. -/
def receive (iterate : List UInt8 → Option Node) (state : QuotationThread)
    (connection : PublicConnection) (raw : List UInt8) : Option QuotationThread :=
  if raw = [] then
    if connection.pingPending then some { state with connection := none }
    else some { state with connection := some { connection with pingPending := true } }
  else
    let answered := { state with connection := some { connection with pingPending := false } }
    if raw = pongText then some answered
    else do
      let data ← onPublicMessage state.registry iterate raw
      some { answered with published := state.published ++ data }

/-- `none` is an exception that leaves the thread. -/
def step (iterate : List UInt8 → Option Node) (resizable : ℕ → Bool) (state : QuotationThread) :
    QuotationAction → Option QuotationThread
  | .add info => some { state with registry := state.registry.add info }
  | .connect incoming =>
      match state.connection with
      | none => some { state with connection := some { incoming := incoming } }
      | some _ => some state
  | .read =>
      match state.connection with
      | none => some state
      | some connection =>
          match WsClient.read resizable connection.incoming with
          | .error .failed => some { state with connection := none }
          | .error .thrown => none
          | .ok (raw, rest) => state.receive iterate { connection with incoming := rest } raw
  | .timeout =>
      match state.connection with
      | none => some state
      | some connection => state.receive iterate connection []
  | .lost => some { state with connection := none }

/-- Behind the pings at the front of the unread bytes no frame announces more
than a string can take, and the message there, if it is one, is harmless. -/
def SafeBytes (iterate : List UInt8 → Option Node) (resizable : ℕ → Bool)
    (registry : InstrumentRegistry) (incoming : List UInt8) : Prop :=
  ∀ later, PastPings resizable incoming later → ¬ Oversized resizable later ∧
    ∀ payload rest, Message resizable later payload rest → payload ≠ [] → payload ≠ pongText →
      Harmless registry iterate payload

/-- Only reading can go wrong. -/
def Safe (iterate : List UInt8 → Option Node) (resizable : ℕ → Bool) (state : QuotationThread) :
    QuotationAction → Prop
  | .read => ∀ connection, state.connection = some connection →
      SafeBytes iterate resizable state.registry connection.incoming
  | .add _ => True
  | .connect _ => True
  | .timeout => True
  | .lost => True

section Survival
variable {iterate : List UInt8 → Option Node} {resizable : ℕ → Bool} {state : QuotationThread}

theorem receive_some_iff (connection : PublicConnection) (raw : List UInt8) :
    (∃ next, state.receive iterate connection raw = some next) ↔
      (raw ≠ [] → raw ≠ pongText → Harmless state.registry iterate raw) := by
  rw [receive]
  by_cases empty : raw = []
  · rw [if_pos empty]
    split <;> simp [empty]
  · rw [if_neg empty]
    dsimp only
    by_cases pong : raw = pongText
    · rw [if_pos pong]
      simp [pong]
    · rw [if_neg pong, ← onPublicMessage_iff]
      simp only [ne_eq, empty, pong, not_false_eq_true, forall_true_left]
      cases onPublicMessage state.registry iterate raw <;> simp

theorem safeBytes_iff (registry : InstrumentRegistry) (incoming : List UInt8) :
    SafeBytes iterate resizable registry incoming ↔
      WsClient.read resizable incoming ≠ .error .thrown ∧
        ∀ raw rest, WsClient.read resizable incoming = .ok (raw, rest) →
          raw ≠ [] → raw ≠ pongText → Harmless registry iterate raw := by
  constructor
  · intro safe
    refine ⟨fun thrown => ?_, fun raw rest done => ?_⟩
    · obtain ⟨later, past, large⟩ := (read_thrown_iff incoming).mp thrown
      exact (safe later past).1 large
    · obtain ⟨later, past, message⟩ := (read_ok_iff incoming).mp done
      exact (safe later past).2 raw rest message
  · rintro ⟨kept, harmless⟩ later past
    refine ⟨fun large => ?_, fun raw rest message => ?_⟩
    · exact kept ((read_thrown_iff incoming).mpr ⟨later, past, large⟩)
    · exact harmless raw rest ((read_ok_iff incoming).mpr ⟨later, past, message⟩)

theorem read_some_iff {connection : PublicConnection}
    (opened : state.connection = some connection) :
    (∃ next, state.step iterate resizable .read = some next) ↔
      SafeBytes iterate resizable state.registry connection.incoming := by
  rw [step, opened, safeBytes_iff]
  dsimp only
  cases outcome : WsClient.read resizable connection.incoming with
  | error fault =>
      cases fault with
      | failed => simp
      | thrown => simp
  | ok result =>
      obtain ⟨raw, rest⟩ := result
      rw [receive_some_iff]
      constructor
      · intro harmless
        refine ⟨fun thrown => ?_, fun payload after done => ?_⟩
        · cases thrown
        · cases done
          exact harmless
      · intro safe
        exact safe.2 raw rest rfl

theorem step_some_iff (action : QuotationAction) :
    (∃ next, state.step iterate resizable action = some next) ↔
      state.Safe iterate resizable action := by
  cases action with
  | add info => exact ⟨fun _ => trivial, fun _ => ⟨_, rfl⟩⟩
  | connect incoming =>
      refine ⟨fun _ => trivial, fun _ => ?_⟩
      rw [step]
      cases state.connection <;> exact ⟨_, rfl⟩
  | read =>
      cases opened : state.connection with
      | none =>
          refine ⟨fun _ connection found => ?_, fun _ => ?_⟩
          · rw [opened] at found
            cases found
          · rw [step, opened]
            exact ⟨_, rfl⟩
      | some connection =>
          rw [read_some_iff opened, Safe]
          simp [opened]
  | timeout =>
      refine ⟨fun _ => trivial, fun _ => ?_⟩
      rw [step]
      cases state.connection with
      | none => exact ⟨_, rfl⟩
      | some connection =>
          exact (receive_some_iff connection []).mpr fun nonempty => absurd rfl nonempty
  | lost => exact ⟨fun _ => trivial, fun _ => ⟨_, rfl⟩⟩

end Survival

/-- The thread gets through a run exactly when every turn of it that reads finds
bytes that are safe to read. -/
theorem quotation_thread_survives_iff (iterate : List UInt8 → Option Node)
    (resizable : ℕ → Bool) (registry : InstrumentRegistry) (actions : List QuotationAction) :
    (∃ final, Runs.run (step iterate resizable) { registry := registry } actions = some final) ↔
      ∀ before action after state, actions = before ++ action :: after →
        Runs.run (step iterate resizable) { registry := registry } before = some state →
          state.Safe iterate resizable action := by
  rw [Runs.run_some_iff]
  simp only [step_some_iff]

/-! ## An instrument that is not registered -/

def asciiBytes (text : String) : List UInt8 := text.toList.map fun char => UInt8.ofNat char.toNat

def textFrame (text : String) : List UInt8 :=
  0x81 :: UInt8.ofNat text.length :: asciiBytes text

def tickerPushText : String :=
  "\x7b\"arg\":\x7b\"channel\":\"tickers\",\"instId\":\"BTC-USDT\"\x7d," ++
    "\"data\":[\x7b\"last\":\"1\"\x7d]\x7d"

def tickerPush : Node :=
  .object [("arg", .object [("channel", .text "tickers"), ("instId", .text "BTC-USDT")]),
    ("data", .array [.object [("last", .text "1")]])]

def readTickerPush (raw : List UInt8) : Option Node :=
  if raw = asciiBytes tickerPushText then some tickerPush else none

example : (Runs.run (step readTickerPush fun len => len < 2 ^ 30)
    { registry := InstrumentRegistry.add ∅ { instrument := "BTC-USDT", pricePrecision := 2 } }
    [.connect (textFrame tickerPushText), .read]).map published =
      some [.ticker
        { instrument := "BTC-USDT", lastPrice := 100, lastVolume := 1, bidPrice := 100,
          bidVolume := 1, askPrice := 100, askVolume := 1, open24h := 100, high24h := 100,
          low24h := 100, volume24h := 1 }] := by decide +kernel

/-- The first push ends the thread when no instrument could be fetched. -/
theorem quotation_thread_dies : ¬ ∀ (iterate : List UInt8 → Option Node) (resizable : ℕ → Bool)
    (registry : InstrumentRegistry) (actions : List QuotationAction), ∃ final,
      Runs.run (step iterate resizable) { registry := registry } actions = some final := by
  intro always
  obtain ⟨final, ran⟩ := always readTickerPush (fun len => len < 2 ^ 30) ∅
    [.connect (textFrame tickerPushText), .read]
  have died : (Runs.run (step readTickerPush fun len => len < 2 ^ 30) { registry := ∅ }
      [.connect (textFrame tickerPushText), .read]).isSome = false := by decide +kernel
  rw [ran] at died
  cases died

end QuotationThread

end CryptoTrading
