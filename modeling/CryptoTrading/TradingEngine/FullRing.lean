import CryptoTrading.TradingEngine.OrderFlow
import CryptoTrading.TradingEngine.OrderHistory

/-! # Emitting into a full signal ring

Both emit calls reserve first and push last, and neither looks at what
`shm_push` returns.  A refused signal therefore leaves its reservation behind:
no report will ever come that could release it. -/
set_option autoImplicit false

namespace CryptoTrading

structure EmitCall where
  side : Side
  instrument : String
  orderType : OrderType
  price : Int
  volume : Int
  marketType : MarketType
  positionSide : PosSide
  tradeMode : TradeMode
  deriving DecidableEq

namespace EmitCall

def run (registry : InstrumentRegistry) (system : TradingSystem) (call : EmitCall) :
    Option TradingSystem :=
  match call.side with
  | .buy => system.emitBuy registry call.instrument call.orderType call.price call.volume
      call.marketType call.positionSide call.tradeMode
  | .sell => system.emitSell registry call.instrument call.orderType call.price call.volume
      call.marketType call.positionSide call.tradeMode

def signal (call : EmitCall) : Signal :=
  TradingSystem.emittedSignal
    (match call.side with
      | .buy => .buy
      | .sell => .sell)
    call.instrument call.orderType call.price call.volume call.marketType call.positionSide
    call.tradeMode

/-- The calls that look the instrument up and reserve. -/
def Reserves (call : EmitCall) : Prop :=
  call.marketType = .spot ∧ HoldsLock call.side call.tradeMode

instance (call : EmitCall) : Decidable call.Reserves :=
  inferInstanceAs (Decidable (_ ∧ _))

def currency (call : EmitCall) : String := lockedCurrencyOf call.instrument call.side

def amount (info : InstrumentInfo) (call : EmitCall) : ℚ :=
  lockValue info call.side call.price call.volume

/-- The call takes nothing: no lookup is made, or the order is for nothing. -/
def ReservesNothing (call : EmitCall) : Prop :=
  ¬ call.Reserves ∨ call.volume = 0 ∨ call.side = .buy ∧ call.price = 0

instance (call : EmitCall) : Decidable call.ReservesNothing :=
  inferInstanceAs (Decidable (_ ∨ _))

/-- Whenever the call returns, no currency has more or less reserved or
effectively available than before. -/
def ChangesNothing (registry : InstrumentRegistry) (system : TradingSystem) (call : EmitCall) :
    Prop :=
  ∀ after, call.run registry system = some after → ∀ currency,
    after.positions.reserved currency = system.positions.reserved currency ∧
      after.positions.getEffectiveAvailableSpot currency =
        system.positions.getEffectiveAvailableSpot currency

section Emit
variable {registry : InstrumentRegistry} {call : EmitCall}

theorem run_eq (system : TradingSystem) : call.run registry system =
    if call.Reserves then (registry.get call.instrument).map fun info =>
      (system.reserve call.currency (call.amount info)).pushSignal call.signal
    else some (system.pushSignal call.signal) := by
  cases sideCase : call.side with
  | buy =>
      have quote : Strategy.extractQuote call.instrument = call.currency := by
        rw [currency, sideCase, lockedCurrencyOf_buy]
      rw [run, sideCase]
      simp only [TradingSystem.emitBuy, Reserves, sideCase, holdsLock_buy, and_true, quote]
      split
      · cases found : registry.get call.instrument with
        | none => rfl
        | some info => simp [amount, signal, lockValue, sideCase]
      · simp [signal, sideCase]
  | sell =>
      have base : Strategy.extractBase call.instrument = call.currency := by
        rw [currency, sideCase, lockedCurrencyOf_sell]
      rw [run, sideCase]
      simp only [TradingSystem.emitSell, Reserves, sideCase, holdsLock_sell, base]
      split
      · cases found : registry.get call.instrument with
        | none => rfl
        | some info => simp [amount, signal, lockValue, sideCase]
      · simp [signal, sideCase]

theorem pushSignal_full {system : TradingSystem} (signal : Signal)
    (full : signalRingCapacity ≤ system.signalRing.length) : system.pushSignal signal = system := by
  rw [TradingSystem.pushSignal, shmPush, if_neg (by omega)]
  rfl

theorem amount_eq_zero_iff (info : InstrumentInfo) :
    call.amount info = 0 ↔ call.volume = 0 ∨ call.side = .buy ∧ call.price = 0 := by
  have zero : ∀ (scaled : Int) (precision : Nat), decode scaled precision = 0 ↔ scaled = 0 := by
    intro scaled precision
    rw [← decode_zero precision, decode_inj]
  cases sideCase : call.side with
  | buy => simp [amount, lockValue, sideCase, zero, or_comm]
  | sell => simp [amount, lockValue, sideCase, zero]

end Emit

/-- With the ring full, an emit call changes nothing exactly when it reserves
nothing or its lookup throws. -/
theorem changesNothing_iff (registry : InstrumentRegistry) (system : TradingSystem)
    (call : EmitCall) (full : signalRingCapacity ≤ system.signalRing.length) :
    call.ChangesNothing registry system ↔
      call.ReservesNothing ∨ registry.get call.instrument = none := by
  rw [ChangesNothing, run_eq, ReservesNothing]
  by_cases reserves : call.Reserves
  · rw [if_pos reserves]
    cases registry.get call.instrument with
    | none => simp
    | some info =>
        have kept : ((system.reserve call.currency (call.amount info)).pushSignal
            call.signal) = system.reserve call.currency (call.amount info) :=
          pushSignal_full call.signal full
        have reserved : ∀ currency,
            (system.reserve call.currency (call.amount info)).positions.reserved currency =
              system.positions.reserved currency +
                if currency = call.currency then call.amount info else 0 :=
          fun currency => reserved_reserveSpot system.positions call.currency currency _
        simp only [Option.map_some, Option.some.injEq, kept, forall_eq', reserves,
          not_true_eq_false, false_or, reduceCtorEq, or_false]
        rw [← amount_eq_zero_iff info]
        constructor
        · intro same
          have moved := (same call.currency).1
          rw [reserved, if_pos rfl] at moved
          linarith
        · intro nothing currency
          have unmoved : (system.reserve call.currency (call.amount info)).positions.reserved
              currency = system.positions.reserved currency := by
            rw [reserved, nothing, ite_self, add_zero]
          refine ⟨unmoved, ?_⟩
          rw [PositionManager.getEffectiveAvailableSpot, unmoved]
          rfl
  · rw [if_neg reserves, pushSignal_full call.signal full]
    refine iff_of_true ?_ (Or.inl (Or.inl reserves))
    intro after same currency
    cases Option.some.inj same
    exact ⟨rfl, rfl⟩

end EmitCall

/-- The ring behind a consumer that has stopped. -/
def fullRing : TradingSystem :=
  { signalRing := List.replicate signalRingCapacity
      (TradingSystem.emittedSignal .buy "BTC-USDT" .limit 100 1 .spot .net .cash) }

def oneMoreBuy : EmitCall :=
  { side := .buy, instrument := "BTC-USDT", orderType := .limit, price := 100, volume := 1,
    marketType := .spot, positionSide := .net, tradeMode := .cash }

theorem changesNothing_iff_oneMoreBuy :
    oneMoreBuy.ChangesNothing btcUsdtRegistry fullRing ↔
      oneMoreBuy.ReservesNothing ∨ btcUsdtRegistry.get oneMoreBuy.instrument = none :=
  EmitCall.changesNothing_iff btcUsdtRegistry fullRing oneMoreBuy
    (by rw [fullRing, List.length_replicate])

/-- It is refused, and its 100 USDT stay reserved. -/
theorem refused_signal_stays_reserved :
    ¬ ∀ (registry : InstrumentRegistry) (system : TradingSystem) (call : EmitCall),
      signalRingCapacity ≤ system.signalRing.length → call.ChangesNothing registry system := by
  intro claim
  have same := claim btcUsdtRegistry fullRing oneMoreBuy
    (by rw [fullRing, List.length_replicate]) _
    (by rw [EmitCall.run_eq, if_pos (by decide)]; rfl) "USDT"
  exact absurd same.1 (by decide +kernel)

end CryptoTrading
