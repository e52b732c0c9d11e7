/-
`environment.rs`: what a request handler sees of the system it runs on (its caller, the
clock and the cycles attached to the call), and how it charges for its work.

`accept_cycles` is whatever the system answers to `msg_cycles_accept`: the amount it
really moved. A charge that moves less than the fee panics, which discards the message;
`Charge` keeps that outcome apart from the error the handlers can return.
-/
import Xrc.Types

set_option autoImplicit false

namespace Xrc

/-- The system as one message execution sees it. It is read by the handlers and not changed by
them; cycles that were accepted are recorded in the state. Each message has its own, so the time
may be anything from one to the next. -/
structure Environment where
  caller : Principal
  /-- The current IC time in seconds. -/
  time_secs : ℕ
  /-- The cycles attached to the current message. -/
  cycles_available : ℕ
  /-- The amount actually accepted when a given maximum is asked for. -/
  accept_cycles : ℕ → ℕ

namespace Environment

/-- Checks if the call has enough cycles attached. -/
def has_enough_cycles (env : Environment) : Bool :=
  decide (XRC_REQUEST_CYCLES_COST ≤ env.cycles_available)

/-- An ordinary caller with enough cycles attached, all of which can be moved. -/
def ordinary (time_secs : ℕ) : Environment :=
  { caller := ⟨[1]⟩
    time_secs := time_secs
    cycles_available := XRC_REQUEST_CYCLES_COST
    accept_cycles := id }

/-- A privileged canister, which attaches no cycles. -/
def privileged (time_secs : ℕ) : Environment :=
  { caller := ⟨[0x00, 0x00, 0x00, 0x00, 0x00, 0x00, 0x00, 0x04, 0x01, 0x01]⟩
    time_secs := time_secs
    cycles_available := 0
    accept_cycles := id }

end Environment

/-- What a caller is charged for. -/
inductive ChargeOption where
  | MinimumFee
  | OutboundRatesNeeded (outbound_rates_needed : ℕ)
  deriving DecidableEq, Repr

/-- The fee, from the number of outbound rates needed. -/
def calculate_fee : ChargeOption → ℕ
  | .MinimumFee => XRC_MINIMUM_FEE_COST
  | .OutboundRatesNeeded outbound_rates_needed =>
    match outbound_rates_needed with
    | 0 => XRC_BASE_CYCLES_COST
    | 1 => XRC_BASE_CYCLES_COST + XRC_OUTBOUND_HTTP_CALL_CYCLES_COST
    | _ => XRC_BASE_CYCLES_COST + XRC_OUTBOUND_HTTP_CALL_CYCLES_COST * 2

/-- How an attempt to charge ends. Only the first two come back to the handler: a panic discards
the message and what it has done. -/
inductive Charge where
  /-- The fee was accepted. -/
  | charged (fee : ℕ)
  /-- `ChargeCyclesError::NotEnoughCycles`. -/
  | NotEnoughCycles
  /-- `panic!("Failed to accept cycles")`. -/
  | panicked
  deriving DecidableEq, Repr

/-- `Environment::charge_cycles`. -/
def Environment.charge_cycles (env : Environment) (option : ChargeOption) : Charge :=
  if !env.has_enough_cycles then .NotEnoughCycles
  else
    let fee := calculate_fee option
    let accepted := env.accept_cycles fee
    if accepted ≠ fee then .panicked else .charged fee

/-! ## The fee in closed form

A request is charged for two rates at most, however many it needs, so that no fee exceeds what
every admitted request has attached. The lemmas say so once, and the handlers' proofs never open
`calculate_fee`. -/

/-- The fee for `n` outbound rates: two of them at most are paid for. -/
theorem calculate_fee_outbound (n : ℕ) :
    calculate_fee (.OutboundRatesNeeded n)
      = XRC_BASE_CYCLES_COST + XRC_OUTBOUND_HTTP_CALL_CYCLES_COST * min n 2 := by
  match n with
  | 0 => rfl
  | 1 => rfl
  | n + 2 =>
    have hmin : min (n + 2) 2 = 2 := Nat.min_eq_right (by omega)
    rw [hmin]
    rfl

/-- **`charge_cycles` accepts exactly the fee**, when the call has enough cycles attached and the
system moves what it is asked for. The system may move less; then the canister panics and the
message leaves no trace, which is why `Charge` has a case of its own for it. -/
theorem charge_cycles_spec (env : Environment) (option : ChargeOption)
    (henough : env.has_enough_cycles = true)
    (haccept : env.accept_cycles (calculate_fee option) = calculate_fee option) :
    env.charge_cycles option = .charged (calculate_fee option) := by
  simp only [Environment.charge_cycles, henough, haccept, Bool.not_true,
    Bool.false_eq_true, if_false, ne_eq, not_true]

/-- A call with enough cycles attached is not turned away by the charge. -/
theorem Environment.charge_cycles_ne_NotEnoughCycles (env : Environment) (option : ChargeOption)
    (henough : env.has_enough_cycles = true) : env.charge_cycles option ≠ .NotEnoughCycles := by
  simp only [Environment.charge_cycles, henough, Bool.not_true, Bool.false_eq_true, if_false]
  split <;> nofun

end Xrc
