/-
The monitor canister. Its heartbeat samples the exchange rate canister for four pairs, one call
after the other, and appends what comes back to a log. What keeps a second batch out is a flag,
set and cleared by hand around a loop with an early exit.

A run of the canister is any sequence of heartbeats and of answers to suspended batches. The
batches are recorded with their heartbeats' times and their answers, which no transition reads.
-/
import Xrc.Async
import Xrc.Types
import Xrc.Machine

set_option autoImplicit false

namespace Xrc.monitor

open Machine

/-! ## What is sampled

The four requests of a batch are fixed but for their timestamp. An entry is made of whatever
comes back, an error of the call included, so every answer leaves one. -/

def ONE_MINUTE_SECONDS : ℕ := 60
def NANOS_PER_SEC : ℕ := 1_000_000_000

inductive RejectionCode where
  | NoError
  | SysFatal
  | SysTransient
  | DestinationInvalid
  | CanisterReject
  | CanisterError
  | Unknown
  deriving DecidableEq, Repr

structure CallError where
  rejection_code : RejectionCode
  err : String
  deriving DecidableEq, Repr

/-- How a call to the exchange rate canister ends. -/
abbrev CallResult : Type := Except CallError (Except ExchangeRateError ExchangeRate)

inductive EntryResult where
  | Rate (rate : ExchangeRate)
  | RateError (err : ExchangeRateError)
  | CallError (err : CallError)
  deriving DecidableEq, Repr

structure Entry where
  request : GetExchangeRateRequest
  result : EntryResult
  deriving DecidableEq, Repr

def make_get_exchange_rate_request (base_asset quote_asset : Asset) (timestamp : ℕ) :
    GetExchangeRateRequest := ⟨base_asset, quote_asset, some timestamp⟩

/-- The requests for ICP/CXDR, BTC/BTT, ETH/EUR and SHIB/BTC. -/
def make_get_exchange_rate_requests (timestamp : ℕ) : List GetExchangeRateRequest :=
  [make_get_exchange_rate_request ⟨"ICP", .Cryptocurrency⟩ ⟨"CXDR", .FiatCurrency⟩ timestamp,
   make_get_exchange_rate_request ⟨"BTC", .Cryptocurrency⟩ ⟨"BTT", .Cryptocurrency⟩ timestamp,
   make_get_exchange_rate_request ⟨"ETH", .Cryptocurrency⟩ ⟨"EUR", .FiatCurrency⟩ timestamp,
   make_get_exchange_rate_request ⟨"SHIB", .Cryptocurrency⟩ ⟨"BTC", .Cryptocurrency⟩ timestamp]

/-- The entry for a request and the result of its call. -/
def entry (request : GetExchangeRateRequest) (call_result : CallResult) : Entry :=
  { request := request
    result :=
      match call_result with
      | .ok (.ok rate) => .Rate rate
      | .ok (.error err) => .RateError err
      | .error err => .CallError err }

/-! ## One batch

A batch is a program of `Async.lean` that awaits one call after the other. The early exit, when
an entry cannot be encoded, skips the remaining calls but not what follows the loop. -/

/-- The state the segments of a batch work on. -/
structure MonitorState where
  next_call_at_timestamp : ℕ
  is_calling_xrc : Bool
  entries : List (List UInt8)
  deriving DecidableEq

/-- A computation of the monitor; it owns no guards. -/
abbrev Sampler : Type := Async MonitorState Empty GetExchangeRateRequest (fun _ => CallResult) Unit

/-- The encoder of the entries, and whether the log has space for one more. -/
class Storage where
  encode_entry : Entry → Option (List UInt8)
  has_space : List (List UInt8) → List UInt8 → Bool

section Batch

variable [Storage]

/-- `entries.append(&bytes)`, whose error is only printed. -/
def append_entry (entries : List (List UInt8)) (bytes : List UInt8) : List (List UInt8) :=
  if Storage.has_space entries bytes then entries ++ [bytes] else entries

omit [Storage] in
/-- What follows the loop. -/
def conclude_batch (now_secs : ℕ) (s : MonitorState) : MonitorState :=
  { s with
    is_calling_xrc := false
    next_call_at_timestamp := saturating_add 64 now_secs (5 * ONE_MINUTE_SECONDS) }

/-- The loop over the requests. -/
def sample (now_secs : ℕ) : List GetExchangeRateRequest → MonitorState → Sampler
  | [], s => .done (conclude_batch now_secs s) ()
  | request :: requests, s =>
      .await s [] request fun call_result s =>
        match Storage.encode_entry (entry request call_result) with
        -- the batch is abandoned
        | none => .done (conclude_batch now_secs s) ()
        | some bytes =>
            sample now_secs requests { s with entries := append_entry s.entries bytes }

/-- `call_xrc_with_encoder`. -/
def call_xrc_with_encoder (now_secs : ℕ) (s : MonitorState) : Sampler :=
  if s.is_calling_xrc then .done s ()
  else if now_secs < s.next_call_at_timestamp then .done s ()
  else
    sample now_secs (make_get_exchange_rate_requests (now_secs - ONE_MINUTE_SECONDS))
      { s with is_calling_xrc := true }

omit [Storage] in
/-- The time of a heartbeat as the monitor counts, at the start of its minute. -/
def now_secs (now : UInt64) : ℕ := now.toNat / NANOS_PER_SEC / 60 * 60

/-- `beat`. -/
def beat (now : UInt64) (s : MonitorState) : Sampler := call_xrc_with_encoder (now_secs now) s

end Batch

/-! ## The canister

Heartbeats come at any time, and each runs its first segment at once. The record of batches is a
ghost: no segment reads it, and a suspended batch finds its own place in it. -/

/-- A batch, as it is recorded: the time of its heartbeat, and the answers to its calls. -/
structure Batch where
  time : UInt64
  call_results : List CallResult

/-- One more answer. -/
def Batch.answer (batch : Batch) (call_result : CallResult) : Batch :=
  { batch with call_results := batch.call_results ++ [call_result] }

/-- A suspended batch: its position in the record, and what it awaits. -/
structure Task where
  batch : ℕ
  resume : CallResult → MonitorState → Sampler

/-- The canister at a suspension point. -/
structure Monitor where
  state : MonitorState
  tasks : List Task
  batches : List Batch

/-- The canister after its installation or an upgrade, which keeps the log. -/
def Monitor.new (entries : List (List UInt8)) : Monitor := ⟨⟨0, false, entries⟩, [], []⟩

/-- What can happen to the canister. -/
inductive MonitorEvent where
  | heartbeat (now : UInt64)
  /-- The call of the `i`-th suspended batch is answered, or could not be performed. -/
  | answered (i : ℕ) (call_result : CallResult)

section Step

variable [Storage]

/-- A heartbeat runs its first segment. -/
def heartbeat (m : Monitor) (now : UInt64) : Monitor :=
  match beat now m.state with
  | .done s _ => { m with state := s }
  | .trap => m
  | .await s _ _ resume =>
      { state := s
        tasks := m.tasks ++ [⟨m.batches.length, resume⟩]
        batches := m.batches ++ [⟨now, []⟩] }

omit [Storage] in
/-- A suspended batch runs its next segment. -/
def answered (m : Monitor) (i : ℕ) (call_result : CallResult) : Monitor :=
  match m.tasks[i]? with
  | none => m
  | some task =>
      let batches := m.batches.modify task.batch (·.answer call_result)
      match task.resume call_result m.state with
      | .done s _ => ⟨s, m.tasks.eraseIdx i, batches⟩
      | .trap => { m with tasks := m.tasks.eraseIdx i }
      | .await s _ _ resume => ⟨s, m.tasks.set i ⟨task.batch, resume⟩, batches⟩

/-- One step of the canister. -/
def step (m : Monitor) : MonitorEvent → Monitor
  | .heartbeat now => heartbeat m now
  | .answered i call_result => answered m i call_result

/-- A run of the canister. -/
def run (m : Monitor) (events : List MonitorEvent) : Monitor := events.foldl step m

end Step

end Xrc.monitor
