/-
The endpoint `get_exchange_rate` of `api.rs`: the handler of `Xrc.Api` with the request
counters of `lib.rs` and the two request logs of `request_log.rs` around it, and the canister
that serves it.

`serve` is the wrapper, over the state with the counters and logs. `Service` is the canister
with suspended calls of the endpoint in place of suspended handlers; `simulates_run` says
that, whatever happens, it is the canister of `Xrc.Canister` with bookkeeping, so that every
result about that canister is one about the endpoint.
-/
import Xrc.Canister

set_option autoImplicit false

namespace Xrc

open Async Machine CallExchangesImpl

/-- The result of the endpoint. -/
abbrev GetExchangeRateResult : Type := Except ExchangeRateError ExchangeRate

/-! ## `request_log.rs`

A log is a queue with a capacity: what is logged goes to the front, and what no longer fits is
dropped at the back. It is written once for each answer, so at most one entry is dropped. -/

/-- A single entry in the log. -/
structure RequestLogEntry where
  timestamp : ℕ
  caller : Principal
  request : GetExchangeRateRequest
  result : GetExchangeRateResult

/-- The most recent requests and results, the newest one first. -/
structure RequestLog where
  entries : List RequestLogEntry
  max_entries : ℕ

namespace RequestLog

def new (max_entries : ℕ) : RequestLog := ⟨[], max_entries⟩

/-- `RequestLog::log`. -/
def log [Unicode] (self : RequestLog) (caller : Principal) (timestamp : ℕ)
    (request : GetExchangeRateRequest) (result : GetExchangeRateResult) : RequestLog :=
  let entries := ⟨timestamp, caller, sanitize_request request, result⟩ :: self.entries
  { self with
    entries := if self.max_entries < entries.length then entries.dropLast else entries }

/-- A log that is not overfull drops what no longer fits. -/
theorem entries_log [Unicode] {self : RequestLog} (h : self.entries.length ≤ self.max_entries)
    (caller : Principal) (timestamp : ℕ) (request : GetExchangeRateRequest)
    (result : GetExchangeRateResult) :
    (self.log caller timestamp request result).entries
      = (⟨timestamp, caller, sanitize_request request, result⟩ :: self.entries).take
          self.max_entries := by
  unfold log
  dsimp only
  split
  · rename_i hfull
    rw [List.length_cons] at hfull
    have hlength : self.entries.length = self.max_entries := by omega
    rw [List.dropLast_eq_take, List.length_cons, Nat.add_sub_cancel, hlength]
  · rename_i hroom
    rw [List.take_of_length_le (Nat.not_lt.mp hroom)]

end RequestLog

/-! ## The counters of `lib.rs`

Every counter is a `Cell<usize>` of its own, incremented with saturation. Here they are one
function of their names, which leaves all but one of them alone by definition. -/

inductive MetricCounter where
  | GetExchangeRateRequest
  | GetExchangeRateRequestFromCmc
  | ErrorsReturned
  | RateLimitedErrors
  | CycleRelatedErrors
  | PendingErrorsReturned
  | StablecoinErrorsReturned
  | InconsistentRatesErrorsReturned
  | CryptoAssetRelatedErrorsReturned
  | ForexAssetRelatedErrorsReturned
  | ErrorsReturnedToCmc
  deriving DecidableEq, Repr

/-- The values of the counters, each a `usize` of a 32-bit target. -/
abbrev Metrics : Type := MetricCounter → ℕ

/-- `MetricCounter::increment`. -/
def MetricCounter.increment (self : MetricCounter) (metrics : Metrics) : Metrics :=
  Function.update metrics self (saturating_add 32 (metrics self) 1)

/-- The counter of an error, if it has one. -/
def error_counter : ExchangeRateError → Option MetricCounter
  | .Pending => some .PendingErrorsReturned
  | .CryptoBaseAssetNotFound | .CryptoQuoteAssetNotFound =>
    some .CryptoAssetRelatedErrorsReturned
  | .StablecoinRateNotFound | .StablecoinRateTooFewRates | .StablecoinRateZeroRate =>
    some .StablecoinErrorsReturned
  | .ForexInvalidTimestamp | .ForexBaseAssetNotFound | .ForexQuoteAssetNotFound
  | .ForexAssetsNotFound => some .ForexAssetRelatedErrorsReturned
  | .RateLimited => some .RateLimitedErrors
  | .NotEnoughCycles => some .CycleRelatedErrors
  | .InconsistentRatesReceived => some .InconsistentRatesErrorsReturned
  | .AnonymousPrincipalNotAllowed | .Other _ => none

/-! ## The endpoint

`get_exchange_rate` counts the request, runs the handler, logs and counts its result and returns
it. `serve` is this wrapper as a transformation of programs: it lets every call of the handler
through and adds its bookkeeping before the first segment and after the last. -/

def MAX_PRIVILEGED_REQUEST_LOG_ENTRIES : ℕ := 100
def MAX_NONPRIVILEGED_REQUEST_LOG_ENTRIES : ℕ := 50

/-- The state the endpoint works on. The handlers see and change the first part of it only. -/
structure Served (L : Type) where
  state : State L
  metrics : Metrics
  privileged_request_log : RequestLog
  nonprivileged_request_log : RequestLog

/-- The state of a newly installed canister, with the counters at zero. -/
def Served.new {L : Type} (state : State L) : Served L :=
  { state := state
    metrics := fun _ => 0
    privileged_request_log := RequestLog.new MAX_PRIVILEGED_REQUEST_LOG_ENTRIES
    nonprivileged_request_log := RequestLog.new MAX_NONPRIVILEGED_REQUEST_LOG_ENTRIES }

/-- What the endpoint remembers of a request until it answers it. The arguments are kept as they
came, before they are sanitized, since these are what the log shows. -/
structure Origin where
  caller : Principal
  timestamp : ℕ
  request : GetExchangeRateRequest
  deriving DecidableEq

/-- The request that a message brings. -/
def Origin.of (env : Environment) (request : GetExchangeRateRequest) : Origin :=
  ⟨env.caller, env.time_secs, request⟩

section Endpoint

variable {L : Type}

/-- The part of `get_exchange_rate` before the handler: it counts the request. -/
def count_request (origin : Origin) (metrics : Metrics) : Metrics :=
  let metrics := MetricCounter.GetExchangeRateRequest.increment metrics
  if is_caller_privileged origin.caller then
    MetricCounter.GetExchangeRateRequestFromCmc.increment metrics
  else metrics

/-- It counts the errors it returns, in all and by their kind. -/
def count_result (origin : Origin) (result : GetExchangeRateResult) (metrics : Metrics) :
    Metrics :=
  match result with
  | .ok _ => metrics
  | .error error =>
    let metrics := MetricCounter.ErrorsReturned.increment metrics
    let metrics := if is_caller_privileged origin.caller then
      MetricCounter.ErrorsReturnedToCmc.increment metrics else metrics
    match error_counter error with
    | some counter => counter.increment metrics
    | none => metrics

/-- The part of `get_exchange_rate` after the handler: it logs the answer and counts it. -/
def record_result [Unicode] (origin : Origin) (served : Served L)
    (result : GetExchangeRateResult) : Served L :=
  let served := if is_caller_privileged origin.caller then
    { served with
      privileged_request_log := served.privileged_request_log.log origin.caller
        origin.timestamp origin.request result }
  else
    { served with
      nonprivileged_request_log := served.nonprivileged_request_log.log origin.caller
        origin.timestamp origin.request result }
  { served with metrics := count_result origin result served.metrics }

/-- A handler of a request, started in the state of the endpoint. -/
def serve [Unicode] (origin : Origin) (served : Served L) :
    Handler L GetExchangeRateResult → Async (Served L) Guard Call Answer GetExchangeRateResult :=
  within Served.state (fun s served => { served with state := s }) (record_result origin) served

/-- `get_exchange_rate`. -/
def get_exchange_rate [Features] [Unicode] [LruCache L CacheKey QueriedExchangeRate]
    (env : Environment) (request : GetExchangeRateRequest) (served : Served L) :
    Async (Served L) Guard Call Answer GetExchangeRateResult :=
  serve (.of env request)
    { served with metrics := count_request (.of env request) served.metrics }
    (get_exchange_rate_internal env request served.state)

@[simp] theorem serve_done [Unicode] (origin : Origin) (served : Served L) (s : State L)
    (result : GetExchangeRateResult) :
    serve origin served (.done s result)
      = .done (record_result origin { served with state := s } result) result := rfl

@[simp] theorem serve_trap [Unicode] (origin : Origin) (served : Served L) :
    serve origin served .trap = .trap := rfl

@[simp] theorem serve_await [Unicode] (origin : Origin) (served : Served L) (s : State L)
    (held : List Guard) (call : Call)
    (resume : Answer call → State L → Handler L GetExchangeRateResult) :
    serve origin served (.await s held call resume)
      = .await { served with state := s } held call fun answer served =>
          serve origin served (resume answer served.state) := rfl

/-- Recording an answer leaves the state of the handlers alone. -/
@[simp] theorem state_record_result [Unicode] (origin : Origin) (served : Served L)
    (result : GetExchangeRateResult) :
    (record_result origin served result).state = served.state := by
  unfold record_result
  split
  · rfl
  · rfl

end Endpoint

/-! ## The canister that serves it

The same steps as those of the canister of `Canister.lean`, with sessions that remember the
request they answer. A segment that panics is rolled back, the counters included; if it was the
first one, the request was not taken. -/

/-- A suspended call of the endpoint. It differs from a suspended handler by what it does when the
handler has ended, and by remembering the request that is then logged. -/
structure Session (L : Type) where
  origin : Origin
  held : List Guard
  call : Call
  resume : Answer call → Served L → Async (Served L) Guard Call Answer GetExchangeRateResult
  outstanding : ℕ

/-- One outcall of a request has returned. -/
def Session.outcall_returned {L : Type} (session : Session L) : Session L :=
  { session with outstanding := session.outstanding - 1 }

/-- The canister with its counters and logs at a suspension point. -/
structure Service (L : Type) where
  served : Served L
  sessions : List (Session L)

/-- A request with its answer. -/
structure Reply where
  origin : Origin
  result : GetExchangeRateResult

/-- A newly installed canister. -/
def Service.new {L : Type} (s : State L) : Service L :=
  ⟨Served.new { s with inflight := ∅, request_counter := 0 }, []⟩

namespace Service

/-- There is room for one more suspended request. -/
def has_memory {L : Type} (sv : Service L) : Bool :=
  decide ((sv.sessions.length + 1) * MIN_SUSPENDED_REQUEST_BYTES ≤ WASM_MEMORY_BYTES)

section Step

variable [Features] [Unicode] {L : Type} [LruCache L CacheKey QueriedExchangeRate]

/-- A request arrives and runs its first segment. -/
def arrive (sv : Service L) (env : Environment) (request : GetExchangeRateRequest) : Service L :=
  match get_exchange_rate env request sv.served with
  | .done served _ => { sv with served := served }
  | .trap => sv
  | .await served held call resume =>
    if sv.has_memory then
      { served := served
        sessions := sv.sessions ++
          [{ origin := .of env request
             held := held
             call := call
             resume := resume
             outstanding := outcalls served.state.listing_store env.time_secs call }] }
    else sv

omit [Features] [LruCache L CacheKey QueriedExchangeRate] in
/-- The `i`-th request, all of whose outcalls have returned, runs its next segment. -/
def resume_session (sv : Service L) (i : ℕ) (now_secs : ℕ)
    (answers : (call : Call) → Answer call) : Service L :=
  match sv.sessions[i]? with
  | none => sv
  | some session =>
    if session.outstanding ≠ 0 then sv
    else
      match session.resume (answers session.call) sv.served with
      | .done served _ => ⟨served, sv.sessions.eraseIdx i⟩
      | .trap => { sv with sessions := sv.sessions.eraseIdx i }
      | .await served held call resume =>
        { served := served
          sessions := sv.sessions.set i
            { origin := session.origin
              held := held
              call := call
              resume := resume
              outstanding := outcalls served.state.listing_store now_secs call } }

/-- One step. -/
def step (sv : Service L) : Event → Service L
  | .call env request => arrive sv env request
  | .outcall_returned i => { sv with sessions := sv.sessions.modify i Session.outcall_returned }
  | .resume i now_secs answers => resume_session sv i now_secs answers
  | .timer forex_store listing_store =>
    { sv with
      served := { sv.served with
        state := { sv.served.state with
          forex_store := forex_store, listing_store := listing_store } } }

/-- The answer an event sends. -/
def sends (sv : Service L) : Event → Option Reply
  | .call env request =>
    match get_exchange_rate env request sv.served with
    | .done _ result => some ⟨.of env request, result⟩
    | _ => none
  | .resume i _ answers =>
    match sv.sessions[i]? with
    | none => none
    | some session =>
      if session.outstanding ≠ 0 then none
      else
        match session.resume (answers session.call) sv.served with
        | .done _ result => some ⟨session.origin, result⟩
        | _ => none
  | _ => none

theorem sends_call (sv : Service L) (env : Environment) (request : GetExchangeRateRequest) :
    sv.sends (.call env request)
      = match get_exchange_rate env request sv.served with
        | .done _ result => some ⟨.of env request, result⟩
        | _ => none := rfl

theorem sends_resume (sv : Service L) (i now_secs : ℕ) (answers : (call : Call) → Answer call) :
    sv.sends (.resume i now_secs answers)
      = match sv.sessions[i]? with
        | none => none
        | some session =>
          if session.outstanding ≠ 0 then none
          else
            match session.resume (answers session.call) sv.served with
            | .done _ result => some ⟨session.origin, result⟩
            | _ => none := rfl

/-- A run. -/
def run (sv : Service L) (events : List Event) : Service L := events.foldl step sv

theorem run_concat (sv : Service L) (events : List Event) (event : Event) :
    run sv (events ++ [event]) = step (run sv events) event := by
  rw [run, List.foldl_append]
  rfl

end Step

end Service

/-! ## It is the canister with bookkeeping

A simulation in lockstep. Its relation says that the states agree but for counters and logs, and
that each session is a suspended handler with `serve` around it; so every result about the
canister is one about the endpoint. An event sends an answer on one side exactly when it does on
the other, and it is the same result. -/

/-- The endpoint around a suspended handler. -/
def Session.serving [Unicode] {L : Type} (origin : Origin) (task : Task L) : Session L :=
  { origin := origin
    held := task.held
    call := task.call
    resume := fun answer served => serve origin served (task.resume answer served.state)
    outstanding := task.outstanding }

/-- A suspended call of the endpoint is a suspended handler with the endpoint around it. The
wrapper adds nothing to what a handler awaits, so both are suspended and resumed together. -/
def Serves [Unicode] {L : Type} (session : Session L) (task : Task L) : Prop :=
  session = .serving session.origin task

/-- The service is this canister, but for its counters and logs. The sessions and the suspended
requests are related one by one, in their order, so that an index means the same on both sides. -/
structure Simulates [Unicode] {L : Type} (sv : Service L) (c : Canister L) : Prop where
  state_eq : sv.served.state = c.state
  sessions : List.Forall₂ Serves sv.sessions c.tasks

section Forall₂

variable {α β : Type} {R : α → β → Prop} {as : List α} {bs : List β}

theorem forall₂_concat (h : List.Forall₂ R as bs) {a : α} {b : β} (hab : R a b) :
    List.Forall₂ R (as ++ [a]) (bs ++ [b]) := List.rel_append h (.cons hab .nil)

theorem forall₂_eraseIdx (h : List.Forall₂ R as bs) (i : ℕ) :
    List.Forall₂ R (as.eraseIdx i) (bs.eraseIdx i) := by
  induction h generalizing i with
  | nil => exact .nil
  | cons hab hrest ih =>
      cases i with
      | zero => exact hrest
      | succ i => exact .cons hab (ih i)

theorem forall₂_modify {f : α → α} {g : β → β} (hfg : ∀ a b, R a b → R (f a) (g b))
    (h : List.Forall₂ R as bs) (i : ℕ) : List.Forall₂ R (as.modify i f) (bs.modify i g) := by
  induction h generalizing i with
  | nil =>
      rw [List.modify_nil, List.modify_nil]
      exact .nil
  | cons hab hrest ih =>
      cases i with
      | zero => exact .cons (hfg _ _ hab) hrest
      | succ i => exact .cons hab (ih i)

theorem forall₂_set (h : List.Forall₂ R as bs) {a : α} {b : β} (hab : R a b) (i : ℕ) :
    List.Forall₂ R (as.set i a) (bs.set i b) := by
  induction h generalizing i with
  | nil => exact .nil
  | cons hfirst hrest ih =>
      cases i with
      | zero => exact .cons hab hrest
      | succ i => exact .cons hfirst (ih i)

theorem forall₂_getElem? (h : List.Forall₂ R as bs) (i : ℕ) :
    Option.Rel R as[i]? bs[i]? := by
  induction h generalizing i with
  | nil => exact .none
  | cons hab hrest ih =>
      cases i with
      | zero => exact .some hab
      | succ i => exact ih i

end Forall₂

section Simulation

variable [Features] [Unicode] {L : Type} [LruCache L CacheKey QueriedExchangeRate]

/-- The result with which an event ends a request of the canister. -/
def sends (c : Canister L) : Event → Option GetExchangeRateResult
  | .call env request =>
    match get_exchange_rate_internal env request c.state with
    | .done _ result => some result
    | _ => none
  | .resume i _ answers =>
    match c.tasks[i]? with
    | none => none
    | some task =>
      if task.outstanding ≠ 0 then none
      else
        match task.resume (answers task.call) c.state with
        | .done _ result => some result
        | _ => none
  | _ => none

omit [Features] [LruCache L CacheKey QueriedExchangeRate] in
theorem Simulates.has_memory_eq {sv : Service L} {c : Canister L} (h : Simulates sv c) :
    sv.has_memory = has_memory c := by
  rw [Service.has_memory, has_memory, h.sessions.length_eq]

theorem simulates_arrive {sv : Service L} {c : Canister L} (h : Simulates sv c)
    (env : Environment) (request : GetExchangeRateRequest) :
    Simulates (sv.arrive env request) (arrive c env request) := by
  unfold Service.arrive arrive get_exchange_rate
  rw [h.state_eq]
  cases get_exchange_rate_internal env request c.state with
  | done s result =>
      refine ⟨?_, h.sessions⟩
      rw [serve_done]
      exact state_record_result _ _ _
  | trap => exact h
  | await s held call resume =>
      rw [serve_await]
      dsimp only
      rw [h.has_memory_eq]
      split
      · exact ⟨rfl, forall₂_concat h.sessions rfl⟩
      · exact h

omit [Features] [LruCache L CacheKey QueriedExchangeRate] in
theorem simulates_resume {sv : Service L} {c : Canister L} (h : Simulates sv c)
    (i now_secs : ℕ) (answers : (call : Call) → Answer call) :
    Simulates (sv.resume_session i now_secs answers) (resume_task c i now_secs answers) := by
  unfold Service.resume_session resume_task
  have hget := forall₂_getElem? h.sessions i
  cases hsession : sv.sessions[i]? with
  | none =>
      rw [hsession] at hget
      cases htask : c.tasks[i]? with
      | none => exact h
      | some task =>
          rw [htask] at hget
          cases hget
  | some session =>
      rw [hsession] at hget
      cases htask : c.tasks[i]? with
      | none =>
          rw [htask] at hget
          cases hget
      | some task =>
          rw [htask] at hget
          cases hget with
          | some hserves =>
              -- the session is that of the request's handler
              rw [Serves, Session.serving] at hserves
              generalize session.origin = origin at hserves
              subst hserves
              dsimp only
              split
              · exact h
              · rw [h.state_eq]
                -- the bookkeeping after the handler leaves its state alone
                cases task.resume (answers task.call) c.state with
                | done s result =>
                    refine ⟨?_, forall₂_eraseIdx h.sessions i⟩
                    rw [serve_done]
                    exact state_record_result _ _ _
                | trap => exact ⟨h.state_eq, forall₂_eraseIdx h.sessions i⟩
                | await s held call resume =>
                    apply Simulates.mk rfl
                    apply forall₂_set h.sessions
                    rfl

/-- One step of the service is the same step of the canister. -/
theorem simulates_step {sv : Service L} {c : Canister L} (h : Simulates sv c) (event : Event) :
    Simulates (sv.step event) (step c event) := by
  cases event with
  | call env request => exact simulates_arrive h env request
  | resume i now_secs answers => exact simulates_resume h i now_secs answers
  | timer forex_store listing_store =>
      refine ⟨?_, h.sessions⟩
      rw [Service.step, step, h.state_eq]
  | outcall_returned i =>
      refine ⟨h.state_eq, forall₂_modify ?_ h.sessions i⟩
      intro session task hserves
      rw [Serves] at hserves ⊢
      rw [hserves]
      rfl

/-- What one step sends is what the canister's handler ends with at this step. The relation says
that a suspended endpoint is a suspended handler with a wrapper around it, and the wrapper returns
the result of the handler as it is. -/
theorem Simulates.sends_eq {sv : Service L} {c : Canister L} (h : Simulates sv c)
    (event : Event) : (sv.sends event).map Reply.result = sends c event := by
  cases event with
  | call env request =>
      rw [Service.sends_call, sends, get_exchange_rate, h.state_eq]
      -- `serve` returns the result of the handler, and passes on a trap or a call
      cases get_exchange_rate_internal env request c.state with
      | done s result => rfl
      | trap => rfl
      | await s held call resume => rfl
  | resume i now_secs answers =>
      rw [Service.sends_resume, sends]
      have hget := forall₂_getElem? h.sessions i
      generalize sv.sessions[i]? = session? at hget ⊢
      generalize c.tasks[i]? = task? at hget ⊢
      cases hget with
      | none => rfl
      | @some session task hserves =>
          rw [Serves, Session.serving] at hserves
          rw [hserves]
          dsimp only
          split
          · rfl
          · rw [h.state_eq]
            cases task.resume (answers task.call) c.state with
            | done s result => rfl
            | trap => rfl
            | await s held call resume => rfl
  | timer forex_store listing_store => rfl
  | outcall_returned i => rfl

/-- Related states stay related over a run. -/
theorem Simulates.run {sv : Service L} {c : Canister L} (h : Simulates sv c)
    (events : List Event) : Simulates (sv.run events) (run c events) := by
  induction events using List.reverseRecOn with
  | nil => exact h
  | append_singleton events event ih =>
      rw [Service.run_concat, run_concat]
      exact simulates_step ih event

omit [Features] [LruCache L CacheKey QueriedExchangeRate] in
/-- A service without requests is a canister without requests. -/
theorem simulates_new (s : State L) : Simulates (Service.new s) (Canister.idle s) := ⟨rfl, .nil⟩

/-- **The endpoint is the handler with bookkeeping.** Every run of the service is, event by event,
the run of the canister without counters and logs: the same state of the handlers, the same
requests suspended at the same calls, and whatever event comes next, it is answered with the
result that the handler ends with, or left unanswered where the handler goes on or traps. As this
holds after every run, it holds at each step of one.

Both sides have the same step for every kind of event, with `serve` around the handler, so the
relation is kept by one case for each of them (`simulates_step`). The answers agree because
`serve` returns what the handler does (`Simulates.sends_eq`). -/
theorem simulates_run (s : State L) (events : List Event) :
    Simulates ((Service.new s).run events) (run (Canister.idle s) events)
      ∧ ∀ event, (((Service.new s).run events).sends event).map Reply.result
          = sends (run (Canister.idle s) events) event :=
  have hrun := (simulates_new s).run events
  ⟨hrun, hrun.sends_eq⟩

end Simulation

end Xrc
