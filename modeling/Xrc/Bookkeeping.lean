/-
The books of the endpoint over whole runs: every request that is taken is answered exactly
once or still suspended, every counter is the number of the requests and answers it stands
for, and each log holds the most recent answers of its callers.

`books_step` says what one event does to the books, `accepted` and `answered` read the
requests and the answers of a run off its events; the results are about these two lists.
-/
import Xrc.Endpoint

set_option autoImplicit false

namespace Xrc

open Async Machine

/-- A request of one of the privileged canisters. -/
def Origin.privileged (origin : Origin) : Bool := is_caller_privileged origin.caller

/-! ## What a run takes and what it sends

The two streams the books are about. Both are read off a run from outside, step by step: a
request is taken when its message is not rolled back, and an answer sent when a segment ends the
handler. -/

namespace Service

section Outputs

variable [Features] [Unicode] {L : Type} [LruCache L CacheKey QueriedExchangeRate] {β : Type}

/-- The request an event brings, if it is taken: a message that panics, or for which there is
no room, is rolled back. -/
def accepts (sv : Service L) : Event → Option Origin
  | .call env request =>
    match get_exchange_rate env request sv.served with
    | .done _ _ => some (.of env request)
    | .trap => none
    | .await _ _ _ _ => if sv.has_memory then some (.of env request) else none
  | _ => none

/-- What the events of a run put out, in order. -/
def outputs (out : Service L → Event → Option β) (sv : Service L) : List Event → List β
  | [] => []
  | event :: events => (out sv event).toList ++ outputs out (sv.step event) events

theorem outputs_concat (out : Service L → Event → Option β) (event : Event)
    (events : List Event) :
    ∀ sv : Service L, outputs out sv (events ++ [event])
      = outputs out sv events ++ (out (sv.run events) event).toList := by
  induction events with
  | nil =>
      intro sv
      rw [List.nil_append, outputs, outputs, outputs, List.append_nil, List.nil_append]
      rfl
  | cons first events ih =>
      intro sv
      rw [List.cons_append, outputs, ih, outputs, List.append_assoc]
      rfl

/-- The requests taken in a run. -/
def accepted (sv : Service L) (events : List Event) : List Origin := outputs accepts sv events

/-- The answers sent in a run. -/
def answered (sv : Service L) (events : List Event) : List Reply := outputs sends sv events

end Outputs

end Service

/-! ## What one event does to the books

The step lemma. An event does one of four things, and each fixes the counters, both logs and the
sessions together; everything below is an induction over runs along these four cases. -/

section Books

variable [Unicode] {L : Type}

/-- The log of the privileged callers, or of the others. -/
def Served.log_of (served : Served L) (privileged : Bool) : RequestLog :=
  if privileged then served.privileged_request_log else served.nonprivileged_request_log

/-- The log of an answer. -/
def RequestLog.log_answer (self : RequestLog) (answer : Reply) : RequestLog :=
  self.log answer.origin.caller answer.origin.timestamp answer.origin.request answer.result

@[simp] theorem metrics_record_result (origin : Origin) (served : Served L)
    (result : GetExchangeRateResult) :
    (record_result origin served result).metrics = count_result origin result served.metrics := by
  unfold record_result
  split
  · rfl
  · rfl

/-- An answer goes to the log of its caller and to no other. -/
theorem log_of_record_result (origin : Origin) (served : Served L)
    (result : GetExchangeRateResult) (privileged : Bool) :
    (record_result origin served result).log_of privileged
      = if origin.privileged = privileged then
          (served.log_of privileged).log_answer ⟨origin, result⟩
        else served.log_of privileged := by
  unfold record_result Served.log_of Origin.privileged
  cases is_caller_privileged origin.caller
  · cases privileged
    · rfl
    · rfl
  · cases privileged
    · rfl
    · rfl

variable [Features] [LruCache L CacheKey QueriedExchangeRate]

/-- **What an event does to the books.** -/
inductive Books (sv sv' : Service L) (event : Event) : Prop where
  /-- Nothing is taken and nothing is sent. -/
  | quiet (haccepts : sv.accepts event = none) (hsends : sv.sends event = none)
      (hmetrics : sv'.served.metrics = sv.served.metrics)
      (hlogs : sv'.served.log_of = sv.served.log_of)
      (horigins : sv'.sessions.map Session.origin = sv.sessions.map Session.origin)
  /-- A request is taken and suspended. -/
  | taken {origin : Origin} (haccepts : sv.accepts event = some origin)
      (hsends : sv.sends event = none)
      (hmetrics : sv'.served.metrics = count_request origin sv.served.metrics)
      (hlogs : sv'.served.log_of = sv.served.log_of)
      (horigins : sv'.sessions.map Session.origin
        = sv.sessions.map Session.origin ++ [origin])
  /-- A request is taken and answered at once. -/
  | answered {origin : Origin} {result : GetExchangeRateResult}
      (haccepts : sv.accepts event = some origin)
      (hsends : sv.sends event = some ⟨origin, result⟩)
      (hmetrics : sv'.served.metrics
        = count_result origin result (count_request origin sv.served.metrics))
      (hlogs : ∀ privileged, sv'.served.log_of privileged
        = if origin.privileged = privileged then
            (sv.served.log_of privileged).log_answer ⟨origin, result⟩
          else sv.served.log_of privileged)
      (horigins : sv'.sessions.map Session.origin = sv.sessions.map Session.origin)
  /-- A suspended request is answered. -/
  | resumed {i : ℕ} {origin : Origin} {result : GetExchangeRateResult}
      (haccepts : sv.accepts event = none)
      (hsends : sv.sends event = some ⟨origin, result⟩)
      (hmetrics : sv'.served.metrics = count_result origin result sv.served.metrics)
      (hlogs : ∀ privileged, sv'.served.log_of privileged
        = if origin.privileged = privileged then
            (sv.served.log_of privileged).log_answer ⟨origin, result⟩
          else sv.served.log_of privileged)
      (horigin : (sv.sessions.map Session.origin)[i]? = some origin)
      (horigins : sv'.sessions.map Session.origin
        = (sv.sessions.map Session.origin).eraseIdx i)

theorem books_arrive {sv : Service L} (env : Environment) (request : GetExchangeRateRequest) :
    Books sv (sv.arrive env request) (.call env request) := by
  have haccepts : sv.accepts (.call env request)
      = match get_exchange_rate env request sv.served with
        | .done _ _ => some (.of env request)
        | .trap => none
        | .await _ _ _ _ => if sv.has_memory then some (.of env request) else none := rfl
  have hsends := sv.sends_call env request
  unfold Service.arrive
  unfold get_exchange_rate at haccepts hsends ⊢
  cases hrun : get_exchange_rate_internal env request sv.served.state with
  | done s result =>
      rw [hrun, serve_done] at haccepts hsends
      rw [serve_done]
      refine .answered haccepts hsends (metrics_record_result _ _ _) (fun privileged => ?_) rfl
      exact log_of_record_result _ _ _ _
  -- the message is rolled back: the request was not taken
  | trap =>
      rw [hrun, serve_trap] at haccepts hsends
      exact .quiet haccepts hsends rfl rfl rfl
  | await s held call resume =>
      rw [hrun, serve_await] at haccepts hsends
      rw [serve_await]
      dsimp only at haccepts ⊢
      -- without room for one more session it is rolled back as well
      by_cases hroom : sv.has_memory = true
      · rw [if_pos hroom] at haccepts ⊢
        refine .taken haccepts hsends rfl rfl ?_
        rw [List.map_append]
        rfl
      · rw [if_neg hroom] at haccepts ⊢
        exact .quiet haccepts hsends rfl rfl rfl

omit [Unicode] [Features] [LruCache L CacheKey QueriedExchangeRate] in
/-- A session replaced by one of the same request. -/
theorem map_origin_set {sessions : List (Session L)} {i : ℕ} {session session' : Session L}
    (hsession : sessions[i]? = some session) (horigin : session'.origin = session.origin) :
    (sessions.set i session').map Session.origin = sessions.map Session.origin := by
  obtain ⟨hi, rfl⟩ := List.getElem?_eq_some_iff.mp hsession
  rw [List.map_set, horigin]
  apply List.ext_getElem?
  intro j
  rw [List.getElem?_set, List.length_map]
  split
  · rename_i hij
    subst hij
    rw [List.getElem?_map, List.getElem?_eq_getElem hi, Option.map_some]
  · rfl

theorem books_resume {sv : Service L} {c : Canister L} (h : Simulates sv c)
    (hc : c.WellFormed) (i now_secs : ℕ) (answers : (call : Call) → Answer call) :
    Books sv (sv.resume_session i now_secs answers) (.resume i now_secs answers) := by
  have hsends := sv.sends_resume i now_secs answers
  have hget := forall₂_getElem? h.sessions i
  unfold Service.resume_session
  cases hsession : sv.sessions[i]? with
  | none =>
      rw [hsession] at hsends
      exact .quiet rfl hsends rfl rfl rfl
  | some session =>
      rw [hsession] at hget hsends
      cases htask : c.tasks[i]? with
      | none =>
          rw [htask] at hget
          cases hget
      | some task =>
          rw [htask] at hget
          cases hget with
          | some hserves =>
              have horigin : (sv.sessions.map Session.origin)[i]? = some session.origin := by
                rw [List.getElem?_map, hsession, Option.map_some]
              rw [Serves] at hserves
              -- the session is the handler with the bookkeeping around it, so one run decides
              -- both
              have hresume : session.resume (answers session.call) sv.served
                  = serve session.origin sv.served (task.resume (answers task.call) c.state) := by
                rw [← h.state_eq, hserves]
                rfl
              dsimp only at hsends ⊢
              -- as long as outcalls are outstanding nothing is resumed
              by_cases houtstanding : session.outstanding ≠ 0
              · rw [if_pos houtstanding] at hsends ⊢
                exact .quiet rfl hsends rfl rfl rfl
              · rw [if_neg houtstanding, hresume] at hsends
                rw [if_neg houtstanding, hresume]
                obtain ⟨fees, admitted, hresumes⟩ :=
                  (hc.tasks task (List.mem_of_getElem? htask)).resumes
                have hholds := hresumes (answers task.call) c.state
                cases hrun : task.resume (answers task.call) c.state with
                | trap =>
                    -- no handler traps once its guards are held
                    rw [hrun] at hholds
                    exact hholds.elim
                | done s result =>
                    rw [hrun, serve_done] at hsends
                    rw [serve_done]
                    refine .resumed rfl hsends (metrics_record_result _ _ _)
                      (fun privileged => ?_) horigin ?_
                    · exact log_of_record_result _ _ _ _
                    · rw [List.eraseIdx_map]
                | await s held call resume =>
                    rw [hrun, serve_await] at hsends
                    rw [serve_await]
                    exact .quiet rfl hsends rfl rfl (map_origin_set hsession rfl)

theorem books_step {sv : Service L} {c : Canister L} (h : Simulates sv c) (hc : c.WellFormed)
    (event : Event) : Books sv (sv.step event) event := by
  cases event with
  | call env request => exact books_arrive env request
  | resume i now_secs answers => exact books_resume h hc i now_secs answers
  | timer forex_store listing_store => exact .quiet rfl rfl rfl rfl rfl
  | outcall_returned i =>
      refine .quiet rfl rfl rfl rfl ?_
      rw [Service.step]
      apply List.ext_getElem?
      intro j
      rw [List.getElem?_map, List.getElem?_map, List.getElem?_modify, Option.map_eq_map,
        Option.map_map]
      refine congrArg (fun f => Option.map f sv.sessions[j]?) (funext fun session => ?_)
      rw [Function.comp_apply]
      split
      · rfl
      · rfl

/-- What every event of a run does to the books. -/
theorem books_run (s : State L) (events : List Event) (event : Event) :
    Books ((Service.new s).run events) ((Service.new s).run (events ++ [event])) event := by
  rw [Service.run_concat]
  exact books_step ((simulates_new s).run events)
    (wellFormed_run _ (Canister.wellFormed_idle s) events) event

end Books

/-! ## The counters

What a counter stands for is written on requests and on errors, not by the function that picks
the counter of an error. That this function agrees is `error_counter_eq_some_iff`, one case for
each error. -/

section Counters

/-- Whether a counter counts a request. -/
def MetricCounter.counts_request : MetricCounter → Origin → Bool
  | .GetExchangeRateRequest, _ => true
  | .GetExchangeRateRequestFromCmc, origin => origin.privileged
  | _, _ => false

/-- The errors that a counter of a kind is there for. -/
def MetricCounter.kind_of_errors : MetricCounter → List ExchangeRateError
  | .PendingErrorsReturned => [.Pending]
  | .CryptoAssetRelatedErrorsReturned => [.CryptoBaseAssetNotFound, .CryptoQuoteAssetNotFound]
  | .StablecoinErrorsReturned =>
    [.StablecoinRateNotFound, .StablecoinRateTooFewRates, .StablecoinRateZeroRate]
  | .ForexAssetRelatedErrorsReturned =>
    [.ForexInvalidTimestamp, .ForexBaseAssetNotFound, .ForexQuoteAssetNotFound,
      .ForexAssetsNotFound]
  | .RateLimitedErrors => [.RateLimited]
  | .CycleRelatedErrors => [.NotEnoughCycles]
  | .InconsistentRatesErrorsReturned => [.InconsistentRatesReceived]
  | _ => []

/-- Whether a counter counts an answer: the two of all errors go by the caller, the others by
the errors they are there for. -/
def MetricCounter.counts_answer (self : MetricCounter) (answer : Reply) : Bool :=
  match answer.result with
  | .ok _ => false
  | .error error =>
    match self with
    | .ErrorsReturned => true
    | .ErrorsReturnedToCmc => answer.origin.privileged
    | _ => decide (error ∈ self.kind_of_errors)

/-- What a counter stands for. -/
def MetricCounter.tally (self : MetricCounter) (accepted : List Origin)
    (answered : List Reply) : ℕ :=
  accepted.countP self.counts_request + answered.countP self.counts_answer

theorem increment_eq {metrics : Metrics} {counter : MetricCounter} {n : ℕ}
    (h : metrics counter = min n (wordMax 32)) (incremented : MetricCounter) :
    incremented.increment metrics counter
      = min (n + (decide (incremented = counter)).toNat) (wordMax 32) := by
  unfold MetricCounter.increment saturating_add
  by_cases hsame : incremented = counter
  · subst hsame
    rw [Function.update_self, h, decide_eq_true rfl, Bool.toNat_true]
    omega
  · rw [Function.update_of_ne (Ne.symm hsame), decide_eq_false hsame, Bool.toNat_false,
      Nat.add_zero, h]

theorem increment_if_eq {metrics : Metrics} {counter : MetricCounter} {n : ℕ}
    (h : metrics counter = min n (wordMax 32)) (incremented : MetricCounter) (condition : Bool) :
    (if condition = true then incremented.increment metrics else metrics) counter
      = min (n + (condition && decide (incremented = counter)).toNat) (wordMax 32) := by
  cases condition with
  | true =>
      rw [if_pos rfl, Bool.true_and]
      exact increment_eq h incremented
  | false =>
      rw [if_neg Bool.false_ne_true, Bool.false_and]
      exact h

theorem count_request_eq {metrics : Metrics} {counter : MetricCounter} {n : ℕ}
    (h : metrics counter = min n (wordMax 32)) (origin : Origin) :
    count_request origin metrics counter
      = min (n + (counter.counts_request origin).toNat) (wordMax 32) := by
  have hcounted := increment_eq h .GetExchangeRateRequest
  rw [count_request, increment_if_eq hcounted, Nat.add_assoc]
  have hkinds : (decide (MetricCounter.GetExchangeRateRequest = counter)).toNat
      + (is_caller_privileged origin.caller
        && decide (MetricCounter.GetExchangeRateRequestFromCmc = counter)).toNat
      = (counter.counts_request origin).toNat := by
    unfold MetricCounter.counts_request Origin.privileged
    cases counter <;> simp
  rw [hkinds]

/-- An error is counted under the kind that is there for it. -/
theorem error_counter_eq_some_iff (error : ExchangeRateError) (kind : MetricCounter) :
    error_counter error = some kind ↔ error ∈ kind.kind_of_errors := by
  cases error <;> cases kind <;> simp [error_counter, MetricCounter.kind_of_errors]

/-- The counters of all errors are not those of a kind. -/
theorem error_counter_ne (error : ExchangeRateError) :
    error_counter error ≠ some .ErrorsReturned
      ∧ error_counter error ≠ some .ErrorsReturnedToCmc := by
  cases error <;> exact ⟨nofun, nofun⟩

theorem count_result_eq {metrics : Metrics} {counter : MetricCounter} {n : ℕ}
    (h : metrics counter = min n (wordMax 32)) (origin : Origin)
    (result : GetExchangeRateResult) :
    count_result origin result metrics counter
      = min (n + (counter.counts_answer ⟨origin, result⟩).toNat) (wordMax 32) := by
  cases result with
  | ok rate => exact h
  | error error =>
      obtain ⟨hall, hcmc⟩ := error_counter_ne error
      -- the two counters of all errors, then the one of the kind
      have htwo := increment_if_eq (increment_eq h .ErrorsReturned) .ErrorsReturnedToCmc
        (is_caller_privileged origin.caller)
      unfold count_result MetricCounter.counts_answer Origin.privileged
      simp only [← error_counter_eq_some_iff]
      cases hkind : error_counter error with
      | none =>
          dsimp only
          rw [htwo, Nat.add_assoc]
          cases counter <;> simp
      | some kind =>
          rw [hkind] at hall hcmc
          dsimp only
          rw [increment_eq htwo kind, Nat.add_assoc, Nat.add_assoc]
          cases counter <;> simp_all

/-- The kinds of errors that are counted. -/
def ERROR_KINDS : List MetricCounter :=
  [.PendingErrorsReturned, .CryptoAssetRelatedErrorsReturned, .StablecoinErrorsReturned,
    .ForexAssetRelatedErrorsReturned, .RateLimitedErrors, .CycleRelatedErrors,
    .InconsistentRatesErrorsReturned]

/-- An answer to an anonymous caller, or one with a coded error. -/
def Reply.unclassified (answer : Reply) : Bool :=
  match answer.result with
  | .error .AnonymousPrincipalNotAllowed | .error (.Other _) => true
  | _ => false

/-- The kinds cover the errors: one that is returned is there under exactly one of them, unless
it goes to an anonymous caller or is a coded one. -/
theorem countP_errors (answered : List Reply) :
    answered.countP MetricCounter.ErrorsReturned.counts_answer
      = (ERROR_KINDS.map fun kind => answered.countP kind.counts_answer).sum
        + answered.countP Reply.unclassified := by
  induction answered with
  | nil => rfl
  | cons answer answered ih =>
      -- an error is of one of the kinds, or of none, so its contribution adds up
      have hone : (MetricCounter.ErrorsReturned.counts_answer answer).toNat
          = (ERROR_KINDS.map fun kind => (kind.counts_answer answer).toNat).sum
            + answer.unclassified.toNat := by
        obtain ⟨origin, result⟩ := answer
        cases result with
        | ok rate => rfl
        | error error => cases error <;> rfl
      have hcons : ∀ p : Reply → Bool, (answer :: answered).countP p
          = answered.countP p + (p answer).toNat := by
        intro p
        rw [List.countP_cons]
        cases p answer <;> rfl
      simp only [hcons, hone, ih, ERROR_KINDS, List.map_cons, List.map_nil, List.sum_cons,
        List.sum_nil]
      omega

end Counters

/-! ## Whole runs

Nothing is lost and nothing is answered twice: the requests taken are the ones answered and the
ones suspended, up to their order. The counters saturate, so a counter is the smaller one of its
number and the largest word. -/

section Runs

variable [Features] [Unicode] {L : Type} [LruCache L CacheKey QueriedExchangeRate]

/-- Each request that is taken is answered once, unless it is still suspended. As multisets, since
requests are answered in another order than they came in. -/
theorem accepted_perm (s : State L) (events : List Event) :
    ((Service.new s).accepted events).Perm
      (((Service.new s).answered events).map Reply.origin
        ++ ((Service.new s).run events).sessions.map Session.origin) := by
  induction events using List.reverseRecOn with
  | nil => exact .refl _
  | append_singleton events event ih =>
      rw [Service.accepted, Service.answered, Service.outputs_concat, Service.outputs_concat,
        List.map_append]
      rw [Service.accepted, Service.answered] at ih
      cases books_run s events event with
      | quiet haccepts hsends _ _ horigins =>
          rw [haccepts, hsends, horigins]
          simp only [Option.toList_none, List.append_nil, List.map_nil]
          exact ih
      | @taken origin haccepts hsends _ _ horigins =>
          rw [haccepts, hsends, horigins]
          simp only [Option.toList_some, Option.toList_none, List.map_nil, List.append_nil]
          rw [← List.append_assoc]
          exact ih.append_right [origin]
      | @answered origin result haccepts hsends _ _ horigins =>
          rw [haccepts, hsends, horigins]
          simp only [Option.toList_some, List.map_cons, List.map_nil, List.append_assoc]
          refine (ih.append_right [origin]).trans ?_
          rw [List.append_assoc]
          exact List.Perm.append_left _ List.perm_append_comm
      | @resumed i origin result haccepts hsends _ _ horigin horigins =>
          rw [haccepts, hsends, horigins]
          simp only [Option.toList_some, Option.toList_none, List.append_nil, List.map_cons,
            List.map_nil, List.append_assoc]
          refine ih.trans (List.Perm.append_left _ ?_)
          -- the request that is answered moves from the suspended ones to the answered ones
          obtain ⟨hi, rfl⟩ := List.getElem?_eq_some_iff.mp horigin
          exact (List.getElem_cons_eraseIdx_perm hi).symm

theorem metrics_run (s : State L) (events : List Event) (counter : MetricCounter) :
    ((Service.new s).run events).served.metrics counter
      = min (counter.tally ((Service.new s).accepted events) ((Service.new s).answered events))
          (wordMax 32) := by
  -- one more event adds to the tally what it adds to the two streams
  have htally : ∀ (accepted accepted' : List Origin) (answered answered' : List Reply),
      counter.tally (accepted ++ accepted') (answered ++ answered')
        = counter.tally accepted answered + accepted'.countP counter.counts_request
          + answered'.countP counter.counts_answer := by
    intro accepted accepted' answered answered'
    rw [MetricCounter.tally, MetricCounter.tally, List.countP_append, List.countP_append]
    omega
  have hsingle : ∀ {α : Type} (p : α → Bool) (a : α), [a].countP p = (p a).toNat := by
    intro α p a
    rw [List.countP_singleton]
    cases p a <;> rfl
  induction events using List.reverseRecOn with
  | nil => rfl
  | append_singleton events event ih =>
      rw [Service.accepted, Service.answered, Service.outputs_concat, Service.outputs_concat,
        htally]
      rw [Service.accepted, Service.answered] at ih
      -- each kind of event adds one where the counter stands for what it took or sent
      cases books_run s events event with
      | quiet haccepts hsends hmetrics _ _ =>
          rw [haccepts, hsends, hmetrics]
          exact ih
      | taken haccepts hsends hmetrics _ _ =>
          rw [haccepts, hsends, hmetrics, count_request_eq ih, Option.toList_some,
            Option.toList_none, hsingle]
          rfl
      | answered haccepts hsends hmetrics _ _ =>
          rw [haccepts, hsends, hmetrics, count_result_eq (count_request_eq ih _),
            Option.toList_some, Option.toList_some, hsingle, hsingle]
      | resumed haccepts hsends hmetrics _ _ _ =>
          rw [haccepts, hsends, hmetrics, count_result_eq ih, Option.toList_some,
            Option.toList_none, hsingle]
          rfl

/-- **Every request is counted and answered once.** Over every run of the endpoint, with any
interleaving: the requests that were taken are, one for one, those that have been answered and
those that are still suspended; each counter is the number of the requests or answers it stands
for, held at the largest word; and the errors are those of the seven kinds, together with the
answers to anonymous callers and the coded errors, which no kind is there for.

The three clauses are three inductions over the same step lemma, `books_step`. The last one counts
the errors twice: once all of them, and once kind by kind, with the kinds written on the errors
themselves. -/
theorem requests_counted (s : State L) (events : List Event) :
    let sv := (Service.new s).run events
    let accepted := (Service.new s).accepted events
    let answered := (Service.new s).answered events
    accepted.Perm (answered.map Reply.origin ++ sv.sessions.map Session.origin)
      ∧ (∀ counter, sv.served.metrics counter = min (counter.tally accepted answered) (2 ^ 32 - 1))
      ∧ answered.countP MetricCounter.ErrorsReturned.counts_answer
        = (ERROR_KINDS.map fun kind => answered.countP kind.counts_answer).sum
          + answered.countP Reply.unclassified :=
  ⟨accepted_perm s events, metrics_run s events, countP_errors _⟩

/-! ## The logs

Answers are logged in the order they are sent, which is not the order the requests came in. Each
log is thus a beginning of the answers to its callers, the newest one first. -/

/-- The entry an answer leaves in a log. -/
def Reply.entry (answer : Reply) : RequestLogEntry :=
  ⟨answer.origin.timestamp, answer.origin.caller, sanitize_request answer.origin.request,
    answer.result⟩

/-- The capacity of a log. -/
def max_log_entries (privileged : Bool) : ℕ :=
  if privileged then MAX_PRIVILEGED_REQUEST_LOG_ENTRIES else MAX_NONPRIVILEGED_REQUEST_LOG_ENTRIES

/-- The answers to the callers of a log. -/
def answers_to (privileged : Bool) (answered : List Reply) : List Reply :=
  answered.filter fun answer => decide (answer.origin.privileged = privileged)

omit [Features] [Unicode] [LruCache L CacheKey QueriedExchangeRate] in
theorem answers_to_concat (privileged : Bool) (answered : List Reply) (answer : Reply) :
    answers_to privileged (answered ++ [answer])
      = if answer.origin.privileged = privileged then answers_to privileged answered ++ [answer]
        else answers_to privileged answered := by
  rw [answers_to, List.filter_append, List.filter_singleton]
  by_cases hcaller : answer.origin.privileged = privileged
  · rw [if_pos hcaller, decide_eq_true hcaller, cond_true]
    rfl
  · rw [if_neg hcaller, decide_eq_false hcaller, cond_false, List.append_nil]
    rfl

omit [Features] [LruCache L CacheKey QueriedExchangeRate] in
/-- A log that holds the most recent answers of its callers still does after one more. The oldest
entry is dropped when the log is full, and it is the last one of the list. -/
theorem log_of_concat {served served' : Served L} {answered : List Reply} {answer : Reply}
    {privileged : Bool}
    (hlogs : served'.log_of privileged = if answer.origin.privileged = privileged then
      (served.log_of privileged).log_answer answer else served.log_of privileged)
    (hmax : (served.log_of privileged).max_entries = max_log_entries privileged)
    (hentries : (served.log_of privileged).entries
      = ((answers_to privileged answered).reverse.map Reply.entry).take
        (max_log_entries privileged)) :
    (served'.log_of privileged).max_entries = max_log_entries privileged
      ∧ (served'.log_of privileged).entries
        = ((answers_to privileged (answered ++ [answer])).reverse.map Reply.entry).take
          (max_log_entries privileged) := by
  rw [hlogs, answers_to_concat]
  by_cases hcaller : answer.origin.privileged = privileged
  · rw [if_pos hcaller, if_pos hcaller]
    have hlength : (served.log_of privileged).entries.length
        ≤ (served.log_of privileged).max_entries := by
      rw [hmax, hentries]
      exact List.length_take_le _ _
    refine ⟨hmax, ?_⟩
    rw [RequestLog.log_answer, RequestLog.entries_log hlength, hmax, hentries,
      List.reverse_append, List.reverse_singleton, List.singleton_append, List.map_cons]
    -- what the shorter log had already dropped is not needed for the longer one
    cases max_log_entries privileged with
    | zero => rfl
    | succ n =>
        rw [List.take_succ_cons, List.take_succ_cons, List.take_take,
          Nat.min_eq_left (Nat.le_succ n)]
        rfl
  · rw [if_neg hcaller, if_neg hcaller]
    exact ⟨hmax, hentries⟩

/-- **The logs hold the most recent answers.** Over every run of the endpoint, the log of the
privileged callers is the list of their last one hundred answers, the newest one first, each with
the sanitized request and the time it came in at, and the log of the other callers that of their
last fifty.

An answer is written to one of the logs when it is sent, at the front, and the log is cut at its
capacity; so one more answer keeps it the beginning of the answers to its callers
(`log_of_concat`). -/
theorem requests_logged (s : State L) (events : List Event) (privileged : Bool) :
    (((Service.new s).run events).served.log_of privileged).entries
      = ((answers_to privileged ((Service.new s).answered events)).reverse.map
          Reply.entry).take (max_log_entries privileged) := by
  -- the capacity is carried along, as it decides what is dropped
  have hboth : (((Service.new s).run events).served.log_of privileged).max_entries
        = max_log_entries privileged
      ∧ (((Service.new s).run events).served.log_of privileged).entries
        = ((answers_to privileged ((Service.new s).answered events)).reverse.map
            Reply.entry).take (max_log_entries privileged) := by
    induction events using List.reverseRecOn with
    | nil => cases privileged <;> exact ⟨rfl, rfl⟩
    | append_singleton events event ih =>
        obtain ⟨hmax, hentries⟩ := ih
        rw [Service.answered, Service.outputs_concat]
        rw [Service.answered] at hentries
        cases books_run s events event with
        | quiet _ hsends _ hlogs _ =>
            rw [hsends, hlogs, Option.toList_none, List.append_nil]
            exact ⟨hmax, hentries⟩
        | taken _ hsends _ hlogs _ =>
            rw [hsends, hlogs, Option.toList_none, List.append_nil]
            exact ⟨hmax, hentries⟩
        -- an answer that is sent goes to the front of its caller's log
        | answered _ hsends _ hlogs _ =>
            rw [hsends]
            exact log_of_concat (hlogs privileged) hmax hentries
        | resumed _ hsends _ hlogs _ _ =>
            rw [hsends]
            exact log_of_concat (hlogs privileged) hmax hentries
  exact hboth.2

end Runs

end Xrc
