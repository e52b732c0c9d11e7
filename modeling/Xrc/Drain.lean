/-
The canister drains. A request is suspended twice at most, so from any point of any run the
requests that are being answered take no more than two resumptions each, in whatever order
their outcalls return; and they can always all be answered, after which nothing is reserved
or registered any more. In particular no sequence of requests, answers and failures takes
capacity of the rate limit away for good.

The measure is `Remaining`: how many resumptions the suspended requests still take.
-/
import Xrc.Overlap

set_option autoImplicit false

namespace Xrc

open Async Machine

variable [Features] [Unicode] {L : Type} [LruCache L CacheKey QueriedExchangeRate]

/-! ## A request is suspended twice at most

The bound is found by the structure of the programs: a fetch awaits once, sequencing adds the
bounds of its parts, and a choice takes the larger one. Only the pairs with two fetches in a row
need two. -/

section Handlers

variable {α : Type}

omit [Features] in
theorem awaitsAtMost_fetch_rate {n : ℕ} {exchanges : List Exchange} {asset : Asset}
    {timestamp : ℕ} {not_found : ExchangeRateError} {maybe_rate : Option QueriedExchangeRate}
    {rest : QueriedExchangeRate → List Exchange → State L →
      Handler L (Except ExchangeRateError α)}
    (hrest : ∀ rate failed_exchanges s, AwaitsAtMost n (rest rate failed_exchanges s))
    (s : State L) :
    AwaitsAtMost (n + 1) (fetch_rate exchanges asset timestamp not_found maybe_rate rest s) := by
  cases maybe_rate with
  | some rate => exact (hrest rate [] s).succ
  | none =>
      intro answer s'
      cases answer with
      | error error => exact awaitsAtMost_done _ _ _
      | ok response => exact hrest _ _ _

omit [Unicode] [LruCache L CacheKey QueriedExchangeRate] in
theorem awaitsAtMost_tracking {n num_rates_needed timestamp : ℕ} {symbols : List String}
    {future : State L → Handler L α} (hfuture : ∀ s, AwaitsAtMost n (future s)) (s : State L) :
    AwaitsAtMost n (with_inflight_tracking symbols timestamp
      (with_request_counter num_rates_needed future) s) :=
  AwaitsAtMost.guarded (AwaitsAtMost.guarded (hfuture _))

omit [Features] [Unicode] [LruCache L CacheKey QueriedExchangeRate] in
theorem awaitsAtMost_charge_cycles {n num_rates_needed : ℕ} {env : Environment}
    {is_valid_request : Bool} {rest : State L → Handler L (Except ExchangeRateError α)}
    (hrest : ∀ s, AwaitsAtMost n (rest s)) (s : State L) :
    AwaitsAtMost n (charge_cycles env num_rates_needed is_valid_request s rest) := by
  unfold charge_cycles
  split
  · exact hrest s
  · dsimp only
    generalize env.charge_cycles _ = charge
    cases charge with
    | charged fee => exact hrest _
    | NotEnoughCycles => exact awaitsAtMost_done _ _ _
    | panicked => exact awaitsAtMost_trap _

/-- A crypto pair fetches its base, then its quote. -/
theorem awaitsAtMost_fetch_cryptocurrency_pair (request : GetExchangeRateRequest) (timestamp : ℕ)
    (maybe_base_rate maybe_quote_rate : Option QueriedExchangeRate) (s : State L) :
    AwaitsAtMost 2
      (fetch_cryptocurrency_pair request timestamp maybe_base_rate maybe_quote_rate s) := by
  unfold fetch_cryptocurrency_pair
  apply awaitsAtMost_fetch_rate
  intro base_rate failed_exchanges s
  apply awaitsAtMost_fetch_rate
  intro quote_rate _ s
  exact awaitsAtMost_done _ _ _

theorem awaitsAtMost_handle_cryptocurrency_pair (env : Environment)
    (request : GetExchangeRateRequest) (s : State L) :
    AwaitsAtMost 2 (handle_cryptocurrency_pair env request s) := by
  refine AwaitsAtMost.map (awaitsAtMost_charge_cycles (fun s => ?_) _)
  unfold proceed_cryptocurrency_pair
  split
  · exact awaitsAtMost_done _ _ _
  · split
    · exact awaitsAtMost_done _ _ _
    · exact awaitsAtMost_tracking (awaitsAtMost_fetch_cryptocurrency_pair _ _ _ _) s

/-- A crypto/fiat pair fetches the stablecoins, then its base. -/
theorem awaitsAtMost_fetch_crypto_fiat_pair (request : GetExchangeRateRequest) (timestamp : ℕ)
    (maybe_crypto_base_rate : Option QueriedExchangeRate)
    (stablecoin_rates : List QueriedExchangeRate) (missed_stablecoin_symbols : List String)
    (forex_rate : QueriedExchangeRate) (s : State L) :
    AwaitsAtMost 2 (fetch_crypto_fiat_pair request timestamp maybe_crypto_base_rate
      stablecoin_rates missed_stablecoin_symbols forex_rate s) := by
  intro stablecoin_results s'
  apply awaitsAtMost_fetch_rate
  intro crypto_base_rate _ s
  exact awaitsAtMost_done _ _ _

theorem awaitsAtMost_handle_crypto_base_fiat_quote_pair (env : Environment)
    (request : GetExchangeRateRequest) (s : State L) :
    AwaitsAtMost 2 (handle_crypto_base_fiat_quote_pair env request s) := by
  refine AwaitsAtMost.map (awaitsAtMost_charge_cycles (fun s => ?_) _)
  unfold proceed_crypto_base_fiat_quote_pair
  split
  · exact awaitsAtMost_done _ _ _
  · split
    · exact awaitsAtMost_done _ _ _
    · split
      · exact awaitsAtMost_done _ _ _
      · exact awaitsAtMost_tracking (awaitsAtMost_fetch_crypto_fiat_pair _ _ _ _ _ _) s

omit [LruCache L CacheKey QueriedExchangeRate] in
theorem awaitsAtMost_handle_fiat_pair (env : Environment) (request : GetExchangeRateRequest)
    (s : State L) : AwaitsAtMost 2 (handle_fiat_pair env request s) := by
  unfold handle_fiat_pair
  dsimp only
  split
  · exact awaitsAtMost_done _ _ _
  · apply awaitsAtMost_charge_cycles
    intro s
    exact awaitsAtMost_done _ _ _

/-- **A request is suspended twice at most.** The two handlers with cryptocurrencies await twice:
the base asset and the quote asset, or the stablecoins and the cryptocurrency. The one for
currencies does not await at all. -/
theorem awaitsAtMost_get_exchange_rate_internal (env : Environment)
    (request : GetExchangeRateRequest) (s : State L) :
    AwaitsAtMost 2 (get_exchange_rate_internal env request s) := by
  apply AwaitsAtMost.map
  unfold answer_request
  split
  · exact awaitsAtMost_done _ _ _
  split
  · exact awaitsAtMost_done _ _ _
  unfold route_request
  split
  · exact awaitsAtMost_handle_cryptocurrency_pair env _ s
  · exact (awaitsAtMost_handle_crypto_base_fiat_quote_pair env _ s).map
  · exact (awaitsAtMost_handle_crypto_base_fiat_quote_pair env _ s).map
  · exact awaitsAtMost_handle_fiat_pair env _ s

end Handlers

/-! ## What is left to do

The measure of the argument. `Remaining tasks budget` bounds the resumptions that the suspended
requests can still take together, whatever they are answered, so it can be split into the share
of one request and that of the others. -/

/-- A suspended request is suspended again `n` times at most. The answers are arbitrary, and so is
the state in which it is resumed, since other requests may come in between. -/
def Task.AwaitsAtMost (task : Task L) (n : ℕ) : Prop :=
  ∀ answer s, Async.AwaitsAtMost n (task.resume answer s)

/-- The suspended requests take `budget` resumptions at most. Each of them is counted with its own
bound, and the bounds are added up, so that one of them can be exchanged without regard to the
others. -/
inductive Remaining : List (Task L) → ℕ → Prop where
  | nil (budget : ℕ) : Remaining [] budget
  | cons {task : Task L} {tasks : List (Task L)} {n budget : ℕ} (htask : task.AwaitsAtMost n)
      (htasks : Remaining tasks budget) : Remaining (task :: tasks) (budget + (n + 1))

section Remaining

omit [Features] [Unicode] [LruCache L CacheKey QueriedExchangeRate]

/-- Two resumptions for each request are enough, if none is suspended again more than once. -/
theorem remaining_of_awaitsAtMost_one {tasks : List (Task L)}
    (h : ∀ task ∈ tasks, task.AwaitsAtMost 1) : Remaining tasks (2 * tasks.length) := by
  induction tasks with
  | nil => exact .nil _
  | cons task tasks ih =>
      rw [List.length_cons, Nat.mul_add]
      exact .cons (h task List.mem_cons_self)
        (ih fun task' htask' => h task' (List.mem_cons_of_mem _ htask'))

/-- What one request contributes, and what another one in its place would. The bound is a sum over
the requests, and taking one out of the middle leaves the sum of the others. -/
theorem Remaining.split {before after : List (Task L)} {task : Task L} {budget : ℕ}
    (h : Remaining (before ++ task :: after) budget) :
    ∃ n rest, task.AwaitsAtMost n ∧ rest + (n + 1) = budget ∧ Remaining (before ++ after) rest
      ∧ ∀ task' n', Task.AwaitsAtMost task' n' →
        Remaining (before ++ task' :: after) (rest + (n' + 1)) := by
  -- on the requests in front of the one that is taken out
  induction before generalizing budget with
  | nil =>
      cases h with
      | @cons _ _ n rest htask htasks =>
          exact ⟨n, rest, htask, rfl, htasks, fun _ _ htask' => .cons htask' htasks⟩
  | cons first before ih =>
      cases h with
      | @cons _ _ m later hfirst hlater =>
          obtain ⟨n, rest, htask, hbudget, hothers, hreplace⟩ := ih hlater
          refine ⟨n, rest + (m + 1), htask, by omega, .cons hfirst hothers, ?_⟩
          intro task' n' htask'
          have hnext := Remaining.cons hfirst (hreplace task' n' htask')
          rw [Nat.add_right_comm] at hnext
          exact hnext

theorem Remaining.modify {f : Task L → Task L}
    (hf : ∀ task n, Task.AwaitsAtMost task n → (f task).AwaitsAtMost n) {tasks : List (Task L)}
    {budget : ℕ} (h : Remaining tasks budget) (i : ℕ) : Remaining (tasks.modify i f) budget := by
  induction h generalizing i with
  | nil budget =>
      rw [List.modify_nil]
      exact .nil budget
  | cons htask htasks ih =>
      cases i with
      | zero => exact .cons (hf _ _ htask) htasks
      | succ i => exact .cons htask (ih i)

end Remaining

/-! ## Resumptions

Every event but an arrival keeps the bound, and a resumption lowers it. The return of an outcall
and what a timer brings do not add to it, and hence a run without arrivals resumes no more than
the bound says. -/

/-- The arrival of a request. -/
def Event.isCall : Event → Bool
  | .call _ _ => true
  | _ => false

section Resumptions

omit [Features] [Unicode] [LruCache L CacheKey QueriedExchangeRate] in
/-- Whether an event resumes a request. -/
def resumed (c : Canister L) : Event → Bool
  | .resume i _ _ =>
    match c.tasks[i]? with
    | none => false
    | some task => decide (task.outstanding = 0)
  | _ => false

/-- How many events of a run resume a request. -/
def resumptions (c : Canister L) : List Event → ℕ
  | [] => 0
  | event :: events => (resumed c event).toNat + resumptions (step c event) events

omit [Features] [LruCache L CacheKey QueriedExchangeRate] in
/-- Resuming a request takes at least one of the resumptions that are left. A request that is
suspended anew has one suspension less to go, and one that ends has none. -/
theorem remaining_resume_task (c : Canister L) {budget : ℕ} (h : Remaining c.tasks budget)
    (i now_secs : ℕ) (answers : (call : Call) → Answer call) :
    ∃ budget', Remaining (resume_task c i now_secs answers).tasks budget'
      ∧ budget' + (resumed c (.resume i now_secs answers)).toNat ≤ budget := by
  unfold resume_task
  dsimp only [resumed]
  cases htask : c.tasks[i]? with
  | none => exact ⟨budget, h, le_rfl⟩
  | some task =>
      dsimp only
      split
      · rename_i houtstanding
        rw [decide_eq_false houtstanding]
        exact ⟨budget, h, le_rfl⟩
      · rename_i houtstanding
        rw [decide_eq_true (not_not.mp houtstanding)]
        obtain ⟨hi, rfl⟩ := List.getElem?_eq_some_iff.mp htask
        have hsplit : c.tasks = c.tasks.take i ++ c.tasks[i] :: c.tasks.drop (i + 1) := by
          rw [List.getElem_cons_drop, List.take_append_drop]
        rw [hsplit] at h
        -- the share of the request that is resumed, and that of the others
        obtain ⟨n, rest, hbound, hbudget, hothers, hreplace⟩ := h.split
        have hnext := hbound (answers c.tasks[i].call) c.state
        cases hrun : c.tasks[i].resume (answers c.tasks[i].call) c.state with
        | done s result =>
            refine ⟨rest, ?_, by simp only [Bool.toNat_true]; omega⟩
            simp only [List.eraseIdx_eq_take_drop_succ]
            exact hothers
        | trap =>
            refine ⟨rest, ?_, by simp only [Bool.toNat_true]; omega⟩
            simp only [List.eraseIdx_eq_take_drop_succ]
            exact hothers
        | await s held call resume =>
            rw [hrun] at hnext
            cases n with
            -- a request that may not be suspended again is not
            | zero => exact hnext.elim
            | succ n =>
                refine ⟨rest + (n + 1), ?_, by simp only [Bool.toNat_true]; omega⟩
                simp only [List.set_eq_take_append_cons_drop, if_pos hi]
                exact hreplace _ n hnext

/-- What one event without an arrival does to what is left. -/
theorem remaining_step (c : Canister L) {budget : ℕ} (h : Remaining c.tasks budget) {event : Event}
    (hevent : event.isCall = false) :
    ∃ budget', Remaining (step c event).tasks budget'
      ∧ budget' + (resumed c event).toNat ≤ budget := by
  cases event with
  | call env request => cases hevent
  | outcall_returned i =>
      have hmodify := h.modify (f := Task.outcall_returned) (fun _ _ htask => htask) i
      exact ⟨budget, hmodify, le_rfl⟩
  | resume i now_secs answers => exact remaining_resume_task c h i now_secs answers
  | timer forex_store listing_store => exact ⟨budget, h, le_rfl⟩

/-- And a whole run. -/
theorem remaining_run (events : List Event) (hevents : ∀ event ∈ events, event.isCall = false) :
    ∀ (c : Canister L) {budget : ℕ}, Remaining c.tasks budget →
      ∃ budget', Remaining (run c events).tasks budget'
        ∧ budget' + resumptions c events ≤ budget := by
  induction events with
  | nil => exact fun c budget h => ⟨budget, h, le_rfl⟩
  | cons event events ih =>
      intro c budget h
      obtain ⟨budget₁, h₁, hle₁⟩ := remaining_step c h (hevents event List.mem_cons_self)
      obtain ⟨budget₂, h₂, hle₂⟩ :=
        ih (fun e he => hevents e (List.mem_cons_of_mem _ he)) (step c event) h₁
      refine ⟨budget₂, h₂, ?_⟩
      rw [resumptions]
      omega

/-- A request that is suspended is suspended again once at most, in every state that is
reached. -/
theorem awaitsAtMost_one_run (s : State L) (events : List Event) :
    ∀ task ∈ (run (Canister.idle s) events).tasks, task.AwaitsAtMost 1 := by
  induction events using List.reverseRecOn with
  | nil => exact nofun
  | append_singleton events event ih =>
      rw [run_concat]
      generalize run (Canister.idle s) events = c at ih
      intro task htask
      cases event with
      | timer forex_store listing_store => exact ih task htask
      | outcall_returned i =>
          obtain ⟨j, hj⟩ := List.mem_iff_getElem?.mp htask
          rw [step, List.getElem?_modify, Option.map_eq_map, Option.map_eq_some_iff] at hj
          obtain ⟨before, hbefore, rfl⟩ := hj
          have hone := ih before (List.mem_of_getElem? hbefore)
          split
          · exact hone
          · exact hone
      | call env request =>
          rw [step, arrive] at htask
          have hrun := awaitsAtMost_get_exchange_rate_internal env request c.state
          cases hfirst : get_exchange_rate_internal env request c.state with
          | done s result =>
              rw [hfirst] at htask
              exact ih task htask
          | trap =>
              rw [hfirst] at htask
              exact ih task htask
          | await s held call resume =>
              rw [hfirst] at htask hrun
              dsimp only at htask
              split at htask
              · rcases List.mem_append.mp htask with hold | hnew
                · exact ih task hold
                · rw [List.mem_singleton.mp hnew]
                  exact hrun
              · exact ih task htask
      | resume i now_secs answers =>
          rw [step, resume_task] at htask
          cases hget : c.tasks[i]? with
          | none =>
              rw [hget] at htask
              exact ih task htask
          | some resumed =>
              rw [hget] at htask
              have hone := ih resumed (List.mem_of_getElem? hget) (answers resumed.call) c.state
              dsimp only at htask
              split at htask
              · exact ih task htask
              · cases hrun : resumed.resume (answers resumed.call) c.state with
                | done s result =>
                    rw [hrun] at htask
                    exact ih task (List.mem_of_mem_eraseIdx htask)
                | trap =>
                    rw [hrun] at htask
                    exact ih task (List.mem_of_mem_eraseIdx htask)
                | await s held call resume =>
                    rw [hrun] at htask hone
                    rcases List.mem_or_eq_of_mem_set htask with hold | rfl
                    · exact ih task hold
                    · -- what is resumed has one suspension less ahead of it
                      exact fun answer s' => (hone answer s').succ

end Resumptions

/-! ## Draining

The other half of the theorem: from every point of a run there are events, with any answers one
likes, after which no request is suspended. What is reserved and registered then follows from
the accounting of `Accounting.lean` and `Tracking.lean`. -/

section Drain

/-- An event that brings an answer: an outcall returns, or a request is resumed with it. All of
them have the same answers here, whichever these are: what matters is that a call is answered at
all. -/
def Event.Settles (now_secs : ℕ) (answers : (call : Call) → Answer call) (event : Event) : Prop :=
  (∃ i, event = .outcall_returned i) ∨ ∃ i, event = .resume i now_secs answers

omit [Features] [Unicode] [LruCache L CacheKey QueriedExchangeRate] in
theorem Event.Settles.not_isCall {now_secs : ℕ} {answers : (call : Call) → Answer call}
    {event : Event} (h : event.Settles now_secs answers) : event.isCall = false := by
  rcases h with ⟨i, rfl⟩ | ⟨i, rfl⟩
  · rfl
  · rfl

/-- All outcalls of the first request return. -/
theorem run_outcalls_returned (s : State L) (task : Task L) (tasks : List (Task L)) (n : ℕ) :
    run ⟨s, task :: tasks⟩ (List.replicate n (.outcall_returned 0))
      = ⟨s, { task with outstanding := task.outstanding - n } :: tasks⟩ := by
  induction n generalizing task with
  | zero => rfl
  | succ n ih =>
      rw [List.replicate_succ]
      have hstep : step ⟨s, task :: tasks⟩ (.outcall_returned 0)
          = ⟨s, task.outcall_returned :: tasks⟩ := rfl
      rw [run, List.foldl_cons, hstep]
      have hrest := ih task.outcall_returned
      rw [run] at hrest
      rw [hrest, Task.outcall_returned, Nat.sub_sub, Nat.add_comm 1 n]

/-- Whatever the exchanges answer, all suspended requests can be answered. By induction on the
number of resumptions that are left: any of the suspended requests may be next. -/
theorem exists_drained (now_secs : ℕ) (answers : (call : Call) → Answer call) (budget : ℕ) :
    ∀ c : Canister L, Remaining c.tasks budget →
      ∃ events : List Event, (∀ event ∈ events, event.Settles now_secs answers)
        ∧ (run c events).tasks = [] := by
  induction budget using Nat.strong_induction_on with
  | _ budget ih =>
      rintro ⟨s, tasks⟩ hleft
      cases tasks with
      | nil => exact ⟨[], nofun, rfl⟩
      | cons task tasks =>
          -- let the outcalls of the first request return, then resume it
          let ready : Canister L := ⟨s, { task with outstanding := 0 } :: tasks⟩
          have hready : run ⟨s, task :: tasks⟩
              (List.replicate task.outstanding (.outcall_returned 0)) = ready := by
            rw [run_outcalls_returned, Nat.sub_self]
          have hleft' : Remaining ready.tasks budget := by
            cases hleft with
            | cons htask htasks => exact .cons htask htasks
          obtain ⟨budget', hnext, hle⟩ := remaining_resume_task ready hleft' 0 now_secs answers
          have hresumed : resumed ready (.resume 0 now_secs answers) = true := rfl
          rw [hresumed, Bool.toNat_true] at hle
          obtain ⟨events, hevents, hdrained⟩ := ih budget' (by omega) _ hnext
          refine ⟨List.replicate task.outstanding (.outcall_returned 0)
            ++ .resume 0 now_secs answers :: events, ?_, ?_⟩
          · intro event hevent
            rcases List.mem_append.mp hevent with hreturn | hlater
            · exact Or.inl ⟨0, List.eq_of_mem_replicate hreturn⟩
            · rcases List.mem_cons.mp hlater with rfl | hlater
              · exact Or.inr ⟨0, rfl⟩
              · exact hevents event hlater
          · rw [run_append, hready]
            exact hdrained

omit [Unicode] [LruCache L CacheKey QueriedExchangeRate] in
/-- With nothing reserved, no request is rate limited. -/
theorem is_rate_limited_of_counter_eq_zero {s : State L} (h : s.request_counter = 0)
    {num_rates_needed : ℕ} (hneeded : num_rates_needed ≤ 3) (request : GetExchangeRateRequest) :
    is_rate_limited s num_rates_needed request = false := by
  have hshare : available_exchanges_count * num_rates_needed ≤ 27 :=
    Nat.mul_le_mul available_exchanges_count_le hneeded
  have hword : (27 : ℕ) ≤ wordMax 32 := by decide
  rw [is_rate_limited, h, http_requests_needed_eq hneeded, saturating_add_eq (by omega),
    decide_eq_false (by simp only [REQUEST_COUNTER_LIMIT]; omega), Bool.false_and]

/-- When no request is being answered, nothing is reserved or registered. -/
theorem quiet_of_drained (s : State L) {events : List Event}
    (h : (run (Canister.idle s) events).tasks = []) :
    (run (Canister.idle s) events).state.request_counter = 0
      ∧ (run (Canister.idle s) events).state.inflight = ∅ := by
  have haccounted := accounted_run s events
  have hactive : (run (Canister.idle s) events).active = [] := congrArg (List.map _) h
  refine ⟨?_, Finset.eq_empty_of_forall_notMem fun k hk => ?_⟩
  · rw [haccounted.counter_eq, Canister.reserved, hactive]
    rfl
  · obtain ⟨key, hkey, -⟩ := haccounted.registered k hk
    rw [hactive] at hkey
    cases hkey

/-- **The canister drains.** Take any run, and any continuation of it without new arrivals. Each
of the requests suspended at its beginning is suspended at most once more, so it is resumed twice
at most, whatever it is answered and whatever happens meanwhile; hence, in any interleaving,
together they are resumed twice their number at most. Whatever the exchanges answer, the requests
that are left can all be answered within the same bound; and then nothing is reserved or
registered, so that no request is rate limited or in flight.

The bound for each is an invariant of runs (`awaitsAtMost_one_run`): no handler has more than two
suspension points in a row. Their sum is the measure that every resumption lowers
(`remaining_run`), and that the schedule of `exists_drained` exhausts. What is left then rests on
the accounting of the guards, since a counter that is the sum over no request is zero. -/
theorem canister_drains (s : State L) (events later : List Event)
    (hlater : ∀ event ∈ later, event.isCall = false) (now_secs : ℕ)
    (answers : (call : Call) → Answer call) :
    let c := run (Canister.idle s) events
    let c' := run c later
    (∀ task ∈ c.tasks, task.AwaitsAtMost 1)
      ∧ resumptions c later ≤ 2 * c.tasks.length
      ∧ ∃ rest : List Event, (∀ event ∈ rest, event.Settles now_secs answers)
        ∧ resumptions c later + resumptions c' rest ≤ 2 * c.tasks.length
        ∧ (run c' rest).tasks = []
        ∧ (run c' rest).state.request_counter = 0
        ∧ (run c' rest).state.inflight = ∅
        ∧ ∀ num_rates_needed ≤ 3, ∀ request,
          is_rate_limited (run c' rest).state num_rates_needed request = false := by
  intro c c'
  -- the budget: two resumptions for each suspended request
  have hleft : Remaining c.tasks (2 * c.tasks.length) :=
    remaining_of_awaitsAtMost_one (awaitsAtMost_one_run s events)
  -- the continuation uses up some of it, and the schedule no more than the rest
  obtain ⟨budget', hleft', hle⟩ := remaining_run later hlater c hleft
  obtain ⟨rest, hrest, hdrained⟩ := exists_drained now_secs answers budget' c' hleft'
  obtain ⟨_, _, hle'⟩ :=
    remaining_run rest (fun event h => (hrest event h).not_isCall) c' hleft'
  have hreached : run c' rest = run (Canister.idle s) (events ++ later ++ rest) := by
    rw [run_append, run_append]
  have hquiet := quiet_of_drained s (hreached ▸ hdrained)
  rw [← hreached] at hquiet
  obtain ⟨hcounter, hinflight⟩ := hquiet
  refine ⟨awaitsAtMost_one_run s events, by omega, rest, hrest, by omega, hdrained, hcounter, hinflight, ?_⟩
  intro num_rates_needed hneeded request
  exact is_rate_limited_of_counter_eq_zero hcounter hneeded request

omit [Features] [Unicode] [LruCache L CacheKey QueriedExchangeRate] in
/-- A request for a pair of coins, one of its twelve outcalls having returned. -/
theorem icp_btc_drains :
    letI := defaultBuild
    letI := asciiUnicode
    ∃ rest, (run (run (run (Canister.idle (State.new : State RecentRates))
        [.call (Environment.privileged 1_699_833_600) icpBtcRequest]) [.outcall_returned 0])
        rest).tasks = [] := by
  let _ := defaultBuild
  let _ := asciiUnicode
  have hlater : ∀ event ∈ [Event.outcall_returned 0], event.isCall = false := by
    intro event hevent
    rw [List.mem_singleton.mp hevent]
    rfl
  obtain ⟨-, -, rest, -, -, hdrained, -⟩ := canister_drains (State.new : State RecentRates)
    [.call (Environment.privileged 1_699_833_600) icpBtcRequest] [.outcall_returned 0] hlater
    1_699_833_600 unanswered
  exact ⟨rest, hdrained⟩

end Drain

end Xrc
