/-
The canister as a whole: any number of requests, each suspended at a call to the
exchanges, over one shared state. Messages are executed one at a time, so that a run of
the canister is a sequence of segments: a request arrives and runs to its first
suspension point, an outcall returns, a request whose outcalls have all returned is
resumed, or a timer replaces the forex rates or the exchange listings.

Between any two of these the canister is at a suspension point. A request with a call
that makes no outcalls is taken as suspended there as well, which only adds
interleavings.

`Move` says what one of these steps can do to the guarded part of the state, and
`step_move` that it can do nothing else; every result about runs is derived from it.
-/
import Xrc.ApiSpec

set_option autoImplicit false

namespace Xrc

open Async CallExchangesImpl

/-! ## Tasks

A suspended request is its continuation, with the guards it owns and the outcalls that are out.
The key is a ghost: it says which symbols, minute and reservation the guards are for. -/

/-- A suspended request. The guards it holds are recorded beside its key, which says what they
were taken for; that the two agree is part of its well-formedness. -/
structure Task (L : Type) where
  /-- The symbols it registered, for which timestamp, and the rates it needed. -/
  key : GuardKey
  held : List Guard
  call : Call
  resume : Answer call → State L → Handler L (Except ExchangeRateError ExchangeRate)
  /-- The outcalls of `call` that have not returned. -/
  outstanding : ℕ

/-- The symbol-timestamp pairs a guard registers. -/
def GuardKey.keys (key : GuardKey) : Finset CacheKey := inflight_keys key.symbols key.timestamp

/-- The outcalls reserved for a request: those of the rates it needed, on every available
exchange. -/
def GuardKey.share [Features] (key : GuardKey) : ℕ :=
  available_exchanges_count * key.num_rates_needed

/-- The canister at a suspension point. Between two messages nothing runs, so this is all there
is: the shared state, and the requests that await their outcalls, in the order of their arrival.
-/
structure Canister (L : Type) where
  state : State L
  tasks : List (Task L)

/-- The guards that are alive. -/
def Canister.active {L : Type} (c : Canister L) : List GuardKey := c.tasks.map Task.key

/-- A canister without requests. -/
def Canister.idle {L : Type} (s : State L) : Canister L :=
  ⟨{ s with inflight := ∅, request_counter := 0 }, []⟩

/-! ## Steps

Any order of these events is a run. An arrival that panics, or finds no memory for another
suspended request, is rolled back as a whole and leaves no trace; a later segment that panics takes
its request with it. -/

/-- What happens to the canister next. -/
inductive Event where
  /-- A request arrives. -/
  | call (env : Environment) (request : GetExchangeRateRequest)
  /-- An outcall of the `i`-th request returns, with or without a rate. -/
  | outcall_returned (i : ℕ)
  /-- The `i`-th request is resumed with some answer to its call. -/
  | resume (i : ℕ) (now_secs : ℕ) (answers : (call : Call) → Answer call)
  /-- A timer replaces the forex rates or the exchange listings. -/
  | timer (forex_store : ForexRateStore) (listing_store : ListingStore)

/-- The memory of the canister, and a lower bound of what a suspended request takes of it. -/
def WASM_MEMORY_BYTES : ℕ := 2 ^ 32
def MIN_SUSPENDED_REQUEST_BYTES : ℕ := 32

/-- There is room for one more suspended request; without it the message is rolled back. -/
def has_memory {L : Type} (c : Canister L) : Bool :=
  decide ((c.tasks.length + 1) * MIN_SUSPENDED_REQUEST_BYTES ≤ WASM_MEMORY_BYTES)

section Step

variable [Features] [Unicode] {L : Type} [LruCache L CacheKey QueriedExchangeRate]

/-- A request arrives and runs its first segment. -/
def arrive (c : Canister L) (env : Environment) (request : GetExchangeRateRequest) : Canister L :=
  match get_exchange_rate_internal env request c.state with
  | .done s _ => { c with state := s }
  | .trap => c
  | .await s held call resume =>
    if has_memory c then
      { state := s
        tasks := c.tasks ++
          [{ key := guard_key env (sanitize_request request) c.state
             held := held
             call := call
             resume := resume
             outstanding := outcalls s.listing_store env.time_secs call }] }
    else c

omit [LruCache L CacheKey QueriedExchangeRate] in
/-- The `i`-th request, all of whose outcalls have returned, runs its next segment. -/
def resume_task (c : Canister L) (i : ℕ) (now_secs : ℕ) (answers : (call : Call) → Answer call) :
    Canister L :=
  match c.tasks[i]? with
  | none => c
  | some task =>
    if task.outstanding ≠ 0 then c
    else
      match task.resume (answers task.call) c.state with
      | .done s _ => ⟨s, c.tasks.eraseIdx i⟩
      | .trap => { c with tasks := c.tasks.eraseIdx i }
      | .await s held call resume =>
        { state := s
          tasks := c.tasks.set i
            { key := task.key
              held := held
              call := call
              resume := resume
              outstanding := outcalls s.listing_store now_secs call } }

omit [Features] [Unicode] [LruCache L CacheKey QueriedExchangeRate] in
/-- One outcall of a request has returned. -/
def Task.outcall_returned (task : Task L) : Task L :=
  { task with outstanding := task.outstanding - 1 }

/-- One step of the canister. -/
def step (c : Canister L) : Event → Canister L
  | .call env request => arrive c env request
  | .outcall_returned i => { c with tasks := c.tasks.modify i Task.outcall_returned }
  | .resume i now_secs answers => resume_task c i now_secs answers
  | .timer forex_store listing_store =>
    { c with state := { c.state with forex_store := forex_store, listing_store := listing_store } }

omit [Features] [Unicode] [LruCache L CacheKey QueriedExchangeRate] in
/-- Whether an event ends a request. -/
def ends (c : Canister L) : Event → Bool
  | .resume i _ answers =>
    match c.tasks[i]? with
    | none => false
    | some task =>
      decide (task.outstanding = 0) && (task.resume (answers task.call) c.state).isDone
  | _ => false

/-- A run of the canister. -/
def run (c : Canister L) (events : List Event) : Canister L := events.foldl step c

theorem run_append (c : Canister L) (events events' : List Event) :
    run c (events ++ events') = run (run c events) events' := List.foldl_append

theorem run_concat (c : Canister L) (events : List Event) (event : Event) :
    run c (events ++ [event]) = step (run c events) event := by
  rw [run_append]
  rfl

/-! ## What a request is admitted with

The number of rates is what the reservation is for, and the symbols and the timestamp are what
is registered. Both are settled in the first segment, before the request is suspended for the
first time. -/

omit [Features] [Unicode] [LruCache L CacheKey QueriedExchangeRate] in
theorem crypto_pair_rates_needed_le (maybe_base_rate maybe_quote_rate : Option QueriedExchangeRate) :
    crypto_pair_rates_needed maybe_base_rate maybe_quote_rate ≤ 3 := by
  unfold crypto_pair_rates_needed
  split <;> split <;> omega

/-- A request needs three rates at most: its cryptocurrency and the two stablecoins. -/
theorem rates_needed_le (env : Environment) (request : GetExchangeRateRequest) (s : State L) :
    rates_needed env request s ≤ 3 := by
  -- there are two stablecoins, and one rate of the request's own cryptocurrency
  have hfiat : ∀ (base : Option QueriedExchangeRate) (timestamp : ℕ),
      crypto_fiat_rates_needed base
        (STABLECOIN_BASES.filter fun symbol => (s.cache.lookup symbol timestamp).isNone) ≤ 3 := by
    intro base timestamp
    have hmissed := List.length_filter_le
      (fun symbol => (s.cache.lookup symbol timestamp).isNone) STABLECOIN_BASES
    have hbases : STABLECOIN_BASES.length = 2 := rfl
    unfold crypto_fiat_rates_needed
    split <;> omega
  unfold rates_needed
  cases request.base_asset.class' <;> cases request.quote_asset.class' <;> dsimp only
  · exact crypto_pair_rates_needed_le _ _
  · rw [(read_crypto_fiat_pair_eq env (routed_request request) _ s.cache).2.2]
    exact hfiat _ _
  · rw [(read_crypto_fiat_pair_eq env (routed_request request) _ s.cache).2.2]
    exact hfiat _ _
  · exact Nat.zero_le _

/-- The guard of a request. Unless it traps in the charge, every request registers the pairs of
its key before its first call, holds them while it waits, and gives them back at its end. -/
theorem tracked_get_exchange_rate_internal (env : Environment) (request : GetExchangeRateRequest)
    (s : State L) :
    get_exchange_rate_internal env request s = .trap
      ∨ ∃ fees, Holds (Tracked (guard_key env (sanitize_request request) s) fees
          (Admitted env (sanitize_request request) s)) s []
          (get_exchange_rate_internal env request s) := by
  have hdone : ∀ error : ExchangeRateError,
      Holds (Tracked (guard_key env (sanitize_request request) s) []
        (Admitted env (sanitize_request request) s)) s [] (.done s (.error error : RateResult)) :=
    fun error => Or.inl ⟨rfl, rfl, rfl, (List.append_nil _).symm⟩
  unfold get_exchange_rate_internal
  -- an error before the routing registers nothing and is free of charge
  rcases answer_request_cases env request s with ⟨error, -, hanswer⟩ | ⟨-, -, hanswer⟩
  · rw [hanswer]
    exact Or.inr ⟨[], Tracked.map _ (hdone error)⟩
  · rw [hanswer]
    rcases tracked_route_request env (sanitize_request request) s with h | ⟨fees, h⟩
    · left
      rw [h]
      rfl
    · exact Or.inr ⟨fees, Tracked.map _ h⟩

/-! ## Well-formed canisters

The invariant of all that follows: every suspended request keeps its contract from here on. It
is proved once, from `tracked_route_request`, and gives the guards, the fees and the outcalls of
every later segment. -/

/-- A suspended request owns the guards of its key, has no more outcalls in flight than it
reserved and keeps its contract from here on. -/
structure Task.WellFormed (task : Task L) : Prop where
  held_eq : task.held = task.key.guards
  outstanding_le : task.outstanding ≤ task.key.share
  num_rates_needed_le : task.key.num_rates_needed ≤ 3
  resumes : ∃ fees admitted, ∀ answer s,
    Holds (Tracked task.key fees admitted) s task.held (task.resume answer s)

/-- All suspended requests are well-formed, and they fit into the memory. The second part is what
keeps the request counter from saturating: it is bounded by the number of requests there is memory
for. -/
structure Canister.WellFormed (c : Canister L) : Prop where
  tasks : ∀ task ∈ c.tasks, task.WellFormed
  memory : c.tasks.length * MIN_SUSPENDED_REQUEST_BYTES ≤ WASM_MEMORY_BYTES

section WellFormed

omit [LruCache L CacheKey QueriedExchangeRate]

theorem Canister.wellFormed_idle (s : State L) : (Canister.idle s).WellFormed :=
  ⟨nofun, Nat.zero_le _⟩

/-- A request suspended by a segment that keeps the contract is well-formed. -/
theorem Task.wellFormed_of_await {key : GuardKey} {fees : List ℕ} {admitted : Prop}
    {s₀ s : State L} {held₀ held : List Guard} {call : Call}
    {resume : Answer call → State L → Handler L (Except ExchangeRateError ExchangeRate)}
    (hholds : Holds (Tracked key fees admitted) s₀ held₀ (.await s held call resume))
    (hneeded : key.num_rates_needed ≤ 3) (now_secs : ℕ) :
    Task.WellFormed ⟨key, held, call, resume, outcalls s.listing_store now_secs call⟩ where
  held_eq := hholds.1.1
  outstanding_le := hholds.1.2.1 _ _
  num_rates_needed_le := hneeded
  resumes := ⟨fees, admitted, fun answer s' => hholds.2 answer s' trivial⟩

/-- One more request, where there is room. -/
theorem Canister.WellFormed.concat {c : Canister L} (hc : c.WellFormed) {task : Task L}
    (htask : task.WellFormed) (hroom : has_memory c = true) (s : State L) :
    Canister.WellFormed ⟨s, c.tasks ++ [task]⟩ := by
  refine ⟨fun task' htask' => ?_, ?_⟩
  · rcases List.mem_append.mp htask' with htask' | htask'
    · exact hc.tasks task' htask'
    · rw [List.mem_singleton.mp htask']
      exact htask
  · rw [List.length_append]
    exact of_decide_eq_true hroom

/-- One request less. -/
theorem Canister.WellFormed.eraseIdx {c : Canister L} (hc : c.WellFormed) (s : State L) (i : ℕ) :
    Canister.WellFormed ⟨s, c.tasks.eraseIdx i⟩ := by
  refine ⟨fun task htask => hc.tasks task (List.mem_of_mem_eraseIdx htask), ?_⟩
  exact (Nat.mul_le_mul_right _ (List.length_eraseIdx_le _ _)).trans hc.memory

/-- One request suspended anew. -/
theorem Canister.WellFormed.set {c : Canister L} (hc : c.WellFormed) {task : Task L}
    (htask : task.WellFormed) (s : State L) (i : ℕ) :
    Canister.WellFormed ⟨s, c.tasks.set i task⟩ := by
  refine ⟨fun task' htask' => ?_, ?_⟩
  · rcases List.mem_or_eq_of_mem_set htask' with htask' | rfl
    · exact hc.tasks task' htask'
    · exact htask
  · rw [List.length_set]
    exact hc.memory

omit [Features] [Unicode] in
/-- A request suspended anew keeps its key, and so its guards. The list of what is active has the
keys of all requests in their order, so it does not change. -/
theorem active_set {c : Canister L} {i : ℕ} {task task' : Task L} (htask : c.tasks[i]? = some task)
    (hkey : task'.key = task.key) (s : State L) :
    Canister.active ⟨s, c.tasks.set i task'⟩ = c.active := by
  apply List.ext_getElem?
  intro j
  rw [Canister.active, Canister.active, List.getElem?_map, List.getElem?_map, List.getElem?_set]
  split
  · rename_i hij
    subst hij
    rw [htask]
    split
    · rw [Option.map_some, Option.map_some, hkey]
    · -- `i` is the position of a task, so it is not past the end
      rename_i hlength
      exact absurd (List.getElem?_eq_some_iff.mp htask).1 hlength
  · rfl

end WellFormed

/-! ## What a step does

The rest of the state may change in any way, since a handler writes the cache and the timers
replace the stores. The guarded state changes in three ways only, and every invariant of it is
proved by cases of `Move`, never by opening a handler again. -/

/-- **The moves of the canister.** Whatever else a step changes, the guarded state and the
requests that are alive change in one of three ways. What a step does to the cache, the ledger and
the stores is left out, so that an argument about guards has three cases and no more. -/
inductive Move (c c' : Canister L) : Event → Prop where
  /-- No request begins or ends. -/
  | quiet {event : Event} (hends : ends c event = false) (hactive : c'.active = c.active)
      (hinflight : c'.state.inflight = c.state.inflight)
      (hcounter : c'.state.request_counter = c.state.request_counter) : Move c c' event
  /-- A request that passes its validation begins and takes its guards. -/
  | begins {env : Environment} {request : GetExchangeRateRequest}
      (hadmitted : Admitted env (sanitize_request request) c.state)
      (hactive : c'.active = c.active ++ [guard_key env (sanitize_request request) c.state])
      (hinflight : c'.state.inflight
        = c.state.inflight ∪ (guard_key env (sanitize_request request) c.state).keys)
      (hcounter : c'.state.request_counter = Machine.saturating_add 32 c.state.request_counter
        (guard_key env (sanitize_request request) c.state).share) :
      Move c c' (.call env request)
  /-- The `i`-th request ends and drops its guards. -/
  | ends {i now_secs : ℕ} {answers : (call : Call) → Answer call} {key : GuardKey}
      (hends : ends c (.resume i now_secs answers) = true) (hkey : c.active[i]? = some key)
      (hactive : c'.active = c.active.eraseIdx i)
      (hinflight : c'.state.inflight = c.state.inflight \ key.keys)
      (hcounter : c'.state.request_counter = c.state.request_counter - key.share) :
      Move c c' (.resume i now_secs answers)

/-- An arrival that adds no request registers nothing. -/
theorem Move.inflight_of_same {c c' : Canister L} {env : Environment}
    {request : GetExchangeRateRequest} (h : Move c c' (.call env request))
    (hactive : c'.active = c.active) : c'.state.inflight = c.state.inflight := by
  cases h with
  | quiet _ _ hinflight _ => exact hinflight
  | begins _ hbegins _ _ =>
      rw [hactive] at hbegins
      have hlength := congrArg List.length hbegins
      rw [List.length_append, List.length_singleton] at hlength
      omega

/-- An arrival that adds a request registers its pairs. -/
theorem Move.inflight_of_new {c c' : Canister L} {env : Environment}
    {request : GetExchangeRateRequest} (h : Move c c' (.call env request))
    (hactive : c'.active.length = c.active.length + 1) : c'.state.inflight
      = c.state.inflight ∪ (guard_key env (sanitize_request request) c.state).keys := by
  cases h with
  | quiet _ hquiet _ _ =>
      rw [hquiet] at hactive
      omega
  | begins _ _ hinflight _ => exact hinflight

/-- Resuming a request that goes on drops nothing. -/
theorem Move.inflight_of_going_on {c c' : Canister L} {i now_secs : ℕ}
    {answers : (call : Call) → Answer call} (h : Move c c' (.resume i now_secs answers))
    (hactive : c'.active = c.active) : c'.state.inflight = c.state.inflight := by
  cases h with
  | quiet _ _ hinflight _ => exact hinflight
  | ends _ hkey hends _ _ =>
      rw [hactive] at hends
      have hlength := congrArg List.length hends
      have hi := (List.getElem?_eq_some_iff.mp hkey).1
      rw [List.length_eraseIdx_of_lt hi] at hlength
      omega

/-- Resuming a request that ends drops its pairs. -/
theorem Move.inflight_of_end {c c' : Canister L} {i now_secs : ℕ}
    {answers : (call : Call) → Answer call} (h : Move c c' (.resume i now_secs answers))
    {key : GuardKey} (hkey : c.active[i]? = some key) (hactive : c'.active = c.active.eraseIdx i) :
    c'.state.inflight = c.state.inflight \ key.keys := by
  have hi := (List.getElem?_eq_some_iff.mp hkey).1
  cases h with
  | quiet _ hquiet _ _ =>
      rw [hquiet] at hactive
      have hlength := congrArg List.length hactive
      rw [List.length_eraseIdx_of_lt hi] at hlength
      omega
  | ends _ hkey' _ hinflight _ =>
      rw [hkey] at hkey'
      rw [hinflight, Option.some.inj hkey']

omit [Unicode] [LruCache L CacheKey QueriedExchangeRate] in
/-- The reservation of a request does not saturate. -/
theorem GuardKey.http_requests_needed_eq_share {key : GuardKey} (h : key.num_rates_needed ≤ 3) :
    http_requests_needed key.num_rates_needed = key.share := http_requests_needed_eq h

theorem move_arrive (c : Canister L) (hc : c.WellFormed) (env : Environment)
    (request : GetExchangeRateRequest) :
    (arrive c env request).WellFormed ∧ Move c (arrive c env request) (.call env request) := by
  have hneeded : (guard_key env (sanitize_request request) c.state).num_rates_needed ≤ 3 :=
    rates_needed_le env (sanitize_request request) c.state
  have hshare := GuardKey.http_requests_needed_eq_share hneeded
  unfold arrive
  rcases tracked_get_exchange_rate_internal env request c.state with htrap | ⟨fees, hholds⟩
  · -- a panic while charging rolls the message back
    rw [htrap]
    exact ⟨hc, .quiet rfl rfl rfl rfl⟩
  cases hrun : get_exchange_rate_internal env request c.state with
  | trap => exact ⟨hc, .quiet rfl rfl rfl rfl⟩
  | done s result =>
      rw [hrun] at hholds
      -- answered without an outcall: the contract leaves the guarded state alone
      rcases hholds with ⟨-, hinflight, hcounter, -⟩ | ⟨hheld, -⟩
      · exact ⟨⟨hc.tasks, hc.memory⟩, .quiet rfl rfl hinflight hcounter⟩
      · cases hheld
  | await s held call resume =>
      rw [hrun] at hholds
      have htask := Task.wellFormed_of_await hholds hneeded env.time_secs
      dsimp only
      split
      · rename_i hroom
        rcases hholds.1.2.2 with ⟨-, hadmitted, hinflight, hcounter, -⟩ | ⟨hnil, -⟩
        · refine ⟨hc.concat htask hroom s, .begins hadmitted ?_ hinflight ?_⟩
          · rw [Canister.active, List.map_append]
            rfl
          · rw [hcounter, hshare]
        · cases hnil
      · -- no room: the message is rolled back
        exact ⟨hc, .quiet rfl rfl rfl rfl⟩

theorem move_resume_task (c : Canister L) (hc : c.WellFormed) (i now_secs : ℕ)
    (answers : (call : Call) → Answer call) :
    (resume_task c i now_secs answers).WellFormed
      ∧ Move c (resume_task c i now_secs answers) (.resume i now_secs answers) := by
  unfold resume_task
  cases htask : c.tasks[i]? with
  | none =>
      have hends : ends c (.resume i now_secs answers) = false := by
        simp only [ends, htask]
      exact ⟨hc, .quiet hends rfl rfl rfl⟩
  | some task =>
      have hends : ends c (.resume i now_secs answers) = (decide (task.outstanding = 0)
          && (task.resume (answers task.call) c.state).isDone) := by
        simp only [ends, htask]
      have hwf : task.WellFormed := hc.tasks task (List.mem_of_getElem? htask)
      obtain ⟨fees, admitted, hresumes⟩ := hwf.resumes
      have hholds := hresumes (answers task.call) c.state
      dsimp only
      split
      · -- an outcall is still out
        rename_i houtstanding
        rw [decide_eq_false houtstanding, Bool.false_and] at hends
        exact ⟨hc, .quiet hends rfl rfl rfl⟩
      · rename_i houtstanding
        rw [decide_eq_true (not_not.mp houtstanding), Bool.true_and] at hends
        cases hrun : task.resume (answers task.call) c.state with
        | trap =>
            -- the contract excludes a panic while the guards are held
            rw [hrun] at hholds
            exact hholds.elim
        | done s result =>
            rw [hrun] at hends hholds
            have hkey : c.active[i]? = some task.key := by
              rw [Canister.active, List.getElem?_map, htask, Option.map_some]
            -- it held both guards, so the last segment drops both
            rcases hholds with ⟨hnil, -⟩ | ⟨-, hinflight, hcounter, -⟩
            · rw [hwf.held_eq] at hnil
              cases hnil
            · refine ⟨hc.eraseIdx s i, .ends hends hkey ?_ hinflight ?_⟩
              · rw [Canister.active, Canister.active, List.eraseIdx_map]
              · rw [hcounter, GuardKey.http_requests_needed_eq_share hwf.num_rates_needed_le]
        | await s held call resume =>
            rw [hrun] at hends hholds
            -- the next call of the same request, under the guards it already holds
            have hnext := Task.wellFormed_of_await hholds hwf.num_rates_needed_le now_secs
            rcases hholds.1.2.2 with ⟨hnil, -⟩ | ⟨-, hinflight, hcounter, -⟩
            · rw [hwf.held_eq] at hnil
              cases hnil
            · refine ⟨hc.set hnext s i, .quiet hends (active_set htask ?_ s) hinflight hcounter⟩
              rfl

theorem move_outcall_returned (c : Canister L) (hc : c.WellFormed) (i : ℕ) :
    (step c (.outcall_returned i)).WellFormed
      ∧ Move c (step c (.outcall_returned i)) (.outcall_returned i) := by
  refine ⟨⟨fun task htask => ?_, ?_⟩, .quiet rfl ?_ rfl rfl⟩
  · obtain ⟨j, hj⟩ := List.mem_iff_getElem?.mp htask
    rw [step, List.getElem?_modify, Option.map_eq_map, Option.map_eq_some_iff] at hj
    -- only the count of the outcalls has changed, and it has not grown
    obtain ⟨before, hbefore, rfl⟩ := hj
    have hwf := hc.tasks before (List.mem_of_getElem? hbefore)
    split
    · exact ⟨hwf.held_eq, (Nat.sub_le _ _).trans hwf.outstanding_le, hwf.num_rates_needed_le,
        hwf.resumes⟩
    · exact hwf
  · rw [step, List.length_modify]
    exact hc.memory
  · apply List.ext_getElem?
    intro j
    simp only [Canister.active, step, List.getElem?_map, List.getElem?_modify, Option.map_eq_map,
      Option.map_map]
    refine congrArg (fun f => Option.map f c.tasks[j]?) (funext fun task => ?_)
    simp only [Function.comp_apply]
    split <;> rfl

/-- **Every step is a move.** The moves forget what a request computes and keep what the
invariants speak of: whether a request began or ended, which pairs it guards and what it adds to
the counter. -/
theorem step_move (c : Canister L) (hc : c.WellFormed) (event : Event) :
    (step c event).WellFormed ∧ Move c (step c event) event := by
  cases event with
  | call env request => exact move_arrive c hc env request
  | resume i now_secs answers => exact move_resume_task c hc i now_secs answers
  | timer forex_store listing_store => exact ⟨⟨hc.tasks, hc.memory⟩, .quiet rfl rfl rfl rfl⟩
  | outcall_returned i => exact move_outcall_returned c hc i

theorem wellFormed_run (c : Canister L) (hc : c.WellFormed) (events : List Event) :
    (run c events).WellFormed := by
  induction events using List.reverseRecOn with
  | nil => exact hc
  | append_singleton events event ih =>
      rw [run_concat]
      exact (step_move _ ih event).1

/-- **Runs without bad steps.** What is kept by all steps but the bad ones holds throughout
exactly the runs without a bad step. -/
theorem forall_prefix_iff {P : Canister L → Prop} {B : Canister L → Event → Prop}
    (hstep : ∀ c : Canister L, c.WellFormed → P c → ∀ event, P (step c event) ↔ ¬ B c event)
    {c : Canister L} (hwf : c.WellFormed) (hc : P c) (events : List Event) :
    (∀ n, P (run c (events.take n)))
      ↔ ∀ n event, events[n]? = some event → ¬ B (run c (events.take n)) event := by
  have hnext : ∀ n event, events[n]? = some event → P (run c (events.take n)) →
      (P (run c (events.take (n + 1))) ↔ ¬ B (run c (events.take n)) event) := by
    intro n event hevent hprefix
    obtain ⟨hn, hget⟩ := List.getElem?_eq_some_iff.mp hevent
    rw [List.take_succ_eq_append_getElem hn, hget, run_concat]
    exact hstep _ (wellFormed_run c hwf _) hprefix event
  constructor
  · intro h n event hevent
    exact (hnext n event hevent (h n)).mp (h (n + 1))
  · intro h n
    induction n with
    | zero => exact hc
    | succ n ih =>
        cases hevent : events[n]? with
        | some event => exact (hnext n event hevent ih).mpr (h n event hevent)
        | none =>
            -- past the end of the run the prefixes no longer grow
            have hlength := List.getElem?_eq_none_iff.mp hevent
            rw [List.take_of_length_le (by omega)]
            rw [List.take_of_length_le hlength] at ih
            exact ih

end Step

end Xrc
