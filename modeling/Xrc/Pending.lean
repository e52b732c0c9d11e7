/-
What a request that is turned away waits for. The in-flight set is to hold the rates that are
being fetched, but a request registers the symbols of its pair whether or not it has to fetch
them, and keeps them registered until its last rate has arrived. A request for a rate that is
registered and cached waits for nothing.

`RegisteredMissing` is the condition under which `Pending` is true: then every pair of the set
is being fetched by the request that has registered it (`fetched_run`), which is carried along
the suspended requests as what they still owe.
-/
import Xrc.CacheInvariant
import Xrc.Exclusion
import Xrc.Rejections
import Xrc.ThinRates

set_option autoImplicit false

namespace Xrc

open Async CallExchangesImpl

/-- A call asks for the rate of a symbol at a timestamp. One call may ask for several stablecoins,
all at the same timestamp. -/
def Call.asks : Call → CacheKey → Prop
  | .get_cryptocurrency_usdt_rate _ asset timestamp, k => (asset.symbol, timestamp) = k
  | .get_stablecoin_rates _ symbols timestamp, k => k.1 ∈ symbols ∧ k.2 = timestamp

/-- A result is an error. -/
def IsError {α : Type} (result : Except ExchangeRateError α) : Prop :=
  ∃ error, result = .error error

theorem IsError.map {α β : Type} {f : α → β} {result : Except ExchangeRateError α}
    (h : IsError result) : IsError (result.map f) := by
  obtain ⟨error, rfl⟩ := h
  exact ⟨error, rfl⟩

theorem IsError.bind {α β : Type} {f : α → Except ExchangeRateError β}
    {result : Except ExchangeRateError α} (h : IsError result) : IsError (result.bind f) := by
  obtain ⟨error, rfl⟩ := h
  exact ⟨error, rfl⟩

theorem IsError.presented {result : RateResult} (h : IsError result)
    (request : GetExchangeRateRequest) : IsError (presented request result) := by
  obtain ⟨error, rfl⟩ := h
  unfold Xrc.presented
  split
  · exact ⟨_, rfl⟩
  · exact ⟨_, rfl⟩

section Pending

variable [Unicode] {L : Type}

/-- A suspended request is fetching a rate: it waits for it, or it goes on to ask for it
unless it ends in an error before. -/
def Task.fetches (task : Task L) (k : CacheKey) : Prop :=
  Pursues IsError (fun call => call.asks k) task.call task.resume

variable [LruCache L CacheKey QueriedExchangeRate]

/-- A request that reads the cache finds the rate. -/
def cached (cache : ExchangeRateCache L) (k : CacheKey) : Bool := (cache.lookup k.1 k.2).isSome

/-- What a computation owes to those who wait for a rate: to fetch it, or to cache it. An error
frees it of the debt, since the request ends there, and so does a genuine answer that brings the
rate into the cache. -/
abbrev OwesRate {α : Type} (k : CacheKey)
    (handler : Handler L (Except ExchangeRateError α)) : Prop :=
  Owes GenuineAnswer IsError (fun call => call.asks k) (fun s => cached s.cache k = true) handler

/-! ## Fetching

What a request has registered it must bring into the cache, or ask for, unless it fails: `Owes`
of `Async` says so of a computation, with "the rate is cached" for what pays. The rule of
`fetch_rate` is the only place where something is paid. -/

/-- **A rate that has been fetched is cached.** This is where the answers have to be genuine: an
answer without rates would not be inserted, and its pair would be asked for again. -/
theorem cached_insert {exchanges : List Exchange} {asset : Asset} {timestamp : ℕ}
    {response : QueriedExchangeRateWithFailedExchanges}
    (hclass : asset.class' = .Cryptocurrency)
    (hanswer : GenuineAnswer (.get_cryptocurrency_usdt_rate exchanges asset timestamp)
      (.ok response)) (cache : ExchangeRateCache L) :
    cached (cache.insert response.queried_exchange_rate) (asset.symbol, timestamp) = true := by
  have hrate := rateOf_crypto hclass hanswer
  obtain ⟨listing_store, now_secs, answers, hresponse⟩ := hanswer
  have hne := (freshRate_of_crypto hresponse.symm).2
  unfold cached ExchangeRateCache.lookup
  by_cases husdt : to_uppercase asset.symbol = USDT
  · rw [if_pos husdt]
    rfl
  · -- `insert` takes the rate, since a successful query has some rates left
    have hcaches : ExchangeRateCache.caches response.queried_exchange_rate = true := by
      simp only [ExchangeRateCache.caches, Bool.and_eq_true, Bool.not_eq_true', decide_eq_true_eq]
      refine ⟨⟨⟨?_, ?_⟩, hrate.class_eq⟩, hrate.quote_eq⟩
      · rw [List.isEmpty_eq_false_iff]
        exact hne
      · rw [hrate.symbol_eq]
        exact husdt
    rw [if_neg husdt, ExchangeRateCache.insert, if_pos hcaches, hrate.symbol_eq,
      hrate.timestamp_eq, LruCache.peek_put_self]
    rfl

variable {α : Type} {k : CacheKey} {s : State L}

/-- **The rule of `fetch_rate`.** A rate that is at hand is owed by nobody. One that is missing is
asked for now, unless what follows asks for it, and whatever is answered the rest still owes what
it did. -/
theorem owes_fetch_rate {exchanges : List Exchange} {asset : Asset} {timestamp : ℕ}
    {not_found : ExchangeRateError} {maybe_rate : Option QueriedExchangeRate}
    {rest : QueriedExchangeRate → List Exchange → State L →
      Handler L (Except ExchangeRateError α)}
    (hclass : asset.class' = .Cryptocurrency)
    (hnow : maybe_rate = none → cached s.cache k = true ∨ (asset.symbol, timestamp) = k
      ∨ ∀ rate failed_exchanges s',
        MayCall (fun call => call.asks k) (rest rate failed_exchanges s')
          ∧ CallsUnless IsError (fun call => call.asks k) (rest rate failed_exchanges s'))
    (hsome : ∀ rate, maybe_rate = some rate → OwesRate k (rest rate [] s))
    (hrest : ∀ rate failed_exchanges s',
      ((asset.symbol, timestamp) = k → cached s'.cache k = true) →
        OwesRate k (rest rate failed_exchanges s')) :
    OwesRate k (fetch_rate exchanges asset timestamp not_found maybe_rate rest s) := by
  cases maybe_rate with
  | some rate => exact hsome rate rfl
  | none =>
      refine ⟨?_, ?_⟩
      · rcases hnow rfl with hcached | hasks | hlater
        · exact Or.inl hcached
        · exact Or.inr (Or.inl hasks)
        · -- any rate will do for the rest to go on
          refine Or.inr (Or.inr ⟨⟨.ok ⟨QueriedExchangeRate.usdt_unit timestamp, []⟩, s,
            (hlater _ _ _).1⟩, ?_⟩)
          intro answer s'
          cases answer with
          | error error => exact ⟨not_found, rfl⟩
          | ok response => exact (hlater _ _ _).2
      · intro answer s' hanswer
        cases answer with
        | error error => trivial
        | ok response =>
            apply hrest _ _ _
            rintro rfl
            exact cached_insert hclass hanswer s'.cache

/-- A crypto pair that has read its rates and goes on to fetch those it misses. The base asset is
fetched before the quote asset, so the latter stays owed through the first answer. -/
theorem owes_fetch_cryptocurrency_pair [Features] {request : GetExchangeRateRequest}
    (hbase : request.base_asset.class' = .Cryptocurrency)
    (hquote : request.quote_asset.class' = .Cryptocurrency) {timestamp : ℕ}
    {maybe_base_rate maybe_quote_rate : Option QueriedExchangeRate}
    (hbase_cached : maybe_base_rate.isSome = true →
      cached s.cache (request.base_asset.symbol, timestamp) = true)
    (hquote_cached : maybe_quote_rate.isSome = true →
      cached s.cache (request.quote_asset.symbol, timestamp) = true)
    (hk : (request.base_asset.symbol, timestamp) = k ∨ (request.quote_asset.symbol, timestamp) = k) :
    OwesRate k (fetch_cryptocurrency_pair request timestamp maybe_base_rate maybe_quote_rate s) := by
  unfold fetch_cryptocurrency_pair
  refine owes_fetch_rate hbase ?_ ?_ ?_
  · -- the base is being fetched, and the quote is cached or comes next
    rintro rfl
    rcases hk with hk | hk
    · exact Or.inr (Or.inl hk)
    · cases maybe_quote_rate with
      | some quote_rate =>
          rw [← hk]
          exact Or.inl (hquote_cached rfl)
      | none => exact Or.inr (Or.inr fun rate failed_exchanges s' => ⟨Or.inl hk, Or.inl hk⟩)
  · -- the base is cached, and only the quote may be fetched
    rintro base_rate rfl
    refine owes_fetch_rate hquote ?_ (fun _ _ => trivial) (fun _ _ _ _ => trivial)
    rintro rfl
    rcases hk with hk | hk
    · rw [← hk]
      exact Or.inl (hbase_cached rfl)
    · exact Or.inr (Or.inl hk)
  · -- the base has been fetched, and is cached by now
    intro base_rate failed_exchanges s' hfetched
    refine owes_fetch_rate hquote ?_ (fun _ _ => trivial) (fun _ _ _ _ => trivial)
    rintro rfl
    rcases hk with hk | hk
    · exact Or.inl (hfetched hk)
    · exact Or.inr (Or.inl hk)

/-- A crypto/fiat pair asks for the stablecoins first. Its cryptocurrency is registered from the
start and fetched last, unless the stablecoins bring an error first. -/
theorem owes_fetch_crypto_fiat_pair [Features] {request : GetExchangeRateRequest}
    (hbase : request.base_asset.class' = .Cryptocurrency) {timestamp : ℕ}
    {maybe_crypto_base_rate : Option QueriedExchangeRate}
    (hbase_cached : maybe_crypto_base_rate.isSome = true →
      cached s.cache (request.base_asset.symbol, timestamp) = true)
    (hk : (request.base_asset.symbol, timestamp) = k) (stablecoin_rates : List QueriedExchangeRate)
    (missed_stablecoin_symbols : List String) (forex_rate : QueriedExchangeRate) :
    OwesRate k (fetch_crypto_fiat_pair request timestamp maybe_crypto_base_rate stablecoin_rates
      missed_stablecoin_symbols forex_rate s) := by
  refine ⟨?_, ?_⟩
  · cases maybe_crypto_base_rate with
    | some crypto_base_rate =>
        rw [← hk]
        exact Or.inl (hbase_cached rfl)
    | none => -- the base comes next, whatever the answer
        exact Or.inr (Or.inr ⟨⟨[], s, Or.inl hk⟩, fun results s' => Or.inl hk⟩)
  · intro results s' _
    refine owes_fetch_rate hbase ?_ (fun _ _ => trivial) (fun _ _ _ _ => trivial)
    intro _
    exact Or.inr (Or.inl hk)

/-! ## The handlers

The reads, the charge and the guards pay nothing and hide no failure. So a handler owes what its
fetching phase owes, which is every symbol it has registered and not found. -/

theorem owes_charge_cycles {rest : State L → Handler L (Except ExchangeRateError α)}
    (hrest : ∀ s', s'.cache = s.cache → OwesRate k (rest s')) (env : Environment)
    (num_rates_needed : ℕ) (is_valid_request : Bool) :
    OwesRate k (charge_cycles env num_rates_needed is_valid_request s rest) := by
  unfold charge_cycles
  split
  · exact hrest s rfl
  · dsimp only
    split
    · exact hrest _ rfl
    · trivial
    · trivial

variable [Features]

/-- Both guards around a fetching phase. -/
theorem owes_guards {future : State L → Handler L (Except ExchangeRateError α)}
    (h : ∀ s', s'.cache = s.cache → OwesRate k (future s')) (symbols : List String)
    (timestamp num_rates_needed : ℕ) :
    OwesRate k (with_inflight_tracking symbols timestamp
      (with_request_counter num_rates_needed future) s) :=
  Owes.guarded (Owes.guarded (h _ rfl))

/-- What is usable is cached, also after the reads. -/
theorem cached_of_usable_rate {cache cache' : ExchangeRateCache L} {caller : Principal}
    {symbol : String} {timestamp : ℕ}
    (hsame : cache'.lookup symbol timestamp = cache.lookup symbol timestamp)
    (h : (usable_rate cache caller symbol timestamp).isSome = true) :
    cached cache' (symbol, timestamp) = true := by
  obtain ⟨rate, hrate⟩ := Option.isSome_iff_exists.mp h
  have hlookup : cache.lookup symbol timestamp = some rate := (Option.filter_eq_some_iff.mp hrate).1
  unfold cached
  rw [hsame, hlookup]
  rfl

theorem owes_gather_cryptocurrency_pair {request : GetExchangeRateRequest}
    (hbase : request.base_asset.class' = .Cryptocurrency)
    (hquote : request.quote_asset.class' = .Cryptocurrency) (env : Environment) (s : State L)
    (hk : (request.base_asset.symbol, (get_normalized_timestamp env request s).value) = k
      ∨ (request.quote_asset.symbol, (get_normalized_timestamp env request s).value) = k) :
    OwesRate k (gather_cryptocurrency_pair env request s) := by
  obtain ⟨hbase_read, hquote_read⟩ := read_cryptocurrency_pair_eq env request
    (get_normalized_timestamp env request s).value s.cache
  unfold gather_cryptocurrency_pair
  dsimp only
  refine owes_charge_cycles ?_ env _ _
  intro s' hs'
  unfold proceed_cryptocurrency_pair
  -- a request that is turned away, or served from the cache, owes nothing
  split
  · trivial
  · split
    · trivial
    · refine owes_guards ?_ _ _ _
      intro s'' hs''
      refine owes_fetch_cryptocurrency_pair hbase hquote ?_ ?_ hk
      · rw [hbase_read, hs'', hs']
        dsimp only
        exact cached_of_usable_rate (lookup_read_cryptocurrency_pair _ _ _ _ _ _)
      · rw [hquote_read, hs'', hs']
        dsimp only
        exact cached_of_usable_rate (lookup_read_cryptocurrency_pair _ _ _ _ _ _)

theorem owes_gather_crypto_base_fiat_quote_pair {request : GetExchangeRateRequest}
    (hbase : request.base_asset.class' = .Cryptocurrency) (env : Environment) (s : State L)
    (hk : (request.base_asset.symbol, (get_normalized_timestamp env request s).value) = k) :
    OwesRate k (gather_crypto_base_fiat_quote_pair env request s) := by
  have hbase_read := (read_crypto_fiat_pair_eq env request
    (get_normalized_timestamp env request s).value s.cache).1
  unfold gather_crypto_base_fiat_quote_pair
  dsimp only
  refine owes_charge_cycles ?_ env _ _
  intro s' hs'
  unfold proceed_crypto_base_fiat_quote_pair
  -- nor does one without a forex rate
  split
  · trivial
  · split
    · trivial
    · split
      · trivial
      · refine owes_guards ?_ _ _ _
        intro s'' hs''
        refine owes_fetch_crypto_fiat_pair hbase ?_ hk _ _ _
        rw [hbase_read, hs'', hs']
        dsimp only
        exact cached_of_usable_rate (lookup_read_crypto_fiat_pair _ _ _ _ _ _)

/-- **What a request registers, it owes.** A request for a pair of both classes registers its
cryptocurrency, and one for two cryptocurrencies both of them, although it may need only one. The
latter is why the set can name a pair that nobody fetches. -/
theorem owes_get_exchange_rate_internal (env : Environment) (request : GetExchangeRateRequest)
    (s : State L) (hk : k ∈ (guard_key env (sanitize_request request) s).keys) :
    OwesRate k (get_exchange_rate_internal env request s) := by
  obtain ⟨hsymbol, htimestamp⟩ := mem_inflight_keys.mp hk
  refine Owes.map (fun result (h : IsError result) => h.map) ?_
  rcases answer_request_cases env request s with ⟨error, -, hanswer⟩ | ⟨-, -, hanswer⟩
  · rw [hanswer]
    trivial
  · rw [hanswer]
    generalize sanitize_request request = request at hsymbol htimestamp
    cases pairKind request with
    | crypto_fiat_pair hpair =>
        rw [(guard_key_of_crypto_fiat_pair hpair env s).1] at hsymbol htimestamp
        rw [route_request_crypto_fiat hpair]
        refine Owes.map (fun result (h : IsError result) => h.presented request)
          (Owes.map (fun result (h : IsError result) => h.bind) ?_)
        apply owes_gather_crypto_base_fiat_quote_pair (base_of_routed_request hpair) env s
        exact Prod.ext (List.mem_singleton.mp hsymbol).symm htimestamp.symm
    | crypto_pair hbase hquote =>
        rw [guard_key_of_crypto_pair hbase hquote env s] at hsymbol htimestamp
        rw [(route_request_crypto_crypto hbase hquote env s).1]
        refine Owes.map (fun result (h : IsError result) => h.bind)
          (owes_gather_cryptocurrency_pair hbase hquote env s ?_)
        rcases List.mem_cons.mp hsymbol with h | h
        · exact Or.inl (Prod.ext h.symm htimestamp.symm)
        · exact Or.inr (Prod.ext (List.mem_singleton.mp h).symm htimestamp.symm)
    | fiat_pair hbase hquote =>
        -- a pair of currencies registers nothing
        unfold guard_key fetched_symbols at hsymbol
        rw [hbase, hquote] at hsymbol
        cases hsymbol

/-! ## Runs

Between two events every suspended request owes its keys, and each key of the set has a request
that has registered it. As long as no registered key is cached, an owed key is one that is being
fetched. -/

/-- No pair of the in-flight set is cached. It is a condition on the states of a run, which
registering a cached pair violates. -/
def RegisteredMissing (c : Canister L) : Prop :=
  ∀ k ∈ c.state.inflight, cached c.state.cache k = false

/-- A suspended request owes what it has registered. The debt is to be paid from whatever state
the request is resumed in. -/
def Task.OwesKeys (task : Task L) : Prop :=
  ∀ k ∈ task.key.keys, ∀ answer s, GenuineAnswer task.call answer →
    OwesRate k (task.resume answer s)

/-- Every suspended request owes what it has registered, and every pair of the in-flight set is
being fetched by a request that has registered it. The second part needs an assumption on the run:
a pair that is registered and already cached is registered without being fetched. -/
structure Fetched (c : Canister L) : Prop where
  owes : ∀ task ∈ c.tasks, task.OwesKeys
  fetched : ∀ k ∈ c.state.inflight, ∃ task ∈ c.tasks, k ∈ task.key.keys ∧ task.fetches k

omit [Features] in
/-- What is owed and has not been cached is being fetched. -/
theorem fetches_of_owes {key : GuardKey} {s : State L} {held : List Guard} {call : Call}
    {resume : Answer call → State L → Handler L (Except ExchangeRateError ExchangeRate)}
    (h : OwesRate k (.await s held call resume)) (hmissing : cached s.cache k = false)
    (outstanding : ℕ) : Task.fetches ⟨key, held, call, resume, outstanding⟩ k := by
  rcases h.1 with hcached | hfetches
  · rw [hmissing] at hcached
    cases hcached
  · exact hfetches

theorem Fetched.arrive {c : Canister L} (hwf : c.WellFormed) (hc : Fetched c) (env : Environment)
    (request : GetExchangeRateRequest) (hmissing : RegisteredMissing (arrive c env request)) :
    Fetched (arrive c env request) := by
  have hmove := (move_arrive c hwf env request).2
  unfold Xrc.arrive at hmove hmissing ⊢
  cases hrun : get_exchange_rate_internal env request c.state with
  | trap => exact hc
  | done s result =>
      rw [hrun] at hmove
      refine ⟨hc.owes, ?_⟩
      rw [hmove.inflight_of_same rfl]
      exact hc.fetched
  | await s held call resume =>
      rw [hrun] at hmove hmissing
      dsimp only at hmove hmissing ⊢
      split
      · rename_i hroom
        rw [if_pos hroom] at hmove hmissing
        have howes : ∀ k ∈ (guard_key env (sanitize_request request) c.state).keys,
            OwesRate k (.await s held call resume) := by
          intro k hk
          have h := owes_get_exchange_rate_internal env request c.state hk
          rw [hrun] at h
          exact h
        refine ⟨?_, ?_⟩
        · intro task htask
          rcases List.mem_append.mp htask with htask | htask
          · exact hc.owes task htask
          · rw [List.mem_singleton.mp htask]
            intro k hk answer s' hanswer
            exact (howes k hk).2 answer s' hanswer
        · have hinflight := hmove.inflight_of_new (by simp only [Canister.active, List.length_map,
            List.length_append, List.length_singleton])
          intro k hk
          have hnot := hmissing k hk
          rw [hinflight, Finset.mem_union] at hk
          -- registered before, or by the request that has arrived
          rcases hk with hk | hk
          · obtain ⟨task, htask, hfetched⟩ := hc.fetched k hk
            exact ⟨task, List.mem_append_left _ htask, hfetched⟩
          · exact ⟨_, List.mem_append_right _ (List.mem_singleton_self _), hk,
              fetches_of_owes (howes k hk) hnot _⟩
      · exact hc

omit [Unicode] [LruCache L CacheKey QueriedExchangeRate] [Features] in
theorem getElem?_active {c : Canister L} {i : ℕ} {task : Task L} (htask : c.tasks[i]? = some task) :
    c.active[i]? = some task.key := by
  rw [Canister.active, List.getElem?_map, htask, Option.map_some]

omit [Features] in
/-- A request that ends takes its own pairs out of the set, and those only. A pair that stays in
the set is another request's, which goes on fetching it. -/
theorem Fetched.eraseIdx {c : Canister L} (hc : Fetched c) {i : ℕ} {task : Task L}
    (htask : c.tasks[i]? = some task) {s : State L}
    (hinflight : s.inflight = c.state.inflight \ task.key.keys) :
    Fetched ⟨s, c.tasks.eraseIdx i⟩ := by
  refine ⟨?_, ?_⟩
  · intro other hother
    exact hc.owes other (List.mem_of_mem_eraseIdx hother)
  · intro k hk
    rw [hinflight, Finset.mem_sdiff] at hk
    obtain ⟨other, hother, hmem, hfetches⟩ := hc.fetched k hk.1
    obtain ⟨j, hj⟩ := List.mem_iff_getElem?.mp hother
    refine ⟨other, ?_, hmem, hfetches⟩
    -- who fetches the pair has registered it, and is not the one that ends
    rw [List.mem_eraseIdx_iff_getElem?]
    refine ⟨j, ?_, hj⟩
    rintro rfl
    rw [htask] at hj
    rw [← Option.some.inj hj] at hmem
    exact hk.2 hmem

omit [Features] in
/-- A request that goes on fetches what is still missing. What it was waiting for has been
answered, so it is cached now, or the request has ended with an error. -/
theorem Fetched.set {c : Canister L} (hc : Fetched c) {i : ℕ} {task task' : Task L}
    (htask : c.tasks[i]? = some task) (hkey : task'.key = task.key) (howes : task'.OwesKeys)
    {s : State L} (hinflight : s.inflight = c.state.inflight)
    (hfetches : ∀ k ∈ s.inflight, k ∈ task.key.keys → task'.fetches k) :
    Fetched ⟨s, c.tasks.set i task'⟩ := by
  refine ⟨?_, ?_⟩
  · intro other hother
    rcases List.mem_or_eq_of_mem_set hother with hother | rfl
    · exact hc.owes other hother
    · exact howes
  · intro k hk
    have hk' := hk
    rw [hinflight] at hk'
    obtain ⟨other, hother, hmem, hother_fetches⟩ := hc.fetched k hk'
    obtain ⟨j, hj⟩ := List.mem_iff_getElem?.mp hother
    have hlength := (List.getElem?_eq_some_iff.mp htask).1
    by_cases hij : i = j
    · -- the request itself, which has kept its key
      subst hij
      rw [htask] at hj
      rw [← Option.some.inj hj] at hmem
      refine ⟨task', List.mem_set hlength _, ?_, hfetches k hk hmem⟩
      rw [hkey]
      exact hmem
    · refine ⟨other, List.mem_iff_getElem?.mpr ⟨j, ?_⟩, hmem, hother_fetches⟩
      rw [List.getElem?_set_ne hij]
      exact hj

theorem Fetched.resume_task {c : Canister L} (hwf : c.WellFormed) (hc : Fetched c)
    (i now_secs : ℕ) {answers : (call : Call) → Answer call}
    (hanswers : ∀ call, GenuineAnswer call (answers call))
    (hmissing : RegisteredMissing (resume_task c i now_secs answers)) :
    Fetched (resume_task c i now_secs answers) := by
  have hmove := (move_resume_task c hwf i now_secs answers).2
  unfold Xrc.resume_task at hmove hmissing ⊢
  cases htask : c.tasks[i]? with
  | none => exact hc
  | some task =>
      rw [htask] at hmove hmissing
      have howes : ∀ k ∈ task.key.keys, OwesRate k (task.resume (answers task.call) c.state) :=
        fun k hk => hc.owes task (List.mem_of_getElem? htask) k hk _ _ (hanswers task.call)
      dsimp only at hmove hmissing ⊢
      split
      · exact hc
      · rename_i houtstanding
        rw [if_neg houtstanding] at hmove hmissing
        cases hrun : task.resume (answers task.call) c.state with
        | trap =>
            rw [hrun] at hmove
            apply hc.eraseIdx htask
            exact hmove.inflight_of_end (getElem?_active htask) (List.eraseIdx_map ..).symm
        | done s result =>
            rw [hrun] at hmove
            apply hc.eraseIdx htask
            exact hmove.inflight_of_end (getElem?_active htask) (List.eraseIdx_map ..).symm
        | await s held call resume =>
            rw [hrun] at hmove hmissing howes
            dsimp only at hmove hmissing ⊢
            have hinflight := hmove.inflight_of_going_on (active_set htask (by rfl) s)
            -- what it has registered and has not cached by now, it still owes
            refine hc.set htask (by rfl) ?_ hinflight ?_
            · intro k hk answer s' hanswer
              exact (howes k hk).2 answer s' hanswer
            · intro k hk hmem
              exact fetches_of_owes (howes k hmem) (hmissing k hk) _

/-- **A step keeps what is registered being fetched**, as long as none of it is cached. A request
that ends takes its pairs out of the set; one that goes on has been answered, and a pair of its
own that is still missing is one that it still owes. -/
theorem Fetched.step {c : Canister L} (hwf : c.WellFormed) (hc : Fetched c) {event : Event}
    (hgenuine : event.Genuine) (hmissing : RegisteredMissing (step c event)) :
    Fetched (step c event) := by
  cases event with
  | call env request => exact hc.arrive hwf env request hmissing
  | resume i now_secs answers => exact hc.resume_task hwf i now_secs hgenuine hmissing
  | timer forex_store listing_store => exact ⟨hc.owes, hc.fetched⟩
  | outcall_returned i =>
      -- only the count of the outcalls has changed
      refine ⟨?_, ?_⟩
      · intro task htask
        obtain ⟨j, hj⟩ := List.mem_iff_getElem?.mp htask
        rw [Xrc.step, List.getElem?_modify, Option.map_eq_map, Option.map_eq_some_iff] at hj
        obtain ⟨before, hbefore, rfl⟩ := hj
        have howes := hc.owes before (List.mem_of_getElem? hbefore)
        split
        · exact howes
        · exact howes
      · intro k hk
        obtain ⟨task, htask, hmem, hfetches⟩ := hc.fetched k hk
        obtain ⟨j, hj⟩ := List.mem_iff_getElem?.mp htask
        by_cases hij : i = j
        · refine ⟨task.outcall_returned, List.mem_iff_getElem?.mpr ⟨j, ?_⟩, hmem, hfetches⟩
          simp only [Xrc.step, List.getElem?_modify, hj, if_pos hij, Option.map_eq_map,
            Option.map_some]
        · refine ⟨task, List.mem_iff_getElem?.mpr ⟨j, ?_⟩, hmem, hfetches⟩
          simp only [Xrc.step, List.getElem?_modify, hj, if_neg hij, Option.map_eq_map,
            Option.map_some]

omit [Features] in
/-- What a request fetches is among what it has registered, and the stablecoins. Stablecoins are
not registered, so a request that needs one does not see that it is being fetched. -/
theorem Task.fetches.within {task : Task L} {k : CacheKey} (h : task.fetches k)
    (hserves : (unconditional : Terms L).Serves task) :
    k.1 ∈ task.key.symbols ∨ k.1 ∈ STABLECOIN_BASES := by
  have hcall : ∀ call : Call, task.key.Asks call → call.asks k →
      k.1 ∈ task.key.symbols ∨ k.1 ∈ STABLECOIN_BASES := by
    intro call hwithin hasks
    cases call with
    | get_cryptocurrency_usdt_rate exchanges asset timestamp =>
        rw [← (show (asset.symbol, timestamp) = k from hasks)]
        exact Or.inl hwithin.1
    | get_stablecoin_rates exchanges symbols timestamp => exact Or.inr (hwithin.1 _ hasks.1)
  rcases h with hnow | ⟨⟨answer, s, hlater⟩, -⟩
  · exact hcall _ hserves.asks hnow
  · obtain ⟨a, held, b, held', call, hawait, hasks⟩ :=
      MayCall.holds (fun _ _ => trivial) hlater (hserves.resumes answer s trivial)
    exact hcall call hawait.2 hasks

end Pending

/-! ## Two coins against USDT

USDT is always at hand, and registered with every pair it is part of. -/

end Xrc
