/-
The terms on which requests are served: what they may rely on of the answers to their
calls, what they preserve of the cache, and what is then known of the rates an answer is
composed of. `Served` is the contract of all segments of a request under such terms,
`served_route_request` proves it of every request, once for all asset classes.

Whatever the terms are, a request asks for nothing but what it has registered
(`GuardKey.Asks`).
-/
import Xrc.Canister

set_option autoImplicit false

namespace Xrc

open Async CallExchangesImpl

/-- A call stays within what the guards of `key` have registered, and the stablecoins. The
stablecoins are asked for without being registered, which is why a pair of one may be fetched
twice. -/
def GuardKey.Asks (key : GuardKey) : Call → Prop
  | .get_cryptocurrency_usdt_rate _ asset timestamp =>
    asset.symbol ∈ key.symbols ∧ timestamp = key.timestamp
  | .get_stablecoin_rates _ symbols timestamp =>
    (∀ symbol ∈ symbols, symbol ∈ STABLECOIN_BASES) ∧ timestamp = key.timestamp

section Terms

variable [Unicode] {L : Type} [LruCache L CacheKey QueriedExchangeRate]

/-- What a request may rely on, and what it preserves: the answers to its calls, the forex rates
it finds, a property of the cache, and what these say of a rate for a symbol that may be asked for
at a timestamp. An invariant of the cache or of the stores, and what it says of an answer, is an
instance; that whole runs keep it is proved here once for all of them. -/
structure Terms (L : Type) [LruCache L CacheKey QueriedExchangeRate] where
  answers : (call : Call) → Answer call → Prop
  forex_store : ForexRateStore → Prop
  asked : String → Prop
  cache : ExchangeRateCache L → Prop
  rate_of : String → ℕ → QueriedExchangeRate → Prop
  asked_sanitized : ∀ symbol, asked (sanitize_symbol symbol)
  asked_stablecoin : ∀ symbol ∈ STABLECOIN_BASES, asked symbol
  cache_get : ∀ {c}, cache c → ∀ symbol timestamp, cache (c.get symbol timestamp).2
  cache_insert : ∀ {c}, cache c → ∀ {symbol timestamp rate}, asked symbol →
    rate_of symbol timestamp rate → cache (c.insert rate)
  rate_of_lookup : ∀ {c}, cache c → ∀ {symbol timestamp rate}, asked symbol →
    c.lookup symbol timestamp = some rate → rate_of symbol timestamp rate
  rate_of_crypto : ∀ {exchanges asset timestamp response}, asset.class' = .Cryptocurrency →
    answers (.get_cryptocurrency_usdt_rate exchanges asset timestamp) (.ok response) →
      rate_of asset.symbol timestamp response.queried_exchange_rate
  rate_of_stablecoin : ∀ {exchanges symbols timestamp results},
    answers (.get_stablecoin_rates exchanges symbols timestamp) results →
      ∀ symbol response, (.ok response, symbol) ∈ results.zip symbols →
        rate_of symbol timestamp response.queried_exchange_rate

variable {α β : Type} {t : Terms L} {key : GuardKey} {P : α → Prop} {s s' : State L}
  {held : List Guard}

/-- What a segment leaves as it has found it. The cache may have changed, as long as it keeps to
the terms. The forex store may not: no request writes to it. -/
structure Terms.Keeps (t : Terms L) (a b : State L) : Prop where
  cache : t.cache a.cache → t.cache b.cache
  forex_store : b.forex_store = a.forex_store

theorem Terms.Keeps.refl (s : State L) : t.Keeps s s := ⟨fun hs => hs, rfl⟩

theorem Terms.Keeps.trans {a b c : State L} (hab : t.Keeps a b) (hbc : t.Keeps b c) :
    t.Keeps a c :=
  ⟨fun ha => hbc.cache (hab.cache ha), hbc.forex_store.trans hab.forex_store⟩

/-- The contract of a request with the guards of `key`, whose results satisfy `P`. A trap is
allowed everywhere, as it answers nobody and leaves no state behind. -/
def Terms.Served (t : Terms L) (key : GuardKey) (P : α → Prop) :
    Contract (State L) Guard Call Answer (Except ExchangeRateError α) where
  onDone a _ b result := t.Keeps a b ∧ ∀ value, result = .ok value → P value
  onAwait a _ b _ call := t.Keeps a b ∧ key.Asks call
  onTrap := True
  answers := t.answers

/-! ## The rules

One rule for each way a handler is put together, as for every contract. What is new is in the
rule of `fetch_rate`: the answer is one the terms allow, so the rate is one they speak of, and
the cache it is inserted in keeps its property. -/

/-- The contract does not read the guards. -/
theorem Terms.Served.of_held {handler : Handler L (Except ExchangeRateError α)}
    (h : Holds (t.Served key P) s held handler) (held' : List Guard) :
    Holds (t.Served key P) s held' handler := by
  cases handler with
  | done s' result => exact h
  | trap => trivial
  | await s' held'' call resume => exact h

theorem Terms.served_done {result : Except ExchangeRateError α}
    (hresult : ∀ value, result = .ok value → P value) :
    Holds (t.Served key P) s held (.done s result : Handler L (Except ExchangeRateError α)) :=
  ⟨Terms.Keeps.refl s, hresult⟩

theorem Terms.served_error (error : ExchangeRateError) :
    Holds (t.Served key P) s held
      (.done s (.error error) : Handler L (Except ExchangeRateError α)) := by
  apply t.served_done
  intro value hvalue
  cases hvalue

/-- What happens before the first segment is part of it. -/
theorem Terms.Served.start {handler : Handler L (Except ExchangeRateError α)}
    (hkeeps : t.Keeps s s') (h : Holds (t.Served key P) s' held handler) :
    Holds (t.Served key P) s held handler := by
  refine Holds.start ?_ ?_ h
  · intro b result hdone
    exact ⟨hkeeps.trans hdone.1, hdone.2⟩
  · intro b held' call hawait
    exact ⟨hkeeps.trans hawait.1, hawait.2⟩

theorem Terms.Served.with_cache {handler : Handler L (Except ExchangeRateError α)}
    {cache : ExchangeRateCache L} (hcache : t.cache cache)
    (h : Holds (t.Served key P) { s with cache := cache } held handler) :
    Holds (t.Served key P) s held handler := by
  refine Terms.Served.start ?_ h
  exact ⟨fun _ => hcache, rfl⟩

/-- A guard, which touches neither of the two when it is dropped. -/
theorem Terms.Served.guarded {handler : Handler L (Except ExchangeRateError α)}
    (h : Holds (t.Served key P) s held handler) (g : Guard) {drop : State L → State L}
    (hdrop : ∀ s, t.Keeps s (drop s)) (held' : List Guard) :
    Holds (t.Served key P) s held' (handler.guarded g drop) := by
  have hguarded : Holds (t.Served key P) s (g :: held) (handler.guarded g drop) := by
    refine Holds.guarded (t.Served key P) (t.Served key P) ?_ ?_ (fun h => h) (fun _ _ h => h)
      handler s held h
    · intro a _ b result hdone
      exact ⟨hdone.1.trans (hdrop b), hdone.2⟩
    · intro a _ b _ call hawait
      exact hawait
  exact Terms.Served.of_held hguarded held'

/-- Post-processing of the result. -/
theorem Terms.Served.map {Q : β → Prop} {handler : Handler L (Except ExchangeRateError α)}
    {f : Except ExchangeRateError α → Except ExchangeRateError β}
    (hf : ∀ result value, (∀ a, result = .ok a → P a) → f result = .ok value → Q value)
    (h : Holds (t.Served key P) s held handler) :
    Holds (t.Served key Q) s held (handler.map f) := by
  refine Holds.map (t.Served key P) (t.Served key Q) ?_ ?_ (fun h => h) (fun _ _ h => h)
    handler s held h
  · intro a _ b result hdone
    exact ⟨hdone.1, fun value hvalue => hf result value hdone.2 hvalue⟩
  · intro a _ b _ call hawait
    exact hawait

/-- The charge: it goes on, ends in an error, or panics. -/
theorem Terms.served_charge_cycles
    {rest : State L → Handler L (Except ExchangeRateError α)}
    (hrest : ∀ s', s'.cache = s.cache → Holds (t.Served key P) s' held (rest s'))
    (env : Environment) (num_rates_needed : ℕ) (is_valid_request : Bool) :
    Holds (t.Served key P) s held (charge_cycles env num_rates_needed is_valid_request s rest) := by
  unfold charge_cycles
  split
  · exact hrest s rfl
  · dsimp only
    split
    · refine Terms.Served.start ?_ (hrest _ rfl)
      exact ⟨fun hs => hs, rfl⟩
    · exact t.served_error _
    · trivial

/-- **The rule of `fetch_rate`**: the rate at hand or the fetched one is a rate of the
asset, and with it what follows is served. -/
theorem Terms.served_fetch_rate {exchanges : List Exchange} {asset : Asset}
    {not_found : ExchangeRateError} {maybe_rate : Option QueriedExchangeRate}
    {rest : QueriedExchangeRate → List Exchange → State L →
      Handler L (Except ExchangeRateError α)}
    (hclass : asset.class' = .Cryptocurrency) (hasked : t.asked asset.symbol)
    (hsymbol : asset.symbol ∈ key.symbols)
    (hcached : ∀ rate, maybe_rate = some rate → t.rate_of asset.symbol key.timestamp rate)
    (hrest : ∀ rate failed_exchanges s, t.rate_of asset.symbol key.timestamp rate →
      Holds (t.Served key P) s held (rest rate failed_exchanges s))
    (hheld : held = []) (s : State L) :
    Holds (t.Served key P) s held
      (fetch_rate exchanges asset key.timestamp not_found maybe_rate rest s) := by
  subst hheld
  cases maybe_rate with
  | some rate => exact hrest rate [] s (hcached rate rfl)
  | none =>
      refine ⟨⟨Terms.Keeps.refl s, hsymbol, rfl⟩, ?_⟩
      intro answer s' hanswer
      cases answer with
      | error error => exact t.served_error _
      | ok response =>
          -- what was fetched is cached before the rest runs
          have hrate := t.rate_of_crypto hclass hanswer
          refine Terms.Served.start ?_ (hrest _ _ _ hrate)
          exact ⟨fun hs => t.cache_insert hs hasked hrate, rfl⟩

/-! ## Crypto pairs

Two fetches, one after the other, under the two guards. Each of the two rates is known to be a
rate of its asset when the composition starts. -/

variable [Features]

theorem Terms.served_fetch_cryptocurrency_pair {request : GetExchangeRateRequest}
    {timestamp num_rates_needed : ℕ} {maybe_base_rate maybe_quote_rate : Option QueriedExchangeRate}
    (hbase : request.base_asset.class' = .Cryptocurrency)
    (hquote : request.quote_asset.class' = .Cryptocurrency)
    (hbase_asked : t.asked request.base_asset.symbol)
    (hquote_asked : t.asked request.quote_asset.symbol)
    (hbase_cached : ∀ rate, maybe_base_rate = some rate →
      t.rate_of request.base_asset.symbol timestamp rate)
    (hquote_cached : ∀ rate, maybe_quote_rate = some rate →
      t.rate_of request.quote_asset.symbol timestamp rate) (s : State L) :
    Holds (t.Served ⟨[request.base_asset.symbol, request.quote_asset.symbol], timestamp,
        num_rates_needed⟩ fun operands : CryptoCryptoOperands =>
          t.rate_of request.base_asset.symbol timestamp operands.base_rate
            ∧ t.rate_of request.quote_asset.symbol timestamp operands.quote_rate) s []
      (fetch_cryptocurrency_pair request timestamp maybe_base_rate maybe_quote_rate s) := by
  unfold fetch_cryptocurrency_pair
  refine t.served_fetch_rate hbase hbase_asked List.mem_cons_self hbase_cached ?_ rfl s
  -- the quote rate is fetched with the base rate in hand
  intro base_rate failed_exchanges s hbase_rate
  refine t.served_fetch_rate hquote hquote_asked (List.mem_cons_of_mem _ List.mem_cons_self)
    hquote_cached ?_ rfl s
  intro quote_rate _ s hquote_rate
  apply t.served_done
  intro operands hoperands
  rw [← Except.ok.inj hoperands]
  exact ⟨hbase_rate, hquote_rate⟩

/-- Both guards around a fetching phase. -/
theorem Terms.served_guards {future : State L → Handler L (Except ExchangeRateError α)}
    (h : ∀ s, Holds (t.Served key P) s [] (future s)) (symbols : List String)
    (timestamp num_rates_needed : ℕ) (s : State L) :
    Holds (t.Served key P) s []
      (with_inflight_tracking symbols timestamp (with_request_counter num_rates_needed future)
        s) := by
  have htaken : t.Keeps s ((s.add_inflight symbols timestamp).reserve
      (http_requests_needed num_rates_needed)) := ⟨fun hs => hs, rfl⟩
  have hrelease : ∀ s : State L, t.Keeps s (s.release (http_requests_needed num_rates_needed)) :=
    fun _ => ⟨fun hs => hs, rfl⟩
  have hremove : ∀ s : State L, t.Keeps s (s.remove_inflight symbols timestamp) :=
    fun _ => ⟨fun hs => hs, rfl⟩
  exact Terms.Served.guarded
    (Terms.Served.guarded (Terms.Served.start htaken (h _)) _ hrelease []) _ hremove []

/-- A usable rate is a rate of its symbol. -/
theorem Terms.rate_of_usable {cache : ExchangeRateCache L} (hcache : t.cache cache)
    {caller : Principal} {symbol : String} {timestamp : ℕ} {rate : QueriedExchangeRate}
    (hasked : t.asked symbol) (h : usable_rate cache caller symbol timestamp = some rate) :
    t.rate_of symbol timestamp rate :=
  t.rate_of_lookup hcache hasked (Option.filter_eq_some_iff.mp h).1

/-- **A crypto pair** is composed of a rate of each of its assets. A rate that is at hand comes
from the cache, which keeps the terms, and one that is fetched from an answer, which is allowed;
the calls are for the two assets of the key. -/
theorem Terms.served_gather_cryptocurrency_pair {request : GetExchangeRateRequest}
    (hbase : request.base_asset.class' = .Cryptocurrency)
    (hquote : request.quote_asset.class' = .Cryptocurrency)
    (hbase_asked : t.asked request.base_asset.symbol)
    (hquote_asked : t.asked request.quote_asset.symbol) (env : Environment) (s : State L)
    (hcache : t.cache s.cache) (num_rates_needed : ℕ) :
    Holds (t.Served ⟨[request.base_asset.symbol, request.quote_asset.symbol],
        (get_normalized_timestamp env request s).value, num_rates_needed⟩
        fun operands : CryptoCryptoOperands =>
          t.rate_of request.base_asset.symbol (get_normalized_timestamp env request s).value
              operands.base_rate
            ∧ t.rate_of request.quote_asset.symbol (get_normalized_timestamp env request s).value
              operands.quote_rate) s []
      (gather_cryptocurrency_pair env request s) := by
  obtain ⟨hbase_read, hquote_read⟩ := read_cryptocurrency_pair_eq env request
    (get_normalized_timestamp env request s).value s.cache
  have hbase_cached : ∀ rate, (read_cryptocurrency_pair env request
      (get_normalized_timestamp env request s).value s.cache).1 = some rate →
        t.rate_of request.base_asset.symbol (get_normalized_timestamp env request s).value rate := by
    intro rate hrate
    rw [hbase_read] at hrate
    exact t.rate_of_usable hcache hbase_asked hrate
  have hquote_cached : ∀ rate, (read_cryptocurrency_pair env request
      (get_normalized_timestamp env request s).value s.cache).2.1 = some rate →
        t.rate_of request.quote_asset.symbol (get_normalized_timestamp env request s).value
          rate := by
    intro rate hrate
    rw [hquote_read] at hrate
    exact t.rate_of_usable hcache hquote_asked hrate
  have hread := kept_by_read_cryptocurrency_pair (fun _ h => t.cache_get h) hcache env request
    (get_normalized_timestamp env request s).value
  unfold gather_cryptocurrency_pair
  dsimp only
  refine Terms.Served.with_cache hread (t.served_charge_cycles ?_ env _ _)
  intro s' _
  unfold proceed_cryptocurrency_pair
  split
  · exact t.served_error _
  · split
    · -- both rates are cached
      rename_i base_rate quote_rate hbase_some hquote_some
      apply t.served_done
      intro operands hoperands
      rw [← Except.ok.inj hoperands]
      exact ⟨hbase_cached _ hbase_some, hquote_cached _ hquote_some⟩
    · refine t.served_guards (fun s => ?_) _ _ _ s'
      exact t.served_fetch_cryptocurrency_pair hbase hquote hbase_asked hquote_asked hbase_cached
        hquote_cached s

/-! ## Crypto/fiat pairs

The loop over the stablecoins inserts several rates at once, and leaves out those that failed.
The forex rate is taken from the store before anything is fetched. -/

/-- The operands of a crypto/fiat pair: a rate of the cryptocurrency, rates of stablecoins
and the forex rate. -/
structure Terms.OperandsOf (t : Terms L) (env : Environment) (request : GetExchangeRateRequest)
    (timestamp : ℕ) (forex_store : ForexRateStore) (operands : CryptoFiatOperands) : Prop where
  base : t.rate_of request.base_asset.symbol timestamp operands.crypto_base_rate
  stablecoins : ∀ rate ∈ operands.stablecoin_rates, ∃ symbol ∈ STABLECOIN_BASES,
    t.rate_of symbol timestamp rate
  forex : (forex_store.get timestamp env.time_secs request.quote_asset.symbol USD).mapError
    GetForexRateError.into = .ok operands.forex_rate

omit [Features] in
/-- The loop over the answers for the stablecoins. -/
theorem Terms.collected_stablecoins {timestamp : ℕ} {symbols : List String}
    (results : List (QueryResult × String))
    (hasked : ∀ symbol ∈ symbols, t.asked symbol)
    (hresults : ∀ symbol response, (.ok response, symbol) ∈ results → symbol ∈ symbols
      ∧ t.rate_of symbol timestamp response.queried_exchange_rate) :
    ∀ acc : StablecoinsFetched L,
      (∀ rate ∈ acc.stablecoin_rates, ∃ symbol ∈ symbols, t.rate_of symbol timestamp rate) →
        (∀ rate ∈ (results.foldl collect_stablecoin acc).stablecoin_rates,
            ∃ symbol ∈ symbols, t.rate_of symbol timestamp rate)
          ∧ (t.cache acc.cache → t.cache (results.foldl collect_stablecoin acc).cache) := by
  induction results with
  | nil =>
      intro acc hacc
      exact ⟨hacc, fun hs => hs⟩
  | cons result results ih =>
      intro acc hacc
      have htail : ∀ symbol response, (.ok response, symbol) ∈ results → symbol ∈ symbols
          ∧ t.rate_of symbol timestamp response.queried_exchange_rate :=
        fun symbol response hmem => hresults symbol response (List.mem_cons_of_mem _ hmem)
      obtain ⟨answer, symbol⟩ := result
      rw [List.foldl_cons]
      -- an error leaves the rates and the cache as they were
      cases answer with
      | error error => exact ih htail acc hacc
      | ok response =>
          obtain ⟨hsymbol, hrate⟩ := hresults symbol response List.mem_cons_self
          obtain ⟨hrates, hcache⟩ := ih htail (collect_stablecoin acc (.ok response, symbol)) (by
            intro rate hmem
            rcases List.mem_append.mp hmem with hold | hnew
            · exact hacc rate hold
            · rw [List.mem_singleton.mp hnew]
              exact ⟨symbol, hsymbol, hrate⟩)
          exact ⟨hrates, fun hs => hcache (t.cache_insert hs (hasked symbol hsymbol) hrate)⟩

theorem Terms.served_fetch_crypto_fiat_pair {env : Environment} {request : GetExchangeRateRequest}
    {timestamp num_rates_needed : ℕ} {forex_store : ForexRateStore}
    {maybe_crypto_base_rate : Option QueriedExchangeRate}
    {stablecoin_rates : List QueriedExchangeRate} {missed_stablecoin_symbols : List String}
    {forex_rate : QueriedExchangeRate}
    (hbase : request.base_asset.class' = .Cryptocurrency)
    (hbase_asked : t.asked request.base_asset.symbol)
    (hbase_cached : ∀ rate, maybe_crypto_base_rate = some rate →
      t.rate_of request.base_asset.symbol timestamp rate)
    (hstablecoins : ∀ rate ∈ stablecoin_rates, ∃ symbol ∈ STABLECOIN_BASES,
      t.rate_of symbol timestamp rate)
    (hmissed : ∀ symbol ∈ missed_stablecoin_symbols, symbol ∈ STABLECOIN_BASES)
    (hforex : (forex_store.get timestamp env.time_secs request.quote_asset.symbol USD).mapError
      GetForexRateError.into = .ok forex_rate) (s : State L) :
    Holds (t.Served ⟨[request.base_asset.symbol], timestamp, num_rates_needed⟩
        (t.OperandsOf env request timestamp forex_store)) s []
      (fetch_crypto_fiat_pair request timestamp maybe_crypto_base_rate stablecoin_rates
        missed_stablecoin_symbols forex_rate s) := by
  refine ⟨⟨Terms.Keeps.refl s, hmissed, rfl⟩, ?_⟩
  intro results s' hanswers
  -- every answer is for one of the symbols that were missed
  have hresults : ∀ symbol response,
      (.ok response, symbol) ∈ List.zip results missed_stablecoin_symbols →
        symbol ∈ STABLECOIN_BASES
          ∧ t.rate_of symbol timestamp response.queried_exchange_rate := by
    intro symbol response hmem
    exact ⟨hmissed symbol (List.of_mem_zip hmem).2,
      t.rate_of_stablecoin hanswers symbol response hmem⟩
  obtain ⟨hrates, hcache⟩ := t.collected_stablecoins _ t.asked_stablecoin hresults
    ⟨stablecoin_rates, [], s'.cache⟩ hstablecoins
  refine Terms.Served.start ?_ (t.served_fetch_rate hbase hbase_asked List.mem_cons_self
    hbase_cached ?_ rfl _)
  · exact ⟨hcache, rfl⟩
  -- the cryptocurrency is fetched last, if it is not at hand
  intro crypto_base_rate _ s hbase_rate
  apply t.served_done
  intro operands hoperands
  rw [← Except.ok.inj hoperands]
  exact ⟨hbase_rate, hrates, hforex⟩

/-- **A crypto/fiat pair** is composed of a rate of its cryptocurrency, of stablecoins and
of the forex rate at its timestamp. -/
theorem Terms.served_gather_crypto_base_fiat_quote_pair {request : GetExchangeRateRequest}
    (hbase : request.base_asset.class' = .Cryptocurrency)
    (hbase_asked : t.asked request.base_asset.symbol) (env : Environment) (s : State L)
    (hcache : t.cache s.cache) (num_rates_needed : ℕ) :
    Holds (t.Served ⟨[request.base_asset.symbol], (get_normalized_timestamp env request s).value,
        num_rates_needed⟩ (t.OperandsOf env request (get_normalized_timestamp env request s).value
          s.forex_store)) s [] (gather_crypto_base_fiat_quote_pair env request s) := by
  obtain ⟨hbase_read, hstablecoins_read, hmissed_read⟩ := read_crypto_fiat_pair_eq env request
    (get_normalized_timestamp env request s).value s.cache
  have hbase_cached : ∀ rate, (read_crypto_fiat_pair env request
      (get_normalized_timestamp env request s).value s.cache).1 = some rate →
        t.rate_of request.base_asset.symbol (get_normalized_timestamp env request s).value rate := by
    intro rate hrate
    rw [hbase_read] at hrate
    exact t.rate_of_usable hcache hbase_asked hrate
  have hstablecoins : ∀ rate ∈ (read_crypto_fiat_pair env request
      (get_normalized_timestamp env request s).value s.cache).2.stablecoin_rates,
        ∃ symbol ∈ STABLECOIN_BASES,
          t.rate_of symbol (get_normalized_timestamp env request s).value rate := by
    intro rate hrate
    rw [hstablecoins_read] at hrate
    obtain ⟨symbol, hsymbol, hlookup⟩ := List.mem_filterMap.mp hrate
    exact ⟨symbol, hsymbol, t.rate_of_lookup hcache (t.asked_stablecoin symbol hsymbol) hlookup⟩
  have hmissed : ∀ symbol ∈ (read_crypto_fiat_pair env request
      (get_normalized_timestamp env request s).value s.cache).2.missed_stablecoin_symbols,
        symbol ∈ STABLECOIN_BASES := by
    intro symbol hmem
    rw [hmissed_read] at hmem
    exact List.mem_of_mem_filter hmem
  have hread := kept_by_read_crypto_fiat_pair (fun _ h => t.cache_get h) hcache env request
    (get_normalized_timestamp env request s).value
  unfold gather_crypto_base_fiat_quote_pair
  dsimp only
  refine Terms.Served.with_cache hread (t.served_charge_cycles ?_ env _ _)
  intro s' _
  unfold proceed_crypto_base_fiat_quote_pair
  split
  · exact t.served_error _
  · split
    · exact t.served_error _
    · rename_i forex_rate hforex
      split
      · -- everything is cached
        rename_i crypto_base_rate hbase_some _
        apply t.served_done
        intro operands hoperands
        rw [← Except.ok.inj hoperands]
        exact ⟨hbase_cached _ hbase_some, hstablecoins, hforex⟩
      · refine t.served_guards (fun s => ?_) _ _ _ s'
        exact t.served_fetch_crypto_fiat_pair hbase hbase_asked hbase_cached hstablecoins hmissed
          hforex s

/-! ## Every request

`Composed` has one constructor for each route, with what is known of the operands. It is all
that a caller of this module needs: the handlers are not opened beyond this point. -/

/-- **What an answer is composed of**, for each of the routes. -/
inductive Terms.Composed (t : Terms L) (env : Environment) (request : GetExchangeRateRequest)
    (s : State L) (rate : QueriedExchangeRate) : Prop where
  | crypto_pair {operands : CryptoCryptoOperands}
      (hbase : request.base_asset.class' = .Cryptocurrency)
      (hquote : request.quote_asset.class' = .Cryptocurrency)
      (hbase_rate : t.rate_of request.base_asset.symbol (chosen_timestamp env request s).value
        operands.base_rate)
      (hquote_rate : t.rate_of request.quote_asset.symbol (chosen_timestamp env request s).value
        operands.quote_rate)
      (hcomposed : crypto_crypto_rate operands = .ok rate) : Composed t env request s rate
  | crypto_fiat_pair {operands : CryptoFiatOperands}
      (hpair : is_crypto_fiat_pair request = true)
      (hoperands : t.OperandsOf env (routed_request request)
        (chosen_timestamp env request s).value s.forex_store operands)
      (hcomposed : presented request (crypto_fiat_rate operands) = .ok rate) :
      Composed t env request s rate
  | fiat_pair (hbase : request.base_asset.class' = .FiatCurrency)
      (hquote : request.quote_asset.class' = .FiatCurrency)
      (hcomposed : fiat_rate env request (chosen_timestamp env request s).value s = .ok rate) :
      Composed t env request s rate

omit [Features] [Unicode] [LruCache L CacheKey QueriedExchangeRate] in
/-- The presentation of a pair of both classes keeps errors. -/
theorem presented_error (request : GetExchangeRateRequest) (error : ExchangeRateError)
    (rate : QueriedExchangeRate) : presented request (.error error) ≠ .ok rate := by
  unfold presented
  intro h
  split at h
  · cases h
  · cases h

omit [Features] [Unicode] [LruCache L CacheKey QueriedExchangeRate] in
/-- A pair of both classes is handled with its cryptocurrency as the base. -/
theorem base_of_routed_request {request : GetExchangeRateRequest}
    (hpair : is_crypto_fiat_pair request = true) :
    (routed_request request).base_asset.class' = .Cryptocurrency := by
  unfold routed_request
  rcases classes_of_crypto_fiat_pair hpair with ⟨hbase, hquote⟩ | ⟨hbase, hquote⟩
  · rw [hbase, hquote]
    exact hbase
  · rw [hbase, hquote]
    exact hquote

/-- The guards of a pair of both classes. -/
theorem guard_key_of_crypto_fiat_pair {request : GetExchangeRateRequest}
    (hpair : is_crypto_fiat_pair request = true) (env : Environment) (s : State L) :
    guard_key env request s = ⟨[(routed_request request).base_asset.symbol],
        (get_normalized_timestamp env (routed_request request) s).value,
        rates_needed env request s⟩
      ∧ chosen_timestamp env request s
        = get_normalized_timestamp env (routed_request request) s := by
  unfold guard_key fetched_symbols chosen_timestamp
  rcases classes_of_crypto_fiat_pair hpair with ⟨hbase, hquote⟩ | ⟨hbase, hquote⟩
  · rw [hbase, hquote]
    exact ⟨rfl, rfl⟩
  · rw [hbase, hquote]
    exact ⟨rfl, rfl⟩

/-- The guards of a crypto pair. -/
theorem guard_key_of_crypto_pair {request : GetExchangeRateRequest}
    (hbase : request.base_asset.class' = .Cryptocurrency)
    (hquote : request.quote_asset.class' = .Cryptocurrency) (env : Environment) (s : State L) :
    guard_key env request s = ⟨[request.base_asset.symbol, request.quote_asset.symbol],
      (get_normalized_timestamp env request s).value, rates_needed env request s⟩ := by
  unfold guard_key fetched_symbols
  rw [hbase, hquote, (route_request_crypto_crypto hbase hquote env s).2]

omit [Features] [Unicode] [LruCache L CacheKey QueriedExchangeRate] in
theorem asked_of_routed_request {asked : String → Prop} {request : GetExchangeRateRequest}
    (hbase : asked request.base_asset.symbol) (hquote : asked request.quote_asset.symbol) :
    asked (routed_request request).base_asset.symbol := by
  unfold routed_request
  split
  · exact hquote
  · exact hbase

/-- **Every request keeps its terms**, whatever its asset classes. For a fiat/crypto pair the
terms are those of the routed request, with its assets exchanged, and the caller sees them through
the presentation of the result. -/
theorem Terms.served_route_request (t : Terms L) (env : Environment)
    (request : GetExchangeRateRequest) (hbase_asked : t.asked request.base_asset.symbol)
    (hquote_asked : t.asked request.quote_asset.symbol) (s : State L)
    (hcache : t.cache s.cache) :
    Holds (t.Served (guard_key env request s) (t.Composed env request s)) s []
      (route_request env request s) := by
  cases pairKind request with
  | crypto_fiat_pair hpair =>
      obtain ⟨hkey, htimestamp⟩ := guard_key_of_crypto_fiat_pair hpair env s
      rw [route_request_crypto_fiat hpair, hkey]
      refine Terms.Served.map (P := fun rate => ∃ operands,
        t.OperandsOf env (routed_request request) (chosen_timestamp env request s).value
          s.forex_store operands ∧ crypto_fiat_rate operands = .ok rate) ?_ (Terms.Served.map ?_
            (t.served_gather_crypto_base_fiat_quote_pair (base_of_routed_request hpair)
              (asked_of_routed_request hbase_asked hquote_asked) env s hcache _))
      · intro result rate hresult hrate
        cases result with
        -- the presentation makes no rate of an error
        | error error => exact absurd hrate (presented_error request error rate)
        | ok composed =>
            obtain ⟨operands, hoperands, hcomposed⟩ := hresult composed rfl
            rw [← hcomposed] at hrate
            exact .crypto_fiat_pair hpair hoperands hrate
      · intro result rate hresult hrate
        obtain ⟨operands, hgathered, hcomposed⟩ := bind_eq_ok_iff.mp hrate
        rw [htimestamp]
        exact ⟨operands, hresult operands hgathered, hcomposed⟩
  | crypto_pair hbase hquote =>
      obtain ⟨hroute, htimestamp⟩ := route_request_crypto_crypto hbase hquote env s
      rw [hroute, guard_key_of_crypto_pair hbase hquote env s]
      refine Terms.Served.map ?_ (t.served_gather_cryptocurrency_pair hbase hquote
        hbase_asked hquote_asked env s hcache _)
      intro result rate hresult hrate
      obtain ⟨operands, hgathered, hcomposed⟩ := bind_eq_ok_iff.mp hrate
      obtain ⟨hbase_rate, hquote_rate⟩ := hresult operands hgathered
      rw [← htimestamp] at hbase_rate hquote_rate
      exact .crypto_pair hbase hquote hbase_rate hquote_rate hcomposed
  | fiat_pair hbase hquote =>
      unfold route_request
      rw [hbase, hquote]
      unfold handle_fiat_pair
      dsimp only
      split
      · exact t.served_error _
      · refine t.served_charge_cycles (fun s' _ => ?_) env _ _
        apply t.served_done
        intro rate hrate
        refine .fiat_pair hbase hquote ?_
        unfold chosen_timestamp
        rw [hbase, hquote]
        exact hrate

/-- Every message to the canister keeps its terms. -/
theorem Terms.served_get_exchange_rate_internal (t : Terms L) (env : Environment)
    (request : GetExchangeRateRequest) (s : State L) (hcache : t.cache s.cache) :
    Holds (t.Served (guard_key env (sanitize_request request) s)
        fun rate : ExchangeRate => ∃ composed,
          t.Composed env (sanitize_request request) s composed ∧ rate = composed.into) s []
      (get_exchange_rate_internal env request s) := by
  unfold get_exchange_rate_internal
  refine Terms.Served.map (P := t.Composed env (sanitize_request request) s) ?_ ?_
  · intro result rate hresult hrate
    obtain ⟨composed, hcomposed, hinto⟩ := map_eq_ok_iff.mp hrate
    exact ⟨composed, hresult composed hcomposed, hinto.symm⟩
  · rcases answer_request_cases env request s with ⟨error, -, hanswer⟩ | ⟨-, -, hanswer⟩
    · rw [hanswer]
      exact t.served_error error
    · rw [hanswer]
      exact t.served_route_request env (sanitize_request request) (t.asked_sanitized _)
        (t.asked_sanitized _) s hcache

/-! ## Runs of the canister

The terms of a request become an invariant of the canister: what the cache holds has the
property, and every suspended request is still served. An event is allowed if its answers and
its forex rates are. -/

/-- A suspended request asks for what it has registered, and goes on with its terms. The first
part lets a caller conclude from what is registered what is being fetched, the second is the
contract of its remaining segments. -/
structure Terms.Serves (t : Terms L) (task : Task L) : Prop where
  asks : task.key.Asks task.call
  resumes : ∀ answer s, t.answers task.call answer →
    Holds (t.Served task.key fun _ => True) s task.held (task.resume answer s)

/-- The canister keeps the terms. What is suspended is part of it, since an answer depends on what
its request had gathered before. -/
structure Terms.Kept (t : Terms L) (c : Canister L) : Prop where
  cache : t.cache c.state.cache
  forex_store : t.forex_store c.state.forex_store
  tasks : ∀ task ∈ c.tasks, t.Serves task

/-- The answers and the forex rates of an event are those the terms allow. A call from outside
brings in nothing but the request, and is always allowed. -/
def Terms.Allows (t : Terms L) : Event → Prop
  | .resume _ _ answers => ∀ call, t.answers call (answers call)
  | .timer forex_store _ => t.forex_store forex_store
  | _ => True

omit [Features] in
/-- A request suspended by a segment that is served. -/
theorem Terms.serves_of_await {s₀ : State L} {held₀ : List Guard} {call : Call}
    {P : ExchangeRate → Prop}
    {resume : Answer call → State L → Handler L (Except ExchangeRateError ExchangeRate)}
    (h : Holds (t.Served key P) s₀ held₀ (.await s held call resume)) (outstanding : ℕ) :
    t.Serves ⟨key, held, call, resume, outstanding⟩ where
  asks := h.1.2
  resumes := by
    intro answer s' hanswer
    have hresumed := Terms.Served.map (Q := fun _ => True) (f := id)
      (fun _ _ _ _ => trivial) (h.2 answer s' hanswer)
    rw [map_id] at hresumed
    exact hresumed

omit [Features] in
/-- A segment of a request, and the requests that are suspended. -/
theorem Terms.Kept.with_state {c : Canister L} (hc : t.Kept c) (hkeeps : t.Keeps c.state s) :
    t.Kept ⟨s, c.tasks⟩ := by
  refine ⟨hkeeps.cache hc.cache, ?_, hc.tasks⟩
  rw [hkeeps.forex_store]
  exact hc.forex_store

theorem Terms.Kept.arrive {c : Canister L} (hc : t.Kept c) (env : Environment)
    (request : GetExchangeRateRequest) : t.Kept (arrive c env request) := by
  have hserved := t.served_get_exchange_rate_internal env request c.state hc.cache
  unfold Xrc.arrive
  cases hrun : get_exchange_rate_internal env request c.state with
  | trap => exact hc
  | done s result =>
      rw [hrun] at hserved
      exact hc.with_state hserved.1
  | await s held call resume =>
      rw [hrun] at hserved
      dsimp only
      split
      · have hstate := hc.with_state hserved.1.1
        refine ⟨hstate.cache, hstate.forex_store, ?_⟩
        -- the requests that were suspended, and the one that is now
        intro task htask
        rcases List.mem_append.mp htask with htask | htask
        · exact hc.tasks task htask
        · rw [List.mem_singleton.mp htask]
          exact t.serves_of_await hserved _
      · exact hc

omit [Features] in
theorem Terms.Kept.resume_task {c : Canister L} (hc : t.Kept c) (i now_secs : ℕ)
    {answers : (call : Call) → Answer call} (hanswers : ∀ call, t.answers call (answers call)) :
    t.Kept (resume_task c i now_secs answers) := by
  unfold Xrc.resume_task
  cases htask : c.tasks[i]? with
  | none => exact hc
  | some task =>
      have hserved := (hc.tasks task (List.mem_of_getElem? htask)).resumes (answers task.call)
        c.state (hanswers task.call)
      dsimp only
      split
      · exact hc
      · cases hrun : task.resume (answers task.call) c.state with
        -- rolled back: the state is the one before, and one request fewer has to be answered
        | trap =>
            exact ⟨hc.cache, hc.forex_store,
              fun task' htask' => hc.tasks task' (List.mem_of_mem_eraseIdx htask')⟩
        | done s result =>
            rw [hrun] at hserved
            have hstate := hc.with_state hserved.1
            exact ⟨hstate.cache, hstate.forex_store,
              fun task' htask' => hc.tasks task' (List.mem_of_mem_eraseIdx htask')⟩
        | await s held call resume =>
            rw [hrun] at hserved
            have hstate := hc.with_state hserved.1.1
            refine ⟨hstate.cache, hstate.forex_store, ?_⟩
            intro task' htask'
            -- the others are as they were, and this one goes on with its terms
            rcases List.mem_or_eq_of_mem_set htask' with htask' | rfl
            · exact hc.tasks task' htask'
            · exact t.serves_of_await hserved _

/-- **Every step keeps the terms.** An event brings in a cache, a store or answers, and these are
allowed by assumption; what a suspended request will do with them has been settled when it was
suspended. -/
theorem Terms.Kept.step {c : Canister L} (hc : t.Kept c) {event : Event}
    (hevent : t.Allows event) : t.Kept (step c event) := by
  cases event with
  | call env request => exact hc.arrive env request
  | resume i now_secs answers => exact hc.resume_task i now_secs hevent
  | timer forex_store listing_store => exact ⟨hc.cache, hevent, hc.tasks⟩
  | outcall_returned i =>
      refine ⟨hc.cache, hc.forex_store, ?_⟩
      intro task htask
      obtain ⟨j, hj⟩ := List.mem_iff_getElem?.mp htask
      rw [Xrc.step, List.getElem?_modify, Option.map_eq_map, Option.map_eq_some_iff] at hj
      -- only the count of the outcalls has changed
      obtain ⟨before, hbefore, rfl⟩ := hj
      have hserves := hc.tasks before (List.mem_of_getElem? hbefore)
      split
      · exact ⟨hserves.asks, hserves.resumes⟩
      · exact hserves

/-- **Every run keeps the terms** it starts with. An instance has to provide the initial state and
the events, and gets the answers of every run in return. -/
theorem Terms.kept_run {s : State L} (hcache : t.cache s.cache)
    (hforex_store : t.forex_store s.forex_store) (events : List Event)
    (hevents : ∀ event ∈ events, t.Allows event) : t.Kept (run (Canister.idle s) events) := by
  induction events using List.reverseRecOn with
  | nil =>
      refine ⟨hcache, hforex_store, ?_⟩
      intro task htask
      cases htask
  | append_singleton events event ih =>
      rw [run_concat]
      refine (ih ?_).step ?_
      · intro event' hmem
        exact hevents event' (List.mem_append_left _ hmem)
      · exact hevents event (List.mem_append_right _ (List.mem_singleton_self _))

end Terms

end Xrc
