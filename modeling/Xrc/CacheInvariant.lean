/-
What the cache holds. Rates reach it from three places, and neither these nor `insert` check
all of what a later request relies on; the constructor of a rate does the rest, for whatever
the exchanges have answered.

`CacheEntry` is the invariant of one entry, `genuine` the terms of requests whose calls are
answered by the exchanges. The runs of the canister keep them, so that a request served from
the cache alone starts from rates that are there and not zero.
-/
import Xrc.Terms

set_option autoImplicit false

namespace Xrc

open Async CallExchangesImpl QueriedExchangeRate

/-! ## Entries

Two properties of a rate for a symbol and a minute. Every rate that a handler is given has the
weaker one; `insert` refuses just those rates that lack the rest, so that what is in the cache
has the stronger one. -/

section Entries

variable [Unicode]

/-- What is cached for a symbol and a timestamp. The class and the quote asset are fixed because
only rates of cryptocurrencies against USDT are cached, and there are rates because an entry
without any would be read as a hit that has nothing to offer. -/
structure CacheEntry (key : CacheKey) (rate : QueriedExchangeRate) : Prop where
  class_eq : rate.base_asset.class' = .Cryptocurrency
  symbol_eq : to_uppercase rate.base_asset.symbol = key.1
  symbol_ne : key.1 ≠ USDT
  quote_eq : rate.quote_asset = usdt_asset
  timestamp_eq : rate.timestamp = key.2
  decimals_eq : rate.decimals = none
  forex_timestamp_eq : rate.forex_timestamp = none
  rates_ne_nil : rate.rates ≠ []
  sorted : rate.rates.Pairwise (· ≤ ·)
  inRange : InRange rate.rates

/-- A rate of a cryptocurrency at a timestamp, which may have lost all its rates to the
outlier filter. -/
structure RateOf (symbol : String) (timestamp : ℕ) (rate : QueriedExchangeRate) : Prop where
  class_eq : rate.base_asset.class' = .Cryptocurrency
  symbol_eq : to_uppercase rate.base_asset.symbol = to_uppercase symbol
  quote_eq : rate.quote_asset = usdt_asset
  timestamp_eq : rate.timestamp = timestamp
  decimals_eq : rate.decimals = none
  forex_timestamp_eq : rate.forex_timestamp = none
  sorted : rate.rates.Pairwise (· ≤ ·)
  inRange : InRange rate.rates

/-- Whatever rates it is built from. -/
theorem rateOf_new {asset : Asset} (hclass : asset.class' = .Cryptocurrency) (timestamp : ℕ)
    (rates : List ℕ) (queried received : ℕ) :
    RateOf asset.symbol timestamp
      (QueriedExchangeRate.new asset usdt_asset timestamp rates queried received none) where
  class_eq := hclass
  symbol_eq := rfl
  quote_eq := rfl
  timestamp_eq := rfl
  decimals_eq := rfl
  forex_timestamp_eq := rfl
  sorted := new_rates_pairwise _ _ _ _ _ _ _
  inRange := new_rates_inRange _ _ _ _ _ _ _

/-- **An insertion that takes place** adds an entry under its key. The conditions of `insert` are
what is missing of the invariant: that there are rates, and that the symbol is not that of USDT.
The rest holds of any rate built by `new` for a cryptocurrency. -/
theorem RateOf.cacheEntry {symbol : String} {timestamp : ℕ} {rate : QueriedExchangeRate}
    (h : RateOf symbol timestamp rate) (hcaches : ExchangeRateCache.caches rate = true) :
    CacheEntry (to_uppercase rate.base_asset.symbol, rate.timestamp) rate := by
  simp only [ExchangeRateCache.caches, Bool.and_eq_true, Bool.not_eq_true', decide_eq_true_eq]
    at hcaches
  obtain ⟨⟨⟨hne, hsymbol⟩, -⟩, -⟩ := hcaches
  refine ⟨h.class_eq, rfl, hsymbol, h.quote_eq, rfl, h.decimals_eq, h.forex_timestamp_eq, ?_,
    h.sorted, h.inRange⟩
  intro hnil
  rw [hnil] at hne
  cases hne

theorem CacheEntry.rateOf {symbol : String} {timestamp : ℕ} {rate : QueriedExchangeRate}
    (h : CacheEntry (to_uppercase symbol, timestamp) rate) : RateOf symbol timestamp rate :=
  ⟨h.class_eq, h.symbol_eq, h.quote_eq, h.timestamp_eq, h.decimals_eq, h.forex_timestamp_eq,
    h.sorted, h.inRange⟩

/-! ## Answers

What the implementation of `CallExchanges` can return, whatever the exchanges answer: each rate
is built by the constructor, from some rates, for the symbol and the minute of the call. -/

/-- An answer to a call that `CallExchangesImpl` can give, whatever the exchanges answer. The
prices are arbitrary. What is excluded are answers that the conversion from prices to rates never
gives, such as a success without any rate. -/
def GenuineAnswer (call : Call) (answer : Answer call) : Prop :=
  ∃ listing_store now_secs answers, answer = implement listing_store now_secs answers call

/-- A successful query for a cryptocurrency builds its rate with the constructor. Whatever is
known of all rates that `new` builds is known of the answers in this way. -/
theorem new_of_crypto_answer {exchanges : List Exchange} {asset : Asset} {timestamp : ℕ}
    {response : QueriedExchangeRateWithFailedExchanges}
    (h : GenuineAnswer (.get_cryptocurrency_usdt_rate exchanges asset timestamp) (.ok response)) :
    ∃ rates queried received, response.queried_exchange_rate
      = QueriedExchangeRate.new asset usdt_asset timestamp rates queried received none := by
  obtain ⟨listing_store, now_secs, answers, hanswer⟩ := h
  have hquery : get_cryptocurrency_usdt_rate listing_store now_secs answers exchanges asset
      timestamp = .ok response := hanswer.symm
  unfold get_cryptocurrency_usdt_rate at hquery
  dsimp only at hquery
  split at hquery
  · cases hquery
  · split at hquery
    · cases hquery
    · rw [← Except.ok.inj hquery]
      exact ⟨_, _, _, rfl⟩

theorem rateOf_crypto {exchanges : List Exchange} {asset : Asset}
    (hclass : asset.class' = .Cryptocurrency) {timestamp : ℕ}
    {response : QueriedExchangeRateWithFailedExchanges}
    (h : GenuineAnswer (.get_cryptocurrency_usdt_rate exchanges asset timestamp) (.ok response)) :
    RateOf asset.symbol timestamp response.queried_exchange_rate := by
  obtain ⟨rates, queried, received, hrate⟩ := new_of_crypto_answer h
  rw [hrate]
  exact rateOf_new hclass timestamp rates queried received

/-- So does one for a stablecoin, although nothing makes sure that any of its rates is left. -/
theorem new_of_stablecoin_answer {exchanges : List Exchange} {symbols : List String}
    {timestamp : ℕ} {results : List QueryResult}
    (h : GenuineAnswer (.get_stablecoin_rates exchanges symbols timestamp) results)
    {symbol : String} {response : QueriedExchangeRateWithFailedExchanges}
    (hmem : (.ok response, symbol) ∈ results.zip symbols) :
    ∃ rates queried received, response.queried_exchange_rate
      = QueriedExchangeRate.new ⟨symbol, .Cryptocurrency⟩ usdt_asset timestamp rates queried
        received none := by
  obtain ⟨listing_store, now_secs, answers, rfl⟩ := h
  -- each result stands next to the symbol that was asked for
  have hzip : (symbols.map (get_stablecoin_rate answers exchanges timestamp)).zip
      (symbols.map id) = _ := List.zip_map'
  rw [List.map_id] at hzip
  rw [implement, hzip] at hmem
  obtain ⟨asked, -, heq⟩ := List.mem_map.mp hmem
  obtain ⟨hquery, rfl⟩ := Prod.mk.inj heq
  unfold get_stablecoin_rate at hquery
  dsimp only at hquery
  split at hquery
  · cases hquery
  · rw [← Except.ok.inj hquery]
    exact ⟨_, _, _, rfl⟩

/-- The calls of the canister are answered by `CallExchangesImpl`. -/
def Event.Genuine : Event → Prop
  | .resume _ _ answers => ∀ call, GenuineAnswer call (answers call)
  | _ => True

end Entries

/-! ## The cache

The invariant is kept by reading, which moves entries, and by inserting, which may evict any of
them. With it a handler's three writers are covered at once: they all insert what an answer has
given. -/

section Cache

variable [Unicode] {L : Type} [LruCache L CacheKey QueriedExchangeRate]

/-- Whatever the cache holds is an entry. Nothing is said about recency, and so eviction keeps it
for free. -/
def CacheInvariant (cache : ExchangeRateCache L) : Prop :=
  ∀ key rate, LruCache.peek cache.lru_cache key = some rate → CacheEntry key rate

theorem cacheInvariant_new (capacity : ℕ) :
    CacheInvariant (ExchangeRateCache.new capacity : ExchangeRateCache L) := by
  intro key rate h
  rw [ExchangeRateCache.new, LruCache.peek_new] at h
  cases h

/-- Reading moves entries and changes none. -/
theorem peek_get_cache (cache : ExchangeRateCache L) (symbol : String) (timestamp : ℕ)
    (key : CacheKey) : LruCache.peek (cache.get symbol timestamp).2.lru_cache key
      = LruCache.peek cache.lru_cache key := by
  unfold ExchangeRateCache.get
  by_cases husdt : to_uppercase symbol = USDT
  · rw [if_pos husdt]
  · rw [if_neg husdt, LruCache.peek_get]

/-- **What `insert` leaves behind**: its own entry, and some of those before it. Which of the
others are evicted is up to the cache. An invariant on the entries, one by one, is therefore kept
by `insert` as soon as the new entry meets it. -/
theorem peek_insert_cases {cache : ExchangeRateCache L} {rate found : QueriedExchangeRate}
    {key : CacheKey} (h : LruCache.peek (cache.insert rate).lru_cache key = some found) :
    (ExchangeRateCache.caches rate = true ∧ found = rate
        ∧ key = (to_uppercase rate.base_asset.symbol, rate.timestamp))
      ∨ LruCache.peek cache.lru_cache key = some found := by
  unfold ExchangeRateCache.insert at h
  by_cases hcaches : ExchangeRateCache.caches rate = true
  · rw [if_pos hcaches] at h
    by_cases hkey : key = (to_uppercase rate.base_asset.symbol, rate.timestamp)
    · rw [hkey, LruCache.peek_put_self] at h
      exact Or.inl ⟨hcaches, (Option.some.inj h).symm, hkey⟩
    · -- another key: it is still there, or it has been evicted
      right
      rcases LruCache.peek_put_other cache.lru_cache _ rate key hkey with hsame | hnone
      · rw [hsame] at h
        exact h
      · rw [hnone] at h
        cases h
  · rw [if_neg hcaches] at h
    exact Or.inr h

theorem CacheInvariant.get {cache : ExchangeRateCache L} (h : CacheInvariant cache)
    (symbol : String) (timestamp : ℕ) : CacheInvariant (cache.get symbol timestamp).2 := by
  intro key rate hpeek
  rw [peek_get_cache] at hpeek
  exact h key rate hpeek

theorem CacheInvariant.insert {cache : ExchangeRateCache L} (h : CacheInvariant cache)
    {symbol : String} {timestamp : ℕ} {rate : QueriedExchangeRate}
    (hrate : RateOf symbol timestamp rate) : CacheInvariant (cache.insert rate) := by
  intro key found hpeek
  rcases peek_insert_cases hpeek with ⟨hcaches, rfl, rfl⟩ | hbefore
  · exact hrate.cacheEntry hcaches
  · exact h key found hbefore

omit [LruCache L CacheKey QueriedExchangeRate] in
theorem rateOf_usdt_unit {symbol : String} (husdt : to_uppercase symbol = USDT) (timestamp : ℕ) :
    RateOf symbol timestamp (usdt_unit timestamp) := by
  refine ⟨rfl, ?_, rfl, rfl, rfl, rfl, ?_, ?_⟩
  · rw [husdt]
    exact to_uppercase_USDT
  · rw [usdt_unit_rates]
    exact List.pairwise_singleton _ _
  · rw [usdt_unit_rates]
    decide

/-- What is read for a symbol is a rate of it, and not empty. -/
theorem CacheInvariant.lookup {cache : ExchangeRateCache L} (h : CacheInvariant cache)
    {symbol : String} {timestamp : ℕ} {rate : QueriedExchangeRate}
    (hlookup : cache.lookup symbol timestamp = some rate) :
    RateOf symbol timestamp rate ∧ rate.rates ≠ [] := by
  unfold ExchangeRateCache.lookup at hlookup
  by_cases husdt : to_uppercase symbol = USDT
  · rw [if_pos husdt] at hlookup
    rw [← Option.some.inj hlookup]
    refine ⟨rateOf_usdt_unit husdt timestamp, ?_⟩
    rw [usdt_unit_rates]
    exact List.cons_ne_nil _ _
  · rw [if_neg husdt] at hlookup
    have hentry := h _ rate hlookup
    exact ⟨hentry.rateOf, hentry.rates_ne_nil⟩

/-- **The terms of genuine answers.** -/
def genuine : Terms L where
  answers := GenuineAnswer
  forex_store _ := True
  asked _ := True
  cache := CacheInvariant
  rate_of := RateOf
  asked_sanitized _ := trivial
  asked_stablecoin _ _ := trivial
  cache_get := CacheInvariant.get
  cache_insert h _ _ _ _ hrate := h.insert hrate
  rate_of_lookup h _ _ _ _ hlookup := (h.lookup hlookup).1
  rate_of_crypto hclass hanswer := rateOf_crypto hclass hanswer
  rate_of_stablecoin := by
    intro exchanges symbols timestamp results hanswer symbol response hmem
    obtain ⟨rates, queried, received, hrate⟩ := new_of_stablecoin_answer hanswer hmem
    rw [hrate]
    exact @rateOf_new _ ⟨symbol, .Cryptocurrency⟩ rfl timestamp rates queried received

/-- The terms of a request that is served from the cache alone. -/
def cache_only : Terms L where
  answers _ _ := False
  forex_store _ := True
  asked _ := True
  cache := CacheInvariant
  rate_of symbol timestamp rate := RateOf symbol timestamp rate ∧ rate.rates ≠ []
  asked_sanitized _ := trivial
  asked_stablecoin _ _ := trivial
  cache_get := CacheInvariant.get
  cache_insert h _ _ _ _ hrate := h.insert hrate.1
  rate_of_lookup h _ _ _ _ hlookup := h.lookup hlookup
  rate_of_crypto _ hanswer := hanswer.elim
  rate_of_stablecoin hanswer := hanswer.elim

/-- A rate a composition may start from: there are rates, and none of them is zero or too
large. -/
def Startable (rate : QueriedExchangeRate) : Prop := rate.rates ≠ [] ∧ InRange rate.rates

/-- The rates a request gathers from the cache alone can be started from. -/
structure ServedFromCache [Features] (env : Environment) (request : GetExchangeRateRequest)
    (s : State L) : Prop where
  crypto_pair : request.base_asset.class' = .Cryptocurrency →
    request.quote_asset.class' = .Cryptocurrency →
      ∀ s' operands, gather_cryptocurrency_pair env request s = .done s' (.ok operands) →
        Startable operands.base_rate ∧ Startable operands.quote_rate
  crypto_fiat_pair : request.base_asset.class' = .Cryptocurrency →
    ∀ s' operands, gather_crypto_base_fiat_quote_pair env request s = .done s' (.ok operands) →
      Startable operands.crypto_base_rate ∧ ∀ rate ∈ operands.stablecoin_rates, Startable rate

theorem CacheInvariant.servedFromCache [Features] {s : State L} (h : CacheInvariant s.cache)
    (env : Environment) (request : GetExchangeRateRequest) : ServedFromCache env request s where
  crypto_pair := by
    intro hbase hquote s' operands hdone
    -- under these terms no call is answered, so that all rates are from the cache
    have hserved := cache_only.served_gather_cryptocurrency_pair hbase hquote trivial trivial env s h
      0
    rw [hdone] at hserved
    obtain ⟨hbase_rate, hquote_rate⟩ := hserved.2 operands rfl
    exact ⟨⟨hbase_rate.2, hbase_rate.1.inRange⟩, ⟨hquote_rate.2, hquote_rate.1.inRange⟩⟩
  crypto_fiat_pair := by
    intro hbase s' operands hdone
    have hserved := cache_only.served_gather_crypto_base_fiat_quote_pair hbase trivial env s h 0
    rw [hdone] at hserved
    have hoperands := hserved.2 operands rfl
    refine ⟨⟨hoperands.base.2, hoperands.base.1.inRange⟩, ?_⟩
    intro rate hmem
    obtain ⟨symbol, -, hrate⟩ := hoperands.stablecoins rate hmem
    exact ⟨hrate.2, hrate.1.inRange⟩

/-- Every state the canister can reach holds the invariant. -/
theorem kept_of_genuine [Features] {events : List Event}
    (hgenuine : ∀ event ∈ events, event.Genuine) :
    (genuine : Terms L).Kept (run (Canister.idle State.new) events) := by
  apply Terms.kept_run (cacheInvariant_new _) trivial events
  intro event hmem
  have hevent := hgenuine event hmem
  cases event with
  | resume i now_secs answers => exact hevent
  | _ => trivial

/-- **The cache invariant.** However requests interleave and whatever the exchanges answer: what
is cached under a key is a rate of its symbol against USDT at its timestamp, with rates that are
there, in order and in range; so that whatever is read from the cache, and whatever a request
composes of the cache alone, can be started from.

Whatever is written to the cache has just been built from the answers to a call, and eviction only
takes entries away. The rest is carried by the terms of `Terms.lean` from one suspension point to
the next, in whatever interleaving. -/
theorem cache_invariant [Features] (events : List Event)
    (hgenuine : ∀ event ∈ events, event.Genuine) :
    let c : Canister L := run (Canister.idle State.new) events
    (∀ key rate, LruCache.peek c.state.cache.lru_cache key = some rate → CacheEntry key rate)
      ∧ (∀ symbol timestamp rate, (c.state.cache.get symbol timestamp).1 = some rate →
          Startable rate)
      ∧ ∀ env request, ServedFromCache env request c.state := by
  intro c
  -- entries of the state reached; the rest reads these
  have hcache : CacheInvariant c.state.cache := (kept_of_genuine hgenuine).cache
  refine ⟨hcache, ?_, ?_⟩
  · intro symbol timestamp rate hget
    rw [ExchangeRateCache.get_fst] at hget
    obtain ⟨hrate, hne⟩ := hcache.lookup hget
    exact ⟨hne, hrate.inRange⟩
  · intro env request
    exact hcache.servedFromCache env request

end Cache

/-- ICP against USDT, fetched from exchanges that all answer one USDT. -/
def icpFetched : List Event :=
  letI := asciiUnicode
  .call (Environment.ordinary 1_699_833_600)
      ⟨⟨"icp", .Cryptocurrency⟩, ⟨"USDT", .Cryptocurrency⟩, some 1_699_833_600⟩
    :: List.replicate 6 (.outcall_returned 0)
    ++ [.resume 0 1_699_833_600
      (implement ListingStore.default 1_699_833_600 fun _ _ => .ok RATE_UNIT)]

/-- The rate that has been cached. -/
theorem icp_cached :
    letI := defaultBuild
    letI := asciiUnicode
    CacheEntry ("ICP", 1_699_833_600)
      (QueriedExchangeRate.new ⟨"ICP", .Cryptocurrency⟩ usdt_asset 1_699_833_600
        (List.replicate 6 RATE_UNIT) 6 6 none) := by
  let _ := defaultBuild
  let _ := asciiUnicode
  have hgenuine : ∀ event ∈ icpFetched, event.Genuine := by
    intro event hmem
    simp only [icpFetched, List.cons_append, List.mem_cons, List.mem_append, List.mem_replicate,
      List.not_mem_nil, or_false] at hmem
    rcases hmem with rfl | ⟨-, rfl⟩ | rfl
    · trivial
    · trivial
    · intro call
      exact ⟨_, _, _, rfl⟩
  apply (cache_invariant (L := RecentRates) icpFetched hgenuine).1 _ _
  decide +kernel

end Xrc
