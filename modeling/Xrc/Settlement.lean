/-
What a request settles to. With the rates of every symbol fixed at one timestamp, whether
they are cached or still have to be fetched, a run of an ordinary caller's request that is
not turned away gathers the same rates, but for the order of the stablecoins: those that
were cached come before those that were fetched.
-/
import Xrc.ApiSpec

set_option autoImplicit false

namespace Xrc

open Async QueriedExchangeRate CallExchangesImpl

/-! ## Fixed rates

One rate for each symbol at one timestamp, and the exchanges answer with it whenever they are
asked. A cache that holds some of these rates then decides which of them are asked for, and
nothing else; of the two stablecoins it also decides which one comes first. -/

/-- What the exchanges return for every symbol at one timestamp. Fixing them is what makes two
runs comparable: the exchanges return the same for a symbol whenever they are asked, by whichever
request. -/
structure Quotes (timestamp : ℕ) where
  query : String → QueryResult
  fresh : ∀ symbol response, query symbol = .ok response →
    FreshRate response.queried_exchange_rate symbol timestamp

namespace Quotes

variable {timestamp : ℕ} (quotes : Quotes timestamp)

/-- The rate of a symbol, if the exchanges have one. -/
def rate (symbol : String) : Option QueriedExchangeRate :=
  (quotes.query symbol).toOption.map QueriedExchangeRateWithFailedExchanges.queried_exchange_rate

/-- The answer to a call. -/
def answer : (call : Call) → Answer call
  | .get_cryptocurrency_usdt_rate _ asset _ => quotes.query asset.symbol
  | .get_stablecoin_rates _ symbols _ => symbols.map quotes.query

/-- The exchanges answer accordingly, whatever else happens. The state may change arbitrarily with
each answer, as other requests and timers act in between. -/
def AnsweredIn {L : Type} (w : World (State L) Call Answer) : Prop :=
  ∀ n call s, (w.respond n call s).1 = quotes.answer call

section Cached

variable [Unicode] {L : Type} [LruCache L CacheKey QueriedExchangeRate]

/-- The rate of a symbol wherever it comes from: the one of USDT is never asked for. -/
def known (symbol : String) : Option QueriedExchangeRate :=
  if to_uppercase symbol = USDT then some (usdt_unit timestamp) else quotes.rate symbol

/-- Some of the rates are in the cache, with exactly these values. A cached rate then makes no
difference to what is answered, only to who is asked. -/
def Cached (symbols : List String) (cache : ExchangeRateCache L) : Prop :=
  ∀ symbol ∈ symbols, cache.lookup symbol timestamp = none
    ∨ cache.lookup symbol timestamp = quotes.known symbol

omit [LruCache L CacheKey QueriedExchangeRate] in
theorem fresh_known {symbol : String} (h : to_uppercase symbol ≠ USDT)
    {rate : QueriedExchangeRate} (hknown : quotes.known symbol = some rate) :
    FreshRate rate symbol timestamp := by
  rw [known, if_neg h, Quotes.rate, Option.map_eq_some_iff] at hknown
  obtain ⟨response, hquery, rfl⟩ := hknown
  apply quotes.fresh symbol response
  cases hresult : quotes.query symbol with
  | error error =>
      rw [hresult] at hquery
      cases hquery
  | ok response' =>
      rw [hresult] at hquery
      cases hquery
      rfl

/-- What is not in the cache has to be asked for. -/
theorem known_of_missed {cache : ExchangeRateCache L} {symbol : String}
    (h : cache.lookup symbol timestamp = none) : quotes.known symbol = quotes.rate symbol := by
  -- the cache never misses USDT
  rw [known, if_neg]
  intro husdt
  rw [ExchangeRateCache.lookup, if_pos husdt] at h
  cases h

/-- A rate is known from the cache or from the exchanges. -/
theorem lookup_or_rate {symbols : List String} {cache : ExchangeRateCache L}
    (hcached : quotes.Cached symbols cache) {symbol : String} (hmem : symbol ∈ symbols) :
    (cache.lookup symbol timestamp).or (quotes.rate symbol) = quotes.known symbol := by
  rcases hcached symbol hmem with hmissed | hhit
  · rw [hmissed, Option.none_or, quotes.known_of_missed hmissed]
  · cases hlookup : cache.lookup symbol timestamp with
    | none => rw [Option.none_or, quotes.known_of_missed hlookup]
    | some rate => rw [Option.some_or, ← hhit, hlookup]

/-- The stablecoins in the order in which they come together: those in the cache first. -/
def stablecoin_order (timestamp : ℕ) (cache : ExchangeRateCache L) : List String :=
  (STABLECOIN_BASES.filter fun symbol => (cache.lookup symbol timestamp).isSome)
    ++ STABLECOIN_BASES.filter fun symbol => (cache.lookup symbol timestamp).isNone

/-- USDS is in the cache and USDC is not. -/
def UsdsFirst (timestamp : ℕ) (cache : ExchangeRateCache L) : Prop :=
  cache.lookup USDC timestamp = none ∧ cache.lookup USDS timestamp ≠ none

/-- There are two orders. -/
theorem stablecoin_order_eq (cache : ExchangeRateCache L) [Decidable (UsdsFirst timestamp cache)] :
    stablecoin_order timestamp cache
      = if UsdsFirst timestamp cache then [USDS, USDC] else [USDC, USDS] := by
  unfold stablecoin_order
  cases husdc : cache.lookup USDC timestamp <;> cases husds : cache.lookup USDS timestamp <;>
    simp [UsdsFirst, STABLECOIN_BASES, husdc, husds]

/-- What the loop over the answers collects. -/
theorem collected_stablecoins (symbols : List String) (acc : StablecoinsFetched L) :
    (((symbols.map quotes.query).zip symbols).foldl collect_stablecoin acc).stablecoin_rates
      = acc.stablecoin_rates ++ symbols.filterMap quotes.rate := by
  induction symbols generalizing acc with
  | nil => rw [List.map_nil, List.zip_nil_left, List.foldl_nil, List.filterMap_nil, List.append_nil]
  | cons symbol symbols ih =>
      rw [List.map_cons, List.zip_cons_cons, List.foldl_cons, ih]
      cases hquery : quotes.query symbol with
      | error error =>
          have hrate : quotes.rate symbol = none := by rw [Quotes.rate, hquery]; rfl
          rw [List.filterMap_cons, hrate]
          rfl
      | ok response =>
          have hrate : quotes.rate symbol = some response.queried_exchange_rate := by
            rw [Quotes.rate, hquery]
            rfl
          rw [List.filterMap_cons, hrate]
          exact List.append_assoc _ _ _

/-- **The stablecoins a run ends up with**: the known ones, those in the cache first. The cached
ones stand in front whatever was asked for, and what is fetched is appended in the order of the
symbols that were missed. So the order of the known ones depends on the cache, and their values do
not. -/
theorem gathered_stablecoins {symbols : List String} (hbases : ∀ s ∈ STABLECOIN_BASES, s ∈ symbols)
    {cache : ExchangeRateCache L} (hcached : quotes.Cached symbols cache) :
    STABLECOIN_BASES.filterMap (cache.lookup · timestamp)
        ++ (STABLECOIN_BASES.filter fun symbol =>
          (cache.lookup symbol timestamp).isNone).filterMap quotes.rate
      = (stablecoin_order timestamp cache).filterMap quotes.known := by
  rw [stablecoin_order, List.filterMap_append]
  congr 1
  · -- the cached ones have the values of the exchanges
    rw [List.filterMap_filter]
    apply List.filterMap_congr
    intro symbol hsymbol
    rcases hcached symbol (hbases symbol hsymbol) with hmissed | hhit
    · rw [hmissed]
      rfl
    · cases hlookup : cache.lookup symbol timestamp with
      | none => rfl
      | some rate =>
          rw [← hhit, hlookup]
          rfl
  · -- and the missed ones are fetched
    apply List.filterMap_congr
    intro symbol hsymbol
    have hmissed := (List.mem_filter.mp hsymbol).2
    exact (quotes.known_of_missed (Option.isNone_iff_eq_none.mp hmissed)).symm

end Cached

end Quotes

/-! ## Inverting a run

From a run that ended in a result, back through the guards, the charge and each fetch. At each
of them the request goes on or ends there with an error, and of the first it is said with what. -/

section Runs

variable {L α : Type}

/-- A run under the two guards is a run of what they guard, with the same calls and answers. What
they register is seen by other requests, and not by the one that they guard. -/
theorem run_of_guards [Features] {symbols : List String} {timestamp num_rates_needed : ℕ}
    {future : State L → Handler L α} {s s' : State L} {w : World (State L) Call Answer} {n : ℕ}
    {result : α}
    (h : (with_inflight_tracking symbols timestamp (with_request_counter num_rates_needed future)
      s).run w n = some (s', result)) :
    ∃ s₁ s₂, (future s₁).run w n = some (s₂, result)
      ∧ (with_inflight_tracking symbols timestamp (with_request_counter num_rates_needed future)
        s).calls w n = (future s₁).calls w n
      ∧ (with_inflight_tracking symbols timestamp (with_request_counter num_rates_needed future)
        s).answered w n = (future s₁).answered w n := by
  rw [with_inflight_tracking, run_guarded, with_request_counter, run_guarded, Option.map_map,
    Option.map_eq_some_iff] at h
  obtain ⟨⟨s₂, result'⟩, hrun, heq⟩ := h
  cases (Prod.mk.inj heq).2
  refine ⟨_, s₂, hrun, ?_, ?_⟩
  · rw [with_inflight_tracking, calls_guarded, with_request_counter, calls_guarded]
  · rw [with_inflight_tracking, answered_guarded, with_request_counter, answered_guarded]

/-- A run of a handler whose caller has enough cycles goes on after the charge. What is charged is
recorded in the state, on which the rest does not depend. -/
theorem run_of_charge {env : Environment} (henough : env.has_enough_cycles = true)
    {num_rates_needed : ℕ} {is_valid_request : Bool} {s s' : State L}
    {rest : State L → Handler L (Except ExchangeRateError α)} {w : World (State L) Call Answer}
    {n : ℕ} {result : Except ExchangeRateError α}
    (h : (charge_cycles env num_rates_needed is_valid_request s rest).run w n
      = some (s', result)) :
    ∃ s₁, (rest s₁).run w n = some (s', result) := by
  unfold charge_cycles at h
  split at h
  · exact ⟨s, h⟩
  · dsimp only at h
    split at h
    · exact ⟨_, h⟩
    · -- excluded by the check of the attached cycles before the routes
      rename_i hpoor
      exact absurd hpoor (env.charge_cycles_ne_NotEnoughCycles _ henough)
    · cases h

section Cached

variable [Unicode] [LruCache L CacheKey QueriedExchangeRate]

/-- A rate is known, or the request ends here. It is known from the cache or from the exchanges,
and in the latter case it is cached for later. -/
theorem run_of_fetch_rate {timestamp : ℕ} {quotes : Quotes timestamp}
    {w : World (State L) Call Answer} (hw : quotes.AnsweredIn w) {exchanges : List Exchange}
    {asset : Asset} {not_found : ExchangeRateError} {maybe_rate : Option QueriedExchangeRate}
    (hknown : maybe_rate.or (quotes.rate asset.symbol) = quotes.known asset.symbol)
    {rest : QueriedExchangeRate → List Exchange → State L →
      Handler L (Except ExchangeRateError α)} {s s' : State L} {n : ℕ}
    {result : Except ExchangeRateError α}
    (h : (fetch_rate exchanges asset timestamp not_found maybe_rate rest s).run w n
      = some (s', result)) :
    (quotes.known asset.symbol = none ∧ result = .error not_found)
      ∨ ∃ rate failed_exchanges s₁ n₁, quotes.known asset.symbol = some rate
        ∧ (rest rate failed_exchanges s₁).run w n₁ = some (s', result) := by
  cases maybe_rate with
  | some rate => exact Or.inr ⟨rate, [], s, n, hknown.symm, h⟩
  | none =>
      -- not in the cache: the exchanges answer the call with what is known
      rw [Option.none_or] at hknown
      rw [fetch_rate, run_await, hw, ← hknown, Quotes.rate] at *
      cases hquery : quotes.query asset.symbol with
      | error error =>
          simp only [Quotes.answer, hquery] at h
          exact Or.inl ⟨rfl, (Prod.mk.inj (Option.some.inj h)).2.symm⟩
      | ok response =>
          simp only [Quotes.answer, hquery] at h
          exact Or.inr ⟨_, _, _, _, rfl, h⟩

end Cached

end Runs

/-! ## What a request settles to

The `settled_*` functions are the handlers without a cache and without suspension: the checks of
the request, then its rates as far as they are known. A run that is not turned away returns
their value. They depend on the state through its forex store alone. -/

/-- A request that is turned away: rate limited, or in flight. Whether this happens depends on the
counter and the set, which the quotes say nothing about. -/
def TurnedAway {α : Type} (result : Except ExchangeRateError α) : Prop :=
  result = .error .RateLimited ∨ result = .error .Pending

/-- The checks of `validate_request` that depend on the request alone. -/
def checked_request (env : Environment) (request : GetExchangeRateRequest) (timestamp : ℕ) :
    Except ValidateRequestError Unit :=
  if env.time_secs < timestamp then .error (.FutureTimestamp timestamp env.time_secs)
  else if request.base_asset.symbol.isEmpty then .error .BaseAssetInvalidSymbol
  else if request.quote_asset.symbol.isEmpty then .error .QuoteAssetInvalidSymbol
  else .ok ()

/-- For an ordinary caller who names a timestamp, the other checks only turn the request
away. -/
theorem validate_request_cases [Features] {L : Type} {env : Environment}
    (hordinary : is_caller_privileged env.caller = false) (request : GetExchangeRateRequest)
    (num_rates_needed : ℕ) (timestamp : NormalizedTimestamp)
    (htype : timestamp.type = .RequestedOrCurrent) (s : State L) :
    validate_request env request num_rates_needed timestamp s
        = checked_request env request timestamp.value
      ∨ validate_request env request num_rates_needed timestamp s = .error .RateLimited
      ∨ validate_request env request num_rates_needed timestamp s = .error .AlreadyInflight := by
  -- only a timestamp the canister has chosen itself can be `Past`
  have hpast : ¬ (timestamp.type = .Past ∧ 0 < num_rates_needed) := by
    rw [htype]
    nofun
  unfold validate_request checked_request
  simp only [hordinary, Bool.false_eq_true, if_false, if_neg hpast]
  split
  · exact Or.inl rfl
  · split
    · exact Or.inl rfl
    · split
      · exact Or.inl rfl
      · split
        · exact Or.inr (Or.inl rfl)
        · split
          · exact Or.inr (Or.inr rfl)
          · exact Or.inl rfl

/-- A result that is not a turning away does not depend on the state of the canister. The errors
that do are left out by assumption; what remains is checked on the request and its environment. -/
theorem settled_of_not_turnedAway [Features] {L α : Type} {env : Environment}
    (hordinary : is_caller_privileged env.caller = false) {request : GetExchangeRateRequest}
    {num_rates_needed : ℕ} {timestamp : NormalizedTimestamp}
    (htype : timestamp.type = .RequestedOrCurrent) {s : State L}
    {result : Except ExchangeRateError α} (hresult : ¬ TurnedAway result)
    {f : Unit → Except ExchangeRateError α}
    (h : result = ((validate_request env request num_rates_needed timestamp s).mapError
      ValidateRequestError.into).bind f) :
    result = ((checked_request env request timestamp.value).mapError
      ValidateRequestError.into).bind f := by
  rcases validate_request_cases hordinary request num_rates_needed timestamp htype s
    with hvalid | hvalid | hvalid
  · rw [hvalid] at h
    exact h
  · rw [hvalid] at h
    exact absurd (Or.inl h) hresult
  · rw [hvalid] at h
    exact absurd (Or.inr h) hresult

section Settled

variable [Features] [Unicode] {L : Type} [LruCache L CacheKey QueriedExchangeRate]
  {timestamp : ℕ} (quotes : Quotes timestamp) (request : GetExchangeRateRequest)

/-- The rates of a crypto pair, as far as they are known. -/
def known_pair : Except ExchangeRateError CryptoCryptoOperands :=
  match quotes.known request.base_asset.symbol with
  | none => .error .CryptoBaseAssetNotFound
  | some base_rate =>
    match quotes.known request.quote_asset.symbol with
    | none => .error .CryptoQuoteAssetNotFound
    | some quote_rate => .ok ⟨base_rate, quote_rate⟩

/-- The rates of a crypto/fiat pair, as far as they are known. -/
def known_crypto_fiat (order : List String) (forex_rate : QueriedExchangeRate) :
    Except ExchangeRateError CryptoFiatOperands :=
  match quotes.known request.base_asset.symbol with
  | none => .error .CryptoBaseAssetNotFound
  | some crypto_base_rate => .ok ⟨crypto_base_rate, order.filterMap quotes.known, forex_rate⟩

/-- What a crypto pair settles to. -/
def settled_pair (env : Environment) : Except ExchangeRateError CryptoCryptoOperands :=
  ((checked_request env request timestamp).mapError ValidateRequestError.into).bind fun _ =>
    known_pair quotes request

/-- What a crypto/fiat pair settles to, with the stablecoins in a given order. -/
def settled_crypto_fiat (env : Environment) (s : State L) (order : List String) :
    Except ExchangeRateError CryptoFiatOperands :=
  ((checked_request env request timestamp).mapError ValidateRequestError.into).bind fun _ =>
    (lookup_fiat env request timestamp s).bind (known_crypto_fiat quotes request order)

variable {quotes request} in
omit [LruCache L CacheKey QueriedExchangeRate] in
/-- **When a crypto/fiat pair settles to rates**, and to which. Four parts have to be there, and
each is looked up by itself: the order in which the handler does so matters for the error alone.
-/
theorem settled_crypto_fiat_ok_iff {env : Environment} {s : State L} {order : List String}
    {operands : CryptoFiatOperands} :
    settled_crypto_fiat quotes request env s order = .ok operands
      ↔ checked_request env request timestamp = .ok ()
        ∧ lookup_fiat env request timestamp s = .ok operands.forex_rate
        ∧ quotes.known request.base_asset.symbol = some operands.crypto_base_rate
        ∧ operands.stablecoin_rates = order.filterMap quotes.known := by
  unfold settled_crypto_fiat
  rw [bind_eq_ok_iff]
  constructor
  · rintro ⟨_, hchecked, hrest⟩
    -- the checks come first, then the forex rate, then the cryptocurrency
    obtain ⟨forex_rate, hforex, hknown⟩ := bind_eq_ok_iff.mp hrest
    unfold known_crypto_fiat at hknown
    cases hbase : quotes.known request.base_asset.symbol with
    | none =>
        rw [hbase] at hknown
        cases hknown
    | some crypto_base_rate =>
        rw [hbase] at hknown
        rw [← Except.ok.inj hknown]
        exact ⟨mapError_eq_ok_iff.mp hchecked, hforex, rfl, rfl⟩
  · rintro ⟨hchecked, hforex, hbase, hstablecoins⟩
    refine ⟨(), mapError_eq_ok_iff.mpr hchecked, bind_eq_ok_iff.mpr ⟨_, hforex, ?_⟩⟩
    unfold known_crypto_fiat
    rw [hbase, ← hstablecoins]

end Settled

section Settles

variable [Features] [Unicode] {L : Type} [LruCache L CacheKey QueriedExchangeRate]
  {timestamp : ℕ} {quotes : Quotes timestamp} {env : Environment}
  {request : GetExchangeRateRequest} {s s' : State L} {w : World (State L) Call Answer} {n : ℕ}
  {symbols : List String}

/-- What a crypto pair does once it is charged. -/
theorem run_of_proceed_cryptocurrency_pair (hw : quotes.AnsweredIn w)
    {validate_request_result : Except ValidateRequestError Unit}
    {maybe_base_rate maybe_quote_rate : Option QueriedExchangeRate}
    (hbase : maybe_base_rate.or (quotes.rate request.base_asset.symbol)
      = quotes.known request.base_asset.symbol)
    (hquote : maybe_quote_rate.or (quotes.rate request.quote_asset.symbol)
      = quotes.known request.quote_asset.symbol)
    {result : Except ExchangeRateError CryptoCryptoOperands}
    (hrun : (proceed_cryptocurrency_pair request timestamp validate_request_result maybe_base_rate
      maybe_quote_rate s).run w n = some (s', result)) :
    result = (validate_request_result.mapError ValidateRequestError.into).bind fun _ =>
      known_pair quotes request := by
  unfold proceed_cryptocurrency_pair at hrun
  cases validate_request_result with
  | error error => exact (Prod.mk.inj (Option.some.inj hrun)).2.symm
  | ok u =>
      show result = known_pair quotes request
      dsimp only at hrun
      split at hrun
      · -- both rates are cached
        rw [known_pair, ← hbase, ← hquote, Option.some_or, Option.some_or]
        exact (Prod.mk.inj (Option.some.inj hrun)).2.symm
      · -- the base rate first, then the quote rate
        obtain ⟨s₁, s₂, hfetch, -⟩ := run_of_guards hrun
        unfold fetch_cryptocurrency_pair at hfetch
        rw [known_pair]
        rcases run_of_fetch_rate hw hbase hfetch with ⟨hnone, hresult⟩
          | ⟨base_rate, failed_exchanges, s₃, n₃, hsome, hfetch⟩
        · rw [hnone]
          exact hresult
        · rw [hsome]
          rcases run_of_fetch_rate hw hquote hfetch with ⟨hnone, hresult⟩
            | ⟨quote_rate, -, s₄, n₄, hsome, hdone⟩
          · rw [hnone]
            exact hresult
          · rw [hsome]
            exact (Prod.mk.inj (Option.some.inj hdone)).2.symm

/-- What a crypto/fiat pair does once it is charged. -/
theorem run_of_proceed_crypto_base_fiat_quote_pair (hw : quotes.AnsweredIn w)
    {validate_request_result : Except ValidateRequestError Unit} {forex_rate_result : RateResult}
    {maybe_crypto_base_rate : Option QueriedExchangeRate}
    {stablecoin_rates : List QueriedExchangeRate} {missed_stablecoin_symbols order : List String}
    (hbase : maybe_crypto_base_rate.or (quotes.rate request.base_asset.symbol)
      = quotes.known request.base_asset.symbol)
    (hstablecoins : stablecoin_rates ++ missed_stablecoin_symbols.filterMap quotes.rate
      = order.filterMap quotes.known)
    {result : Except ExchangeRateError CryptoFiatOperands}
    (hrun : (proceed_crypto_base_fiat_quote_pair request timestamp validate_request_result
      forex_rate_result maybe_crypto_base_rate stablecoin_rates missed_stablecoin_symbols s).run
        w n = some (s', result)) :
    result = (validate_request_result.mapError ValidateRequestError.into).bind fun _ =>
      forex_rate_result.bind (known_crypto_fiat quotes request order) := by
  unfold proceed_crypto_base_fiat_quote_pair at hrun
  cases validate_request_result with
  | error error => exact (Prod.mk.inj (Option.some.inj hrun)).2.symm
  | ok u =>
      cases forex_rate_result with
      | error error => exact (Prod.mk.inj (Option.some.inj hrun)).2.symm
      | ok forex_rate =>
          show result = known_crypto_fiat quotes request order forex_rate
          dsimp only at hrun
          split at hrun
          · -- all rates are cached
            rw [List.filterMap_nil, List.append_nil] at hstablecoins
            rw [known_crypto_fiat, ← hbase, Option.some_or, ← hstablecoins]
            exact (Prod.mk.inj (Option.some.inj hrun)).2.symm
          · -- the stablecoins first, all at once, then the crypto rate
            obtain ⟨s₁, s₂, hfetch, -⟩ := run_of_guards hrun
            unfold fetch_crypto_fiat_pair at hfetch
            dsimp only at hfetch
            rw [run_await, hw] at hfetch
            rw [known_crypto_fiat, ← hstablecoins]
            rcases run_of_fetch_rate hw hbase hfetch with ⟨hnone, hresult⟩
              | ⟨crypto_base_rate, -, s₃, n₃, hsome, hdone⟩
            · rw [hnone]
              exact hresult
            · rw [hsome]
              have hresult := (Prod.mk.inj (Option.some.inj hdone)).2.symm
              rw [hresult, Quotes.answer, quotes.collected_stablecoins]

/-- **The run of a crypto pair**, whatever is cached. An ordinary caller takes a cached rate as it
is, so that it makes no difference to the result whether a rate was cached or is fetched with the
same value. -/
theorem settles_cryptocurrency_pair (hordinary : is_caller_privileged env.caller = false)
    (henough : env.has_enough_cycles = true)
    (htimestamp : get_normalized_timestamp env request s = .requested_or_current timestamp)
    (hbase : request.base_asset.symbol ∈ symbols) (hquote : request.quote_asset.symbol ∈ symbols)
    (hcached : quotes.Cached symbols s.cache) (hw : quotes.AnsweredIn w)
    {result : Except ExchangeRateError CryptoCryptoOperands} (hresult : ¬ TurnedAway result)
    (hrun : (gather_cryptocurrency_pair env request s).run w n = some (s', result)) :
    result = settled_pair quotes request env := by
  unfold gather_cryptocurrency_pair at hrun
  rw [htimestamp] at hrun
  obtain ⟨s₁, hrun⟩ := run_of_charge henough hrun
  -- an ordinary caller reads whatever is cached, so cache or exchange makes no difference
  obtain ⟨hbase_read, hquote_read⟩ := read_cryptocurrency_pair_eq env request timestamp s.cache
  rw [usable_rate_of_not_privileged _ hordinary] at hbase_read hquote_read
  have hbase_known := quotes.lookup_or_rate hcached hbase
  have hquote_known := quotes.lookup_or_rate hcached hquote
  rw [← hbase_read] at hbase_known
  rw [← hquote_read] at hquote_known
  exact settled_of_not_turnedAway hordinary rfl hresult
    (run_of_proceed_cryptocurrency_pair hw hbase_known hquote_known hrun)

/-- **The run of a crypto/fiat pair**: only the order of the stablecoins depends on what
is cached. -/
theorem settles_crypto_fiat_pair (hordinary : is_caller_privileged env.caller = false)
    (henough : env.has_enough_cycles = true)
    (htimestamp : get_normalized_timestamp env request s = .requested_or_current timestamp)
    (hbase : request.base_asset.symbol ∈ symbols) (hbases : ∀ b ∈ STABLECOIN_BASES, b ∈ symbols)
    (hcached : quotes.Cached symbols s.cache) (hw : quotes.AnsweredIn w)
    {result : Except ExchangeRateError CryptoFiatOperands} (hresult : ¬ TurnedAway result)
    (hrun : (gather_crypto_base_fiat_quote_pair env request s).run w n = some (s', result)) :
    result = settled_crypto_fiat quotes request env s
      (Quotes.stablecoin_order timestamp s.cache) := by
  unfold gather_crypto_base_fiat_quote_pair at hrun
  rw [htimestamp] at hrun
  obtain ⟨s₁, hrun⟩ := run_of_charge henough hrun
  obtain ⟨hbase_read, hrates, hmissed⟩ := read_crypto_fiat_pair_eq env request timestamp s.cache
  rw [usable_rate_of_not_privileged _ hordinary] at hbase_read
  -- cached or fetched, the rates have the values the exchanges give
  have hbase_known := quotes.lookup_or_rate hcached hbase
  have hstablecoins := quotes.gathered_stablecoins hbases hcached
  rw [← hbase_read] at hbase_known
  rw [← hrates, ← hmissed] at hstablecoins
  exact settled_of_not_turnedAway hordinary rfl hresult
    (run_of_proceed_crypto_base_fiat_quote_pair hw hbase_known hstablecoins hrun)

end Settles

end Xrc
