/-
What the handlers read, and what becomes of it: the reads of the cache as functions of
its contents, the charge as the only step between them and the outcalls, and the
symbols whose upper-case form the model knows.
-/
import Xrc.Tracking

set_option autoImplicit false

namespace Xrc

open Async QueriedExchangeRate

/-! ## Results that are `ok`

A composition that succeeds has succeeded at each step. These lemmas take such a result apart,
so that no proof unfolds `bind`. -/

section Results

variable {ε ε' α β : Type}

theorem bind_eq_ok_iff {x : Except ε α} {f : α → Except ε β} {b : β} :
    x.bind f = .ok b ↔ ∃ a, x = .ok a ∧ f a = .ok b := by
  constructor
  · intro h
    cases x with
    | error e => cases h
    | ok a => exact ⟨a, rfl, h⟩
  · rintro ⟨a, rfl, h⟩
    exact h

theorem map_eq_ok_iff {x : Except ε α} {f : α → β} {b : β} :
    x.map f = .ok b ↔ ∃ a, x = .ok a ∧ f a = b := by
  constructor
  · intro h
    cases x with
    | error e => cases h
    | ok a => exact ⟨a, rfl, Except.ok.inj h⟩
  · rintro ⟨a, rfl, rfl⟩
    rfl

theorem mapError_eq_ok_iff {x : Except ε α} {f : ε → ε'} {a : α} :
    x.mapError f = .ok a ↔ x = .ok a := by
  constructor
  · intro h
    cases x with
    | error e => cases h
    | ok b => exact congrArg Except.ok (Except.ok.inj h)
  · rintro rfl
    rfl

theorem mapError_eq_error_iff {x : Except ε α} {f : ε → ε'} {e' : ε'} :
    x.mapError f = .error e' ↔ ∃ e, x = .error e ∧ f e = e' := by
  constructor
  · intro h
    cases x with
    | error e => exact ⟨e, rfl, Except.error.inj h⟩
    | ok a => cases h
  · rintro ⟨e, rfl, rfl⟩
    rfl

theorem toOption_eq_some_iff {x : Except ε α} {a : α} : x.toOption = some a ↔ x = .ok a := by
  constructor
  · intro h
    cases x with
    | error e => cases h
    | ok b => exact congrArg Except.ok (Option.some.inj h)
  · rintro rfl
    rfl

end Results

/-! ## Symbols

The Unicode tables are arbitrary outside ASCII, so nothing is known about the upper case of a
general symbol. Of the symbols the code itself names, all of them upper-case ASCII, everything
is. -/

/-- Only the letters from a to z have another upper case in ASCII. -/
theorem toUpper_of_not_lower {c : Char} (h : ¬ ('a'.val ≤ c.val ∧ c.val ≤ 'z'.val)) :
    c.toUpper = c := dif_neg h

theorem val_toUpper_of_lower {c : Char} (h : 'a'.val ≤ c.val ∧ c.val ≤ 'z'.val) :
    c.toUpper.val = c.val + ('A'.val - 'a'.val) := by
  delta Char.toUpper
  rw [dif_pos h]

section Symbols

variable [Unicode]

/-- A symbol of ASCII characters without lower-case letters is its own upper case. -/
theorem to_uppercase_of_upper {symbol : String}
    (h : (symbol.toList.all fun c => decide (c.toNat < 128) && decide (c.toUpper = c)) = true) :
    to_uppercase symbol = symbol := by
  rw [List.all_eq_true] at h
  have hmap : symbol.toList.flatMap Unicode.to_uppercase = symbol.toList := by
    have hsingle : ∀ c ∈ symbol.toList, Unicode.to_uppercase c = [c] := by
      intro c hc
      obtain ⟨hascii, hupper⟩ := Bool.and_eq_true_iff.mp (h c hc)
      rw [Unicode.to_uppercase_ascii c (of_decide_eq_true hascii), of_decide_eq_true hupper]
    rw [List.flatMap_congr hsingle, List.flatMap_singleton']
  rw [to_uppercase, hmap, String.ofList_toList]

theorem to_uppercase_USDT : to_uppercase USDT = USDT := to_uppercase_of_upper (by decide)

/-- An alphanumeric one is also left alone by the sanitization. -/
theorem sanitize_symbol_of_upper {symbol : String}
    (h : (symbol.toList.all fun c => decide (c.toNat < 128) && decide (c.toUpper = c)) = true)
    (halphanum : symbol.toList.all Char.isAlphanum = true) : sanitize_symbol symbol = symbol := by
  have hall : symbol.toList.all Unicode.is_alphanumeric = true := by
    rw [List.all_eq_true] at h halphanum ⊢
    intro c hc
    rw [Unicode.is_alphanumeric_ascii c (of_decide_eq_true (Bool.and_eq_true_iff.mp (h c hc)).1)]
    exact halphanum c hc
  rw [sanitize_symbol, if_pos hall]
  exact to_uppercase_of_upper h

end Symbols

/-! ## Reading the cache

A handler threads the cache through its reads, since a read counts as a use. As a function of
the contents each read is `lookup`, and the contents stay the same, so the cache that is
threaded drops out of all later statements. -/

section Reads

variable [Features] [Unicode] {L : Type} [LruCache L CacheKey QueriedExchangeRate]

open ExchangeRateCache

/-- What a caller is given for a symbol: the cached rate, if it may use it. -/
def usable_rate (cache : ExchangeRateCache L) (caller : Principal) (symbol : String)
    (timestamp : ℕ) : Option QueriedExchangeRate :=
  (cache.lookup symbol timestamp).filter (usable_for caller)

@[simp] theorem get_rate_from_cache_fst (cache : ExchangeRateCache L) (caller : Principal)
    (symbol : String) (timestamp : ℕ) :
    (get_rate_from_cache cache caller symbol timestamp).1
      = usable_rate cache caller symbol timestamp := by
  simp only [get_rate_from_cache, get_fst, usable_rate]

@[simp] theorem lookup_get_rate_from_cache (cache : ExchangeRateCache L) (caller : Principal)
    (symbol : String) (timestamp : ℕ) (symbol' : String) (timestamp' : ℕ) :
    (get_rate_from_cache cache caller symbol timestamp).2.lookup symbol' timestamp'
      = cache.lookup symbol' timestamp' := by
  simp only [get_rate_from_cache, lookup_get]

/-- USDT is always there, and everyone may use it. -/
theorem usable_rate_usdt (cache : ExchangeRateCache L) (caller : Principal) {symbol : String}
    (h : to_uppercase symbol = USDT) (timestamp : ℕ) :
    usable_rate cache caller symbol timestamp = some (usdt_unit timestamp) := by
  have husable : usable_for caller (usdt_unit timestamp) = true := by
    simp only [usable_for, usdt_unit, QueriedExchangeRate.new, usdt_asset, decide_true,
      Bool.or_true, Bool.true_or]
  rw [usable_rate, ExchangeRateCache.lookup, if_pos h, Option.filter_some, if_pos husable]

/-- An ordinary caller uses whatever is cached. -/
theorem usable_rate_of_not_privileged (cache : ExchangeRateCache L) {caller : Principal}
    (h : is_caller_privileged caller = false) (symbol : String) (timestamp : ℕ) :
    usable_rate cache caller symbol timestamp = cache.lookup symbol timestamp := by
  have husable : usable_for caller = fun _ => true := by
    funext rate
    simp only [usable_for, h, Bool.not_false, Bool.true_or]
  rw [usable_rate, husable]
  cases cache.lookup symbol timestamp <;> rfl

/-- The reads of a crypto pair. -/
theorem read_cryptocurrency_pair_eq (env : Environment) (request : GetExchangeRateRequest)
    (timestamp : ℕ) (cache : ExchangeRateCache L) :
    (read_cryptocurrency_pair env request timestamp cache).1
        = usable_rate cache env.caller request.base_asset.symbol timestamp
      ∧ (read_cryptocurrency_pair env request timestamp cache).2.1
        = usable_rate cache env.caller request.quote_asset.symbol timestamp := by
  simp only [read_cryptocurrency_pair, get_rate_from_cache_fst, usable_rate,
    lookup_get_rate_from_cache, and_self]

omit [Features] in
/-- The stablecoins in the cache at a timestamp, and those that are not. Reading marks entries as
recently used, and this is the only way in which the cache that the loop passes along differs. -/
theorem read_stablecoins_eq (cache : ExchangeRateCache L) (timestamp : ℕ) :
    (read_stablecoins cache timestamp).stablecoin_rates
        = STABLECOIN_BASES.filterMap (cache.lookup · timestamp)
      ∧ (read_stablecoins cache timestamp).missed_stablecoin_symbols
        = STABLECOIN_BASES.filter fun symbol => (cache.lookup symbol timestamp).isNone := by
  have hfold : ∀ (symbols : List String) (acc : StablecoinsRead L),
      (∀ symbol timestamp', acc.cache.lookup symbol timestamp' = cache.lookup symbol timestamp') →
        (symbols.foldl (read_stablecoin timestamp) acc).stablecoin_rates
            = acc.stablecoin_rates ++ symbols.filterMap (cache.lookup · timestamp)
          ∧ (symbols.foldl (read_stablecoin timestamp) acc).missed_stablecoin_symbols
            = acc.missed_stablecoin_symbols
              ++ symbols.filter fun symbol => (cache.lookup symbol timestamp).isNone := by
    -- reading changes the recency of the entries, never what is cached
    intro symbols
    induction symbols with
    | nil =>
        intro acc _
        simp only [List.foldl_nil, List.filterMap_nil, List.filter_nil, List.append_nil, and_self]
    | cons symbol symbols ih =>
        intro acc hacc
        have hread : (acc.cache.get symbol timestamp).1 = cache.lookup symbol timestamp := by
          rw [get_fst, hacc]
        have hnext : ∀ symbol' timestamp', (acc.cache.get symbol timestamp).2.lookup symbol'
            timestamp' = cache.lookup symbol' timestamp' := by
          intro symbol' timestamp'
          rw [lookup_get, hacc]
        rw [List.foldl_cons, read_stablecoin]
        cases hlookup : cache.lookup symbol timestamp with
        | some rate =>
            rw [hread, hlookup]
            obtain ⟨hrates, hmissed⟩ := ih ⟨acc.stablecoin_rates ++ [rate],
              acc.missed_stablecoin_symbols, (acc.cache.get symbol timestamp).2⟩ hnext
            rw [hrates, hmissed]
            simp only [List.filterMap_cons, hlookup, List.filter_cons, Option.isNone_some,
              Bool.false_eq_true, if_false, List.append_assoc, List.singleton_append, and_self]
        | none =>
            rw [hread, hlookup]
            obtain ⟨hrates, hmissed⟩ := ih ⟨acc.stablecoin_rates,
              acc.missed_stablecoin_symbols ++ [symbol], (acc.cache.get symbol timestamp).2⟩ hnext
            rw [hrates, hmissed]
            simp only [List.filterMap_cons, hlookup, List.filter_cons, Option.isNone_none,
              if_true, List.append_assoc, List.singleton_append, and_self]
  exact hfold STABLECOIN_BASES ⟨[], [], cache⟩ fun _ _ => rfl

/-- The reads of a crypto/fiat pair. -/
theorem read_crypto_fiat_pair_eq (env : Environment) (request : GetExchangeRateRequest)
    (timestamp : ℕ) (cache : ExchangeRateCache L) :
    (read_crypto_fiat_pair env request timestamp cache).1
        = usable_rate cache env.caller request.base_asset.symbol timestamp
      ∧ (read_crypto_fiat_pair env request timestamp cache).2.stablecoin_rates
        = STABLECOIN_BASES.filterMap (cache.lookup · timestamp)
      ∧ (read_crypto_fiat_pair env request timestamp cache).2.missed_stablecoin_symbols
        = STABLECOIN_BASES.filter fun symbol => (cache.lookup symbol timestamp).isNone := by
  obtain ⟨hrates, hmissed⟩ := read_stablecoins_eq
    (get_rate_from_cache cache env.caller request.base_asset.symbol timestamp).2 timestamp
  simp only [lookup_get_rate_from_cache] at hrates hmissed
  exact ⟨get_rate_from_cache_fst cache env.caller request.base_asset.symbol timestamp, hrates,
    hmissed⟩

section Kept

/-! What every `get` leaves as it is, the reads of a request leave as it is. -/

variable {P : ExchangeRateCache L → Prop}
  (hget : ∀ cache, P cache → ∀ symbol timestamp, P (cache.get symbol timestamp).2)

include hget

theorem kept_by_read_cryptocurrency_pair {cache : ExchangeRateCache L} (hcache : P cache)
    (env : Environment) (request : GetExchangeRateRequest) (timestamp : ℕ) :
    P (read_cryptocurrency_pair env request timestamp cache).2.2 := by
  have hbase := hget cache hcache request.base_asset.symbol timestamp
  simp only [read_cryptocurrency_pair, get_rate_from_cache]
  exact hget _ hbase request.quote_asset.symbol timestamp

omit [Features] in
theorem kept_by_read_stablecoins {timestamp : ℕ} (symbols : List String) :
    ∀ acc : StablecoinsRead L, P acc.cache →
      P (symbols.foldl (read_stablecoin timestamp) acc).cache := by
  induction symbols with
  | nil =>
      intro acc hacc
      exact hacc
  | cons symbol symbols ih =>
      intro acc hacc
      apply ih _
      unfold read_stablecoin
      dsimp only
      split
      · exact hget _ hacc _ _
      · exact hget _ hacc _ _

theorem kept_by_read_crypto_fiat_pair {cache : ExchangeRateCache L} (hcache : P cache)
    (env : Environment) (request : GetExchangeRateRequest) (timestamp : ℕ) :
    P (read_crypto_fiat_pair env request timestamp cache).2.cache := by
  have hbase := hget cache hcache request.base_asset.symbol timestamp
  simp only [read_crypto_fiat_pair, read_stablecoins, get_rate_from_cache]
  exact kept_by_read_stablecoins hget STABLECOIN_BASES ⟨[], [], _⟩ hbase

end Kept

/-- The reads of a request do not change what is cached. -/
@[simp] theorem lookup_read_cryptocurrency_pair (cache : ExchangeRateCache L) (env : Environment)
    (request : GetExchangeRateRequest) (timestamp : ℕ) (symbol' : String) (timestamp' : ℕ) :
    (read_cryptocurrency_pair env request timestamp cache).2.2.lookup symbol' timestamp'
      = cache.lookup symbol' timestamp' := by
  simp only [read_cryptocurrency_pair, lookup_get_rate_from_cache]

@[simp] theorem lookup_read_crypto_fiat_pair (cache : ExchangeRateCache L) (env : Environment)
    (request : GetExchangeRateRequest) (timestamp : ℕ) (symbol' : String) (timestamp' : ℕ) :
    (read_crypto_fiat_pair env request timestamp cache).2.cache.lookup symbol' timestamp'
      = cache.lookup symbol' timestamp' := by
  refine kept_by_read_crypto_fiat_pair (P := fun cache' => cache'.lookup symbol' timestamp'
    = cache.lookup symbol' timestamp') ?_ rfl env request timestamp
  intro cache' hcache' symbol timestamp
  rw [lookup_get]
  exact hcache'

end Reads

/-! ## Charging

A request that goes on after the charge was charged, or is of a privileged caller. -/

section Charge

variable {L α : Type}

/-- A handler that makes an outcall has been charged. The two other ends of a charge, a refusal
and a panic, make no outcall. -/
theorem charge_cycles_of_calls {env : Environment} {num_rates_needed : ℕ}
    {is_valid_request : Bool} {s : State L} {cache : ExchangeRateCache L}
    {rest : State L → Handler L (Except ExchangeRateError α)} {w : World (State L) Call Answer}
    {n : ℕ} (h : (charge_cycles env num_rates_needed is_valid_request { s with cache := cache }
      rest).calls w n ≠ []) :
    ∃ fees, charge_cycles env num_rates_needed is_valid_request { s with cache := cache } rest
      = rest (s.charged cache fees) := by
  unfold charge_cycles at h ⊢
  split
  · refine ⟨[], ?_⟩
    simp only [State.charged, List.append_nil]
  · rename_i hprivileged
    rw [if_neg hprivileged] at h
    dsimp only at h ⊢
    split
    · exact ⟨[_], rfl⟩
    · -- a refused charge ends the request, and a panic traps, so neither makes a call
      rename_i hcharge
      simp only [hcharge, calls_done, ne_eq, not_true_eq_false] at h
    · rename_i hcharge
      simp only [hcharge, calls_trap, ne_eq, not_true_eq_false] at h

end Charge

/-! ## Routing

There are four combinations of asset classes and three handlers. `PairKind` lists the three, so
that a proof about all requests splits once, and `presented` is what becomes of the result of a
mixed pair, in either order. -/

section Routing

variable [Features] [Unicode] {L : Type} [LruCache L CacheKey QueriedExchangeRate]

/-- The handler of a crypto pair. -/
theorem route_request_crypto_crypto {request : GetExchangeRateRequest}
    (hbase : request.base_asset.class' = .Cryptocurrency)
    (hquote : request.quote_asset.class' = .Cryptocurrency) (env : Environment) (s : State L) :
    route_request env request s = handle_cryptocurrency_pair env request s
      ∧ chosen_timestamp env request s = get_normalized_timestamp env request s := by
  simp only [route_request, chosen_timestamp, routed_request, hbase, hquote, and_self]

/-- One asset of the request is a cryptocurrency and the other a currency. -/
def is_crypto_fiat_pair (request : GetExchangeRateRequest) : Bool :=
  decide (request.base_asset.class' ≠ request.quote_asset.class')

omit [Features] [Unicode] in
theorem classes_of_crypto_fiat_pair {request : GetExchangeRateRequest}
    (hpair : is_crypto_fiat_pair request = true) :
    (request.base_asset.class' = .Cryptocurrency ∧ request.quote_asset.class' = .FiatCurrency)
      ∨ request.base_asset.class' = .FiatCurrency
        ∧ request.quote_asset.class' = .Cryptocurrency := by
  have hne := of_decide_eq_true hpair
  cases hbase : request.base_asset.class' <;> cases hquote : request.quote_asset.class'
  · exact absurd (hbase.trans hquote.symm) hne
  · exact Or.inl ⟨rfl, rfl⟩
  · exact Or.inr ⟨rfl, rfl⟩
  · exact absurd (hbase.trans hquote.symm) hne

omit [Features] [Unicode] in
theorem class_eq_of_not_crypto_fiat_pair {request : GetExchangeRateRequest}
    (hpair : ¬ is_crypto_fiat_pair request = true) :
    request.base_asset.class' = request.quote_asset.class' := by
  by_contra hne
  exact hpair (decide_eq_true hne)

/-- The kinds of pairs, by the handlers there are for them. Fiat/crypto requests count as pairs of
both classes, since they share the handler of crypto/fiat ones with the assets exchanged. -/
inductive PairKind (request : GetExchangeRateRequest) : Prop
  | crypto_fiat_pair (hpair : is_crypto_fiat_pair request = true)
  | crypto_pair (hbase : request.base_asset.class' = .Cryptocurrency)
      (hquote : request.quote_asset.class' = .Cryptocurrency)
  | fiat_pair (hbase : request.base_asset.class' = .FiatCurrency)
      (hquote : request.quote_asset.class' = .FiatCurrency)

omit [Features] [Unicode] in
/-- Every request is of one of the three kinds. -/
theorem pairKind (request : GetExchangeRateRequest) : PairKind request := by
  cases hbase : request.base_asset.class' <;> cases hquote : request.quote_asset.class'
  · exact .crypto_pair hbase hquote
  · refine .crypto_fiat_pair (decide_eq_true ?_)
    rw [hbase, hquote]
    decide
  · refine .crypto_fiat_pair (decide_eq_true ?_)
    rw [hbase, hquote]
    decide
  · exact .fiat_pair hbase hquote

/-- How the result for a pair of both classes is presented: as it is, or inverted. -/
def presented (request : GetExchangeRateRequest) (result : RateResult) : RateResult :=
  match request.base_asset.class' with
  | .Cryptocurrency => crypto_fiat_result result
  | .FiatCurrency => fiat_crypto_result result

/-- The handler of a crypto/fiat pair, in either order. -/
theorem route_request_crypto_fiat {request : GetExchangeRateRequest}
    (hpair : is_crypto_fiat_pair request = true) (env : Environment) (s : State L) :
    route_request env request s
      = ((gather_crypto_base_fiat_quote_pair env (routed_request request) s).map
          fun gathered => gathered.bind crypto_fiat_rate).map (presented request) := by
  unfold route_request routed_request presented handle_crypto_base_fiat_quote_pair
  rcases classes_of_crypto_fiat_pair hpair with ⟨hbase, hquote⟩ | ⟨hbase, hquote⟩
  · rw [hbase, hquote]
  · rw [hbase, hquote]

/-- The request of a caller who is let in is routed. -/
theorem answer_request_of_let_in {env : Environment}
    (hpublic : is_caller_anonymous env.caller = false)
    (hpaid : is_caller_privileged env.caller = true ∨ env.has_enough_cycles = true)
    (request : GetExchangeRateRequest) (s : State L) :
    answer_request env request s = route_request env (sanitize_request request) s := by
  have hnot : (!is_caller_privileged env.caller && !env.has_enough_cycles) = false := by
    rcases hpaid with hprivileged | henough
    · rw [hprivileged]
      rfl
    · rw [henough]
      exact Bool.and_false _
  rw [answer_request, hpublic, if_neg Bool.false_ne_true, hnot, if_neg Bool.false_ne_true]

/-- **What happens before the routing**: an error, or nothing. Neither error depends on the
request or the state, and neither is charged, so the rest of the development starts at the
routing. -/
theorem answer_request_cases (env : Environment) (request : GetExchangeRateRequest)
    (s : State L) :
    (∃ error, (error = .AnonymousPrincipalNotAllowed ∨ error = .NotEnoughCycles)
        ∧ answer_request env request s = .done s (.error error))
      ∨ is_caller_anonymous env.caller = false
        ∧ (is_caller_privileged env.caller = true ∨ env.has_enough_cycles = true)
        ∧ answer_request env request s = route_request env (sanitize_request request) s := by
  by_cases hanonymous : is_caller_anonymous env.caller = true
  · exact Or.inl ⟨_, Or.inl rfl, if_pos hanonymous⟩
  · have hpublic : is_caller_anonymous env.caller = false := Bool.eq_false_of_not_eq_true hanonymous
    by_cases hpaid : is_caller_privileged env.caller = true ∨ env.has_enough_cycles = true
    · exact Or.inr ⟨hpublic, hpaid, answer_request_of_let_in hpublic hpaid request s⟩
    · have hpoor : (!is_caller_privileged env.caller && !env.has_enough_cycles) = true := by
        simpa using hpaid
      refine Or.inl ⟨_, Or.inr rfl, ?_⟩
      rw [answer_request, if_neg hanonymous, if_pos hpoor]

/-- A request that makes an outcall is routed. -/
theorem answer_request_of_calls {env : Environment} {request : GetExchangeRateRequest}
    {s : State L} {w : World (State L) Call Answer} {n : ℕ}
    (h : (answer_request env request s).calls w n ≠ []) :
    answer_request env request s = route_request env (sanitize_request request) s := by
  rcases answer_request_cases env request s with ⟨error, -, hdone⟩ | ⟨-, -, hroute⟩
  · rw [hdone] at h
    exact absurd rfl h
  · exact hroute

/-- A crypto pair that makes an outcall was admitted, misses a rate and fetches it. So what
registers pairs and reserves outcalls is known to do so for a reason. -/
theorem proceed_cryptocurrency_pair_of_calls {request : GetExchangeRateRequest} {timestamp : ℕ}
    {validate_request_result : Except ValidateRequestError Unit}
    {maybe_base_rate maybe_quote_rate : Option QueriedExchangeRate} {s : State L}
    {w : World (State L) Call Answer} {n : ℕ}
    (h : (proceed_cryptocurrency_pair request timestamp validate_request_result maybe_base_rate
      maybe_quote_rate s).calls w n ≠ []) :
    (maybe_base_rate = none ∨ maybe_quote_rate = none)
      ∧ proceed_cryptocurrency_pair request timestamp validate_request_result maybe_base_rate
          maybe_quote_rate s
        = with_inflight_tracking [request.base_asset.symbol, request.quote_asset.symbol] timestamp
            (with_request_counter (crypto_pair_rates_needed maybe_base_rate maybe_quote_rate)
              (fetch_cryptocurrency_pair request timestamp maybe_base_rate maybe_quote_rate)) s := by
  cases validate_request_result with
  | error error => exact absurd rfl h
  | ok u =>
      cases maybe_base_rate with
      | none => exact ⟨Or.inl rfl, rfl⟩
      | some base_rate =>
          cases maybe_quote_rate with
          | none => exact ⟨Or.inr rfl, rfl⟩
          -- with both rates at hand nothing is asked for
          | some quote_rate => exact absurd rfl h

end Routing

/-! ## The validation of a request

The checks are made one after the other, and an outcome says that all earlier ones passed. One
lemma lists what each outcome means. -/

/-- What an outcome of `validate_request` says about the request and the state. The errors in the
last case are about the request alone, and nothing is needed of them here. -/
def ValidateOutcome [Features] {L : Type} (env : Environment) (request : GetExchangeRateRequest)
    (num_rates_needed : ℕ) (timestamp : NormalizedTimestamp) (s : State L) :
    Except ValidateRequestError Unit → Prop
  | .ok () => request.base_asset.symbol.isEmpty = false ∧ request.quote_asset.symbol.isEmpty = false
    ∧ (is_caller_privileged env.caller = false →
      is_rate_limited s num_rates_needed request = false
        ∧ has_inflight_crypto s request timestamp.value = false)
  | .error .RateLimited => is_rate_limited s num_rates_needed request = true
  | .error .AlreadyInflight => has_inflight_crypto s request timestamp.value = true
  | .error .PastTimestampNotCached => timestamp.type = .Past
  | .error _ => True

/-- **The specification of `validate_request`**, check by check. The checks are made in a fixed
order, and an error says that all checks before it were passed. What comes after the timestamp and
the symbols is for ordinary callers only. -/
theorem validate_request_outcome [Features] {L : Type} (env : Environment)
    (request : GetExchangeRateRequest) (num_rates_needed : ℕ) (timestamp : NormalizedTimestamp)
    (s : State L) : ValidateOutcome env request num_rates_needed timestamp s
      (validate_request env request num_rates_needed timestamp s) := by
  unfold validate_request
  dsimp only
  by_cases hfuture : env.time_secs < timestamp.value
  · rw [if_pos hfuture]
    trivial
  rw [if_neg hfuture]
  by_cases hbase : request.base_asset.symbol.isEmpty = true
  · rw [if_pos hbase]
    trivial
  rw [if_neg hbase]
  by_cases hquote : request.quote_asset.symbol.isEmpty = true
  · rw [if_pos hquote]
    trivial
  rw [if_neg hquote]
  rw [Bool.not_eq_true] at hbase hquote
  -- a privileged caller is not checked any further
  by_cases hprivileged : is_caller_privileged env.caller = true
  · rw [if_pos hprivileged]
    refine ⟨hbase, hquote, ?_⟩
    intro hordinary
    rw [hprivileged] at hordinary
    cases hordinary
  rw [if_neg hprivileged]
  by_cases hlimited : is_rate_limited s num_rates_needed request = true
  · rw [if_pos hlimited]
    exact hlimited
  rw [if_neg hlimited]
  by_cases hinflight : has_inflight_crypto s request timestamp.value = true
  · rw [if_pos hinflight]
    exact hinflight
  rw [if_neg hinflight]
  by_cases hpast : timestamp.type = .Past ∧ 0 < num_rates_needed
  · rw [if_pos hpast]
    exact hpast.1
  rw [if_neg hpast]
  rw [Bool.not_eq_true] at hlimited hinflight
  exact ⟨hbase, hquote, fun _ => ⟨hlimited, hinflight⟩⟩

/-! ## Timestamps

A request without a timestamp may be answered for the minute before. All results about minutes
and days go through these three facts. -/

section Timestamps

variable {L : Type}

/-- Inverting a request keeps its timestamp. -/
theorem timestamp_routed_request (request : GetExchangeRateRequest) :
    (routed_request request).timestamp = request.timestamp := by
  unfold routed_request
  split
  · rfl
  · rfl

/-- **The timestamp a request is answered for**: the normalized one, or the one of a minute
ago when none is named. -/
theorem chosen_timestamp_cases (env : Environment) (request : GetExchangeRateRequest)
    (s : State L) :
    chosen_timestamp env request s
        = .requested_or_current (utils.get_normalized_timestamp env request)
      ∨ request.timestamp = none ∧ chosen_timestamp env request s
        = .past (utils.get_normalized_timestamp env request - ONE_MINUTE_SECONDS) := by
  have hrouted : utils.get_normalized_timestamp env (routed_request request)
      = utils.get_normalized_timestamp env request := by
    rw [utils.get_normalized_timestamp, utils.get_normalized_timestamp, timestamp_routed_request]
  unfold chosen_timestamp
  split
  · exact Or.inl rfl
  · -- only a request without a timestamp may be moved a minute back
    unfold get_normalized_timestamp
    dsimp only
    rw [hrouted, timestamp_routed_request]
    split
    · exact Or.inl rfl
    · rename_i hunnamed
      split
      · rw [Option.not_isSome_iff_eq_none] at hunnamed
        exact Or.inr ⟨hunnamed, rfl⟩
      · exact Or.inl rfl

/-- A named timestamp is the one that is answered for. -/
theorem chosen_timestamp_of_named {request : GetExchangeRateRequest} {timestamp : ℕ}
    (h : request.timestamp = some timestamp) (env : Environment) (s : State L) :
    chosen_timestamp env request s = .requested_or_current (timestamp / 60 * 60) := by
  rcases chosen_timestamp_cases env request s with hchosen | ⟨hunnamed, -⟩
  · rw [hchosen, utils.get_normalized_timestamp, h, Option.getD_some]
  · rw [h] at hunnamed
    cases hunnamed

end Timestamps

/-! ## Examples

Small states for the witnesses. None of the theorems is about them alone. -/

/-- A cache of the size of the canister's, with some rates inserted. -/
def cacheOf [Unicode] (rates : List QueriedExchangeRate) : ExchangeRateCache RecentRates :=
  rates.foldl ExchangeRateCache.insert (ExchangeRateCache.new MAX_CACHE_SIZE)

/-- A canister with some forex rates and some cached rates. -/
def stateOf (forex_store : ForexRateStore) (cache : ExchangeRateCache RecentRates) :
    State RecentRates :=
  { (State.new : State RecentRates) with forex_store := forex_store, cache := cache }

/-- ICP against the euro, on the day of `oneEurDay`. -/
def icpEurRequest : GetExchangeRateRequest :=
  ⟨⟨"ICP", .Cryptocurrency⟩, ⟨"EUR", .FiatCurrency⟩, some 1_699_833_600⟩

end Xrc
