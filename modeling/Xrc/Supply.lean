/-
What a request is supplied with, and what becomes of it. A pair of a cryptocurrency and a
currency is answered from three sources: the cache, the exchanges, and the forex store. This
file says which rates each of them contributes (`Supplies`), without the handler, and that
the handler gathers exactly these (`gather_result_iff`): nothing that was supplied is
dropped, replaced or looked up a second time, whatever the surroundings do between the
calls.

The prices they compose (`crypto_fiat_prices`) are then the closed form of `Xrc.Prices`, so
that a condition on the answer can be stated on the supplied rates alone.
-/
import Xrc.Prices
import Xrc.Settlement

set_option autoImplicit false

namespace Xrc

open Async OrderStatistics QueriedExchangeRate

/-! ## What the exchanges give

A rate is asked for in one of two roles: as the rate of an asset of the request, or as that
of a stablecoin, which stands in for the dollar. The calls for the two differ, and so an
answer says in which role it gives a rate. -/

/-- What a rate stands for in an answer. -/
inductive Role where
  | asset (symbol : String)
  | stablecoin
  deriving DecidableEq, Repr

/-- The symbols whose rates may stand for it. -/
def Role.symbols : Role → List String
  | asset symbol => [symbol]
  | stablecoin => STABLECOIN_BASES

/-- A call asks for the rate of a symbol, in that role. A stablecoin that is an asset of the
request as well may be asked for in both roles. -/
def Role.asks (role : Role) (symbol : String) : Call → Prop
  | .get_cryptocurrency_usdt_rate _ asked _ => role = .asset symbol ∧ asked.symbol = symbol
  | .get_stablecoin_rates _ symbols _ => role = .stablecoin ∧ symbol ∈ symbols

/-- The rate of a response. -/
def response_rate (result : QueryResult) : Option QueriedExchangeRate :=
  result.toOption.map QueriedExchangeRateWithFailedExchanges.queried_exchange_rate

/-- The rates that an answer gives in a role, under their symbols. -/
def Role.given : Role → (call : Call) × Answer call → List (String × QueriedExchangeRate)
  | asset symbol, ⟨.get_cryptocurrency_usdt_rate _ asked _, result⟩ =>
    if asked.symbol = symbol then (response_rate result).toList.map (symbol, ·) else []
  | stablecoin, ⟨.get_stablecoin_rates _ symbols _, results⟩ =>
    (results.zip symbols).filterMap fun r => (response_rate r.1).map (r.2, ·)
  | _, _ => []

section Supply

variable [Features] [Unicode] {L : Type} [LruCache L CacheKey QueriedExchangeRate]

/-- The rate of a request's cryptocurrency: the cached one, if the caller may use it, and
otherwise the answer of the exchanges. -/
def supplied_rate (cache : ExchangeRateCache L) (caller : Principal) (symbol : String)
    (timestamp : ℕ) (answers : List ((call : Call) × Answer call)) : Option QueriedExchangeRate :=
  (usable_rate cache caller symbol timestamp).or
    ((answers.flatMap (Role.asset symbol).given).head?.map Prod.snd)

omit [Features] in
/-- The rates of the stablecoins: those in the cache, and then those of the exchanges. -/
def supplied_stablecoins (cache : ExchangeRateCache L) (timestamp : ℕ)
    (answers : List ((call : Call) × Answer call)) : List QueriedExchangeRate :=
  STABLECOIN_BASES.filterMap (cache.lookup · timestamp)
    ++ (answers.flatMap Role.stablecoin.given).map Prod.snd

omit [Features] [Unicode] [LruCache L CacheKey QueriedExchangeRate] in
/-- The fee for a number of rates is paid, or not asked for. It is charged once it is known how
many rates are missing, and before any of them is fetched. -/
def Charged (env : Environment) (num_rates_needed : ℕ) : Prop :=
  is_caller_privileged env.caller = true
    ∨ ∃ fee, env.charge_cycles (.OutboundRatesNeeded num_rates_needed) = .charged fee

/-- **What a pair of both classes is supplied with**, by the cache and the forex store of the
state it finds and by the answers it is given: the rates for a request that is admitted and
charged. The answers are a list of calls with what was answered, in no order, and each supplied
rate is a function of them and of the cache; how the handler goes about reading them does not
occur. -/
structure Supplies (env : Environment) (request : GetExchangeRateRequest) (s : State L)
    (answers : List ((call : Call) × Answer call)) (operands : CryptoFiatOperands) : Prop where
  admitted : Admitted env request s
  charged : Charged env (rates_needed env request s)
  forex_rate : s.forex_store.get (chosen_timestamp env request s).value env.time_secs
    (routed_request request).quote_asset.symbol USD = .ok operands.forex_rate
  crypto_base_rate : supplied_rate s.cache env.caller (routed_request request).base_asset.symbol
    (chosen_timestamp env request s).value answers = some operands.crypto_base_rate
  stablecoin_rates : operands.stablecoin_rates
    = supplied_stablecoins s.cache (chosen_timestamp env request s).value answers

/-! ## What the handler gathers

Both directions, and step by step along the handler: a run that gathers rates was admitted,
charged and given an answer for each rate that was missing; and where all of this holds it
gathers just these. The answers are those of the run, so that no step can be given a rate from
somewhere else. -/

section Gather

variable {α : Type} {w : World (State L) Call Answer} {n : ℕ}

omit [Features] [Unicode] [LruCache L CacheKey QueriedExchangeRate] in
/-- A request that is charged goes on. -/
theorem charge_cycles_of_charged {env : Environment} {num_rates_needed : ℕ}
    (h : Charged env num_rates_needed) (s : State L)
    (rest : State L → Handler L (Except ExchangeRateError α)) :
    ∃ s₁, charge_cycles env num_rates_needed true s rest = rest s₁ := by
  unfold charge_cycles
  by_cases hprivileged : is_caller_privileged env.caller = true
  · exact ⟨s, if_pos hprivileged⟩
  · obtain ⟨fee, hfee⟩ := h.resolve_left hprivileged
    refine ⟨{ s with accepted := s.accepted ++ [fee] }, ?_⟩
    rw [if_neg hprivileged, if_pos rfl]
    simp only [hfee]

omit [Features] [Unicode] [LruCache L CacheKey QueriedExchangeRate] in
/-- A request that is served has been charged, and went on after it. -/
theorem charge_cycles_ok {env : Environment} {num_rates_needed : ℕ} {is_valid_request : Bool}
    {s : State L} {rest : State L → Handler L (Except ExchangeRateError α)} {a : α}
    (h : (charge_cycles env num_rates_needed is_valid_request s rest).result w n
      = some (.ok a)) :
    (is_valid_request = true → Charged env num_rates_needed)
      ∧ ∃ s₁, charge_cycles env num_rates_needed is_valid_request s rest = rest s₁ := by
  unfold charge_cycles at h ⊢
  by_cases hprivileged : is_caller_privileged env.caller = true
  · exact ⟨fun _ => Or.inl hprivileged, s, if_pos hprivileged⟩
  · rw [if_neg hprivileged] at h ⊢
    dsimp only at h ⊢
    cases hcharge : env.charge_cycles
        (if is_valid_request = true then .OutboundRatesNeeded num_rates_needed else .MinimumFee) with
    | charged fee =>
        refine ⟨fun hvalid => Or.inr ⟨fee, ?_⟩, _, rfl⟩
        rw [if_pos hvalid] at hcharge
        exact hcharge
    -- without the fee there is no result, and a panic gives none either
    | NotEnoughCycles =>
        rw [hcharge] at h
        cases h
    | panicked =>
        rw [hcharge] at h
        cases h

omit [Features] in
/-- The last rate a handler needs is the one at hand, or the answer it is given; and asking for
it is not asking for a stablecoin. -/
theorem fetch_rate_result_iff {exchanges : List Exchange} {asset : Asset} {timestamp : ℕ}
    {not_found : ExchangeRateError} {maybe_rate : Option QueriedExchangeRate}
    {compose : QueriedExchangeRate → α} {s : State L} {fetched : Handler L (Except ExchangeRateError α)}
    (hfetched : fetched = fetch_rate exchanges asset timestamp not_found maybe_rate
      (fun rate _ s => .done s (.ok (compose rate))) s) (a : α) :
    (fetched.result w n = some (.ok a)
        ↔ ∃ rate, maybe_rate.or (((fetched.answered w n).flatMap
            (Role.asset asset.symbol).given).head?.map Prod.snd) = some rate ∧ compose rate = a)
      ∧ (fetched.answered w n).flatMap Role.stablecoin.given = [] := by
  subst hfetched
  -- a rate at hand is used as it is, and only otherwise is one asked for
  cases maybe_rate with
  | some rate =>
      refine ⟨?_, rfl⟩
      show some (Except.ok (compose rate)) = some (.ok a) ↔ _
      simp only [Option.some_or, Option.some.injEq, Except.ok.injEq, exists_eq_left']
  | none =>
      rw [fetch_rate, result_await, answered_await]
      cases hanswer : (w.respond n (.get_cryptocurrency_usdt_rate exchanges asset timestamp) s).1
        with
      | error error =>
          refine ⟨iff_of_false ?_ ?_, rfl⟩
          · intro h
            cases h
          · -- an error supplies no rate
            rintro ⟨rate, hrate, -⟩
            simp [Role.given, response_rate, Except.toOption] at hrate
      | ok response =>
          refine ⟨?_, rfl⟩
          show some (Except.ok (compose response.queried_exchange_rate)) = some (.ok a) ↔ _
          simp [Role.given, response_rate, Except.toOption]

omit [Features] [Unicode] [LruCache L CacheKey QueriedExchangeRate] in
/-- What the loop over the answers collects. -/
theorem collect_stablecoins_eq [Unicode] [LruCache L CacheKey QueriedExchangeRate]
    (results : List (QueryResult × String)) (acc : StablecoinsFetched L) :
    (results.foldl collect_stablecoin acc).stablecoin_rates
      = acc.stablecoin_rates ++ results.filterMap fun r => response_rate r.1 := by
  induction results generalizing acc with
  | nil => exact (List.append_nil _).symm
  | cons result results ih =>
      rw [List.foldl_cons, ih]
      obtain ⟨result, symbol⟩ := result
      cases result with
      | error error => rfl
      | ok response => exact List.append_assoc _ _ _

/-- What is gathered by fetching: the stablecoins are asked for first, and whatever is answered
is added to those at hand. -/
theorem fetch_crypto_fiat_pair_result_iff {request : GetExchangeRateRequest} {timestamp : ℕ}
    {maybe_crypto_base_rate : Option QueriedExchangeRate}
    {stablecoin_rates : List QueriedExchangeRate} {missed_stablecoin_symbols : List String}
    {forex_rate : QueriedExchangeRate} {s : State L}
    {fetching : Handler L (Except ExchangeRateError CryptoFiatOperands)}
    (hfetching : fetching = fetch_crypto_fiat_pair request timestamp maybe_crypto_base_rate
      stablecoin_rates missed_stablecoin_symbols forex_rate s) (operands : CryptoFiatOperands) :
    fetching.result w n = some (.ok operands)
      ↔ forex_rate = operands.forex_rate
        ∧ maybe_crypto_base_rate.or (((fetching.answered w n).flatMap
            (Role.asset request.base_asset.symbol).given).head?.map Prod.snd)
          = some operands.crypto_base_rate
        ∧ operands.stablecoin_rates = stablecoin_rates
          ++ ((fetching.answered w n).flatMap Role.stablecoin.given).map Prod.snd := by
  subst hfetching
  rw [fetch_crypto_fiat_pair, result_await, answered_await]
  dsimp only
  generalize w.respond n (.get_stablecoin_rates get_available_exchanges missed_stablecoin_symbols
    timestamp) s = responded
  obtain ⟨hfetch, hnone⟩ := fetch_rate_result_iff (w := w) (n := n + 1) rfl operands
  rw [hfetch, List.flatMap_cons, List.flatMap_cons, hnone, collect_stablecoins_eq]
  generalize Async.answered w (n + 1) _ = answers
  -- the first answer is one for stablecoins, and the rates in it are those of its entries
  have hasset : (Role.asset request.base_asset.symbol).given ⟨.get_stablecoin_rates
      get_available_exchanges missed_stablecoin_symbols timestamp, responded.1⟩ = [] := rfl
  have hstablecoins : (Role.stablecoin.given ⟨.get_stablecoin_rates get_available_exchanges
        missed_stablecoin_symbols timestamp, responded.1⟩).map Prod.snd
      = (responded.1.zip missed_stablecoin_symbols).filterMap fun r => response_rate r.1 := by
    unfold Role.given
    rw [List.map_filterMap]
    apply List.filterMap_congr
    intro r _
    rw [Option.map_map]
    exact Option.map_id'
  rw [hasset, List.nil_append, List.append_nil, hstablecoins]
  cases operands
  simp only [CryptoFiatOperands.mk.injEq]
  constructor
  · rintro ⟨rate, hrate, rfl, rfl, rfl⟩
    exact ⟨rfl, hrate, rfl⟩
  · rintro ⟨rfl, hrate, rfl⟩
    exact ⟨_, hrate, rfl, rfl, rfl⟩

/-- **What is gathered once a pair is charged**: the rates at hand, completed by the answers. The
cases are those of the handler: a rejection, a lookup that failed, all rates at hand, and a fetch,
in which the guard and the counter change nothing about the result. -/
theorem proceed_result_iff {request : GetExchangeRateRequest} {timestamp : ℕ}
    {validate_request_result : Except ValidateRequestError Unit} {forex_rate_result : RateResult}
    {maybe_crypto_base_rate : Option QueriedExchangeRate}
    {stablecoin_rates : List QueriedExchangeRate} {missed_stablecoin_symbols : List String}
    {s : State L} {proceeding : Handler L (Except ExchangeRateError CryptoFiatOperands)}
    (hproceeding : proceeding = proceed_crypto_base_fiat_quote_pair request timestamp
      validate_request_result forex_rate_result maybe_crypto_base_rate stablecoin_rates
      missed_stablecoin_symbols s) (operands : CryptoFiatOperands) :
    proceeding.result w n = some (.ok operands)
      ↔ validate_request_result = .ok () ∧ forex_rate_result = .ok operands.forex_rate
        ∧ maybe_crypto_base_rate.or (((proceeding.answered w n).flatMap
            (Role.asset request.base_asset.symbol).given).head?.map Prod.snd)
          = some operands.crypto_base_rate
        ∧ operands.stablecoin_rates = stablecoin_rates
          ++ ((proceeding.answered w n).flatMap Role.stablecoin.given).map Prod.snd := by
  subst hproceeding
  unfold proceed_crypto_base_fiat_quote_pair
  cases validate_request_result with
  | error error =>
      refine iff_of_false ?_ fun h => by cases h.1
      intro h
      cases h
  | ok u =>
      cases forex_rate_result with
      | error error =>
          refine iff_of_false ?_ fun h => by cases h.2.1
          intro h
          cases h
      | ok forex_rate =>
          dsimp only
          split
          · -- all rates are at hand
            rename_i crypto_base_rate
            show some (Except.ok _) = some (.ok operands) ↔ _
            cases operands
            simp only [Option.some.injEq, Except.ok.injEq, CryptoFiatOperands.mk.injEq, true_and,
              answered_done, List.flatMap_nil, List.map_nil, List.append_nil, Option.some_or]
            constructor
            · rintro ⟨rfl, rfl, rfl⟩
              exact ⟨rfl, rfl, rfl⟩
            · rintro ⟨rfl, rfl, rfl⟩
              exact ⟨rfl, rfl, rfl⟩
          · rw [with_inflight_tracking, result_guarded, answered_guarded, with_request_counter,
              result_guarded, answered_guarded, fetch_crypto_fiat_pair_result_iff rfl operands]
            simp only [true_and, Except.ok.injEq]

omit [LruCache L CacheKey QueriedExchangeRate] in
/-- The forex lookup succeeds with what the store has. -/
theorem lookup_fiat_eq_ok_iff {env : Environment} {request : GetExchangeRateRequest}
    {timestamp : ℕ} {s : State L} {forex_rate : QueriedExchangeRate} :
    lookup_fiat env request timestamp s = .ok forex_rate
      ↔ s.forex_store.get timestamp env.time_secs request.quote_asset.symbol USD
        = .ok forex_rate :=
  mapError_eq_ok_iff

/-- The handler of a pair of both classes, in terms of the request and of what is cached. What it
reads from the cache is stated as functions of the cache here, so that the loops of the handler
need not be looked at again. -/
theorem gather_crypto_base_fiat_quote_pair_eq {request : GetExchangeRateRequest}
    (hpair : is_crypto_fiat_pair request = true) (env : Environment) (s : State L) :
    ∃ cache, gather_crypto_base_fiat_quote_pair env (routed_request request) s
      = charge_cycles env (rates_needed env request s)
        ((validation env request s).isOk
          && (lookup_fiat env (routed_request request) (chosen_timestamp env request s).value
            s).isOk)
        { s with cache := cache }
        (proceed_crypto_base_fiat_quote_pair (routed_request request)
          (chosen_timestamp env request s).value (validation env request s)
          (lookup_fiat env (routed_request request) (chosen_timestamp env request s).value s)
          (usable_rate s.cache env.caller (routed_request request).base_asset.symbol
            (chosen_timestamp env request s).value)
          (STABLECOIN_BASES.filterMap
            (s.cache.lookup · (chosen_timestamp env request s).value))
          (STABLECOIN_BASES.filter fun symbol =>
            (s.cache.lookup symbol (chosen_timestamp env request s).value).isNone)) := by
  obtain ⟨hbase_read, hstablecoins, hmissed⟩ := read_crypto_fiat_pair_eq env (routed_request request)
    (chosen_timestamp env request s).value s.cache
  -- for either order of the assets, time and cost are those of the routed request
  have htimestamp : chosen_timestamp env request s
      = get_normalized_timestamp env (routed_request request) s := by
    unfold chosen_timestamp
    rcases classes_of_crypto_fiat_pair hpair with ⟨hbase, hquote⟩ | ⟨hbase, hquote⟩
    · rw [hbase, hquote]
    · rw [hbase, hquote]
  have hneeded : rates_needed env request s
      = crypto_fiat_rates_needed
          (read_crypto_fiat_pair env (routed_request request)
            (chosen_timestamp env request s).value s.cache).1
          (read_crypto_fiat_pair env (routed_request request)
            (chosen_timestamp env request s).value s.cache).2.missed_stablecoin_symbols := by
    unfold rates_needed
    rcases classes_of_crypto_fiat_pair hpair with ⟨hbase, hquote⟩ | ⟨hbase, hquote⟩
    · rw [hbase, hquote]
    · rw [hbase, hquote]
  refine ⟨(read_crypto_fiat_pair env (routed_request request)
    (chosen_timestamp env request s).value s.cache).2.cache, ?_⟩
  unfold gather_crypto_base_fiat_quote_pair
  rw [validation, hneeded, ← hbase_read, ← hstablecoins, ← hmissed, htimestamp]

/-- **What the handler gathers is what it is supplied with.** The fee depends on what is missing
and is charged before anything is fetched, so a caller who cannot pay it is supplied with nothing
at all. -/
theorem gather_result_iff {env : Environment} {request : GetExchangeRateRequest}
    (hpair : is_crypto_fiat_pair request = true) (s : State L) (operands : CryptoFiatOperands) :
    (gather_crypto_base_fiat_quote_pair env (routed_request request) s).result w n
        = some (.ok operands)
      ↔ Supplies env request s ((gather_crypto_base_fiat_quote_pair env (routed_request request)
          s).answered w n) operands := by
  obtain ⟨cache, hgather⟩ := gather_crypto_base_fiat_quote_pair_eq hpair env s
  rw [hgather]
  constructor
  · intro h
    -- from a result back: it was charged, and the rest is what was gathered then
    obtain ⟨hcharged, s₁, hrest⟩ := charge_cycles_ok h
    rw [hrest] at h ⊢
    obtain ⟨hvalid, hforex, hcrypto, hstablecoins⟩ := (proceed_result_iff rfl operands).mp h
    refine ⟨hvalid, hcharged ?_, lookup_fiat_eq_ok_iff.mp hforex, hcrypto, hstablecoins⟩
    rw [hvalid, hforex]
    rfl
  · intro h
    -- and from what is supplied to a result, charging the cost of the outcalls first
    have hforex := lookup_fiat_eq_ok_iff.mpr h.forex_rate
    have hvalid : validation env request s = .ok () := h.admitted
    have hboth : ((validation env request s).isOk && (lookup_fiat env (routed_request request)
        (chosen_timestamp env request s).value s).isOk) = true := by
      rw [hvalid, hforex]
      rfl
    have hcrypto := h.crypto_base_rate
    have hstablecoins := h.stablecoin_rates
    rw [hboth] at hcrypto hstablecoins ⊢
    obtain ⟨s₁, hrest⟩ := charge_cycles_of_charged h.charged { s with cache := cache } _
    rw [hrest] at hcrypto hstablecoins ⊢
    exact (proceed_result_iff rfl operands).mpr ⟨hvalid, hforex, hcrypto, hstablecoins⟩

end Gather

/-! ## The prices they compose

The chosen stablecoin is taken for the dollar, so the inverse of its rates is USDT in dollars;
what is far from its median is left out before. -/

omit [Features] [Unicode] [LruCache L CacheKey QueriedExchangeRate] in
/-- USDT in dollars, after the chosen stablecoin. -/
def usdt_prices (chosen : QueriedExchangeRate) : Prices :=
  Prices.inverse ⟨sort (chosen.rates.filter (retains (median chosen.rates))), DECIMALS⟩

omit [Features] [Unicode] [LruCache L CacheKey QueriedExchangeRate] in
/-- The cryptocurrency in the currency: in USDT, in dollars, and for each of the rates of the
currency against the dollar. -/
def crypto_fiat_prices (crypto_base_rate chosen forex_rate : QueriedExchangeRate) : Prices :=
  (crypto_base_rate.prices.times (usdt_prices chosen)).times forex_rate.prices.inverse

/-- **The prices a pair is supplied with.** The only choice in it is that of the stablecoin, which
is among the supplied ones; everything else is arithmetic. -/
def SuppliesPrices (env : Environment) (request : GetExchangeRateRequest) (s : State L)
    (answers : List ((call : Call) × Answer call)) (p : Prices) : Prop :=
  ∃ operands chosen, Supplies env request s answers operands
    ∧ stablecoin.median_stablecoin_rate operands.stablecoin_rates = .ok chosen
    ∧ p = crypto_fiat_prices operands.crypto_base_rate chosen operands.forex_rate

omit [Features] [Unicode] [LruCache L CacheKey QueriedExchangeRate] in
/-- The composition, before it is validated. -/
theorem prices_composed (crypto_base_rate chosen forex_rate : QueriedExchangeRate)
    (timestamps : List ℕ) :
    (crypto_base_rate * stablecoin.estimate chosen usd_asset timestamps
        / forex_rate).prices.Same (crypto_fiat_prices crypto_base_rate chosen forex_rate) := by
  have husdt : (stablecoin.estimate chosen usd_asset timestamps).prices.Same (usdt_prices chosen) :=
    prices_inverted _
  have husd := (prices_mul crypto_base_rate
    (stablecoin.estimate chosen usd_asset timestamps)).trans ((Prices.Same.refl _).times husdt)
  exact (prices_mul _ forex_rate.inverted).trans (husd.times (prices_inverted forex_rate))

omit [Features] [Unicode] [LruCache L CacheKey QueriedExchangeRate] in
/-- **What is composed of the operands**: the prices in closed form, if they are acceptable. The
composition computes them up to the decimals of an empty list, and such a list is not acceptable,
so no case is left in which the two would differ. -/
theorem crypto_fiat_rate_ok_iff {operands : CryptoFiatOperands} {p : Prices} :
    (∃ q, crypto_fiat_rate operands = .ok q ∧ q.prices = p)
      ↔ (∃ chosen, stablecoin.median_stablecoin_rate operands.stablecoin_rates = .ok chosen
          ∧ p = crypto_fiat_prices operands.crypto_base_rate chosen operands.forex_rate)
        ∧ Acceptable p.rates := by
  -- a quotient is sorted and in range, so `validate` decides what it should
  have hvalidate : ∀ a b : QueriedExchangeRate,
      (a / b).validate = .ok (a / b) ↔ Acceptable (a / b).rates := fun a b =>
    validate_ok_iff_acceptable (mul_rates_pairwise a b.inverted) fun r hr =>
      lt_trans (lt_of_le_of_lt (mul_rates_inRange a b.inverted r hr).2 MAX_RATE_lt) (by decide)
  have hne : ∀ {rates : List ℕ}, Acceptable rates → rates ≠ [] := by
    rintro rates h rfl
    exact absurd h.median_pos (by decide)
  unfold crypto_fiat_rate stablecoin.get_stablecoin_rate
  cases hchosen : stablecoin.median_stablecoin_rate operands.stablecoin_rates with
  | error error =>
      refine iff_of_false ?_ ?_
      · rintro ⟨q, hq, -⟩
        cases hq
      · rintro ⟨⟨chosen, h, -⟩, -⟩
        cases h
  | ok chosen =>
      -- the composition has the prices of its operands, as far as it has any
      have hsame := prices_composed operands.crypto_base_rate chosen operands.forex_rate
        (operands.stablecoin_rates.map QueriedExchangeRate.timestamp)
      have hrates : (operands.crypto_base_rate * stablecoin.estimate chosen usd_asset
            (operands.stablecoin_rates.map QueriedExchangeRate.timestamp)
          / operands.forex_rate).rates
          = (crypto_fiat_prices operands.crypto_base_rate chosen operands.forex_rate).rates :=
        hsame.rates
      dsimp only [Except.map]
      constructor
      · rintro ⟨q, hq, rfl⟩
        have heq := eq_of_validate_ok hq
        rw [← heq] at hq
        subst heq
        have hacceptable := (hvalidate _ _).mp hq
        exact ⟨⟨chosen, rfl, hsame.eq (hne hacceptable)⟩, hacceptable⟩
      · rintro ⟨⟨chosen', h, rfl⟩, hacceptable⟩
        obtain rfl := Except.ok.inj h
        rw [← hrates] at hacceptable
        exact ⟨_, (hvalidate _ _).mpr hacceptable, hsame.eq (hne hacceptable)⟩

/-- **What a pair is answered from**: the prices it is supplied with, if they are acceptable. It
joins the two results above: what is gathered is what is supplied, and what is composed of it has
the prices in closed form. The handler is not mentioned on the right any more. -/
theorem composed_prices_iff {env : Environment} {request : GetExchangeRateRequest}
    (hpair : is_crypto_fiat_pair request = true) (s : State L) (w : World (State L) Call Answer)
    (n : ℕ) (p : Prices) :
    (∃ operands q, (gather_crypto_base_fiat_quote_pair env (routed_request request) s).result w n
        = some (.ok operands) ∧ crypto_fiat_rate operands = .ok q ∧ q.prices = p)
      ↔ SuppliesPrices env request s ((route_request env request s).answered w n) p
        ∧ Acceptable p.rates := by
  rw [route_request_crypto_fiat hpair, answered_map, answered_map]
  constructor
  · rintro ⟨operands, q, hgathered, hq, hprices⟩
    obtain ⟨⟨chosen, hchosen, hp⟩, hacceptable⟩ := crypto_fiat_rate_ok_iff.mp ⟨q, hq, hprices⟩
    exact ⟨⟨operands, chosen, (gather_result_iff hpair s operands).mp hgathered, hchosen, hp⟩,
      hacceptable⟩
  · rintro ⟨⟨operands, chosen, hsupplies, hchosen, hp⟩, hacceptable⟩
    obtain ⟨q, hq, hprices⟩ := crypto_fiat_rate_ok_iff.mpr ⟨⟨chosen, hchosen, hp⟩, hacceptable⟩
    exact ⟨operands, q, (gather_result_iff hpair s operands).mpr hsupplies, hq, hprices⟩

end Supply

end Xrc
