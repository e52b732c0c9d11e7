/-
Fiat/crypto pairs as the mirror image of crypto/fiat pairs. Both arms of `route_request` run the
same handler on the same request and differ in what they make of its result: one passes it on,
the other inverts the rate and renames the errors. So the two leave the same state and make
the same calls, and what is left is about results: which errors the handler can end in
(`HandlerError`), that the two renamings agree on them up to the roles, and when the
inverted rate is the inverse.
-/
import Xrc.Rejections
import Xrc.Validation

set_option autoImplicit false

namespace Xrc

open Async OrderStatistics QueriedExchangeRate

/-! ## Mirrored results

What a caller of the other order should receive: the reciprocal of the rate, at one common
number of decimals for all of its rates, or the same error with the roles exchanged. Nothing
here refers to how the code inverts a rate. -/

/-- An error with the roles of base and quote exchanged. -/
def ExchangeRateError.exchanged : ExchangeRateError → ExchangeRateError
  | CryptoBaseAssetNotFound => .CryptoQuoteAssetNotFound
  | CryptoQuoteAssetNotFound => .CryptoBaseAssetNotFound
  | ForexBaseAssetNotFound => .ForexQuoteAssetNotFound
  | ForexQuoteAssetNotFound => .ForexBaseAssetNotFound
  | Other error =>
    if error.code = errors.BASE_ASSET_INVALID_SYMBOL_ERROR_CODE then
      errors.quote_asset_symbol_invalid_error
    else if error.code = errors.QUOTE_ASSET_INVALID_SYMBOL_ERROR_CODE then
      errors.base_asset_symbol_invalid_error
    else .Other error
  | error => error

/-- The reciprocal of a rate: its rates are those of the other one inverted, none of them cast,
at one common number of decimals. -/
structure IsInverse (rate inverse : QueriedExchangeRate) : Prop where
  base_asset : inverse.base_asset = rate.quote_asset
  quote_asset : inverse.quote_asset = rate.base_asset
  timestamp : inverse.timestamp = rate.timestamp
  rates : ∃ d', rate.decimals_or_default ≤ d' ∧ d' ≤ 2 * DECIMALS ∧ inverse.decimals = some d'
    ∧ inverse.rates = sort (rate.rates.map fun r => 10 ^ (rate.decimals_or_default + d') / r)

theorem isInverse_inverted_iff {rate : QueriedExchangeRate} :
    IsInverse rate rate.inverted ↔ rate.InvertsExactly :=
  ⟨fun h => h.rates, fun h => ⟨rfl, rfl, rfl, h⟩⟩

/-- Mirrored results: both a rate, one the inverse of the other, or both an error, with the
roles exchanged. -/
inductive MirroredResult : RateResult → RateResult → Prop
  | ok {rate inverse : QueriedExchangeRate} (h : IsInverse rate inverse) :
      MirroredResult (.ok rate) (.ok inverse)
  | error (error : ExchangeRateError) : MirroredResult (.error error) (.error error.exchanged)

/-- **The role of the asset an error is about**: a cryptocurrency that is not found is the
request's cryptocurrency, a fiat currency its fiat currency, and an invalid symbol is empty. -/
def NamesRole (request : GetExchangeRateRequest) : ExchangeRateError → Prop
  | .CryptoBaseAssetNotFound => request.base_asset.class' = .Cryptocurrency
  | .CryptoQuoteAssetNotFound => request.quote_asset.class' = .Cryptocurrency
  | .ForexBaseAssetNotFound => request.base_asset.class' = .FiatCurrency
  | .ForexQuoteAssetNotFound => request.quote_asset.class' = .FiatCurrency
  | .ForexAssetsNotFound =>
    request.base_asset.class' = .FiatCurrency ∧ request.quote_asset.class' = .FiatCurrency
  | .Other error =>
    (error.code = errors.BASE_ASSET_INVALID_SYMBOL_ERROR_CODE →
        request.base_asset.symbol.isEmpty = true)
      ∧ (error.code = errors.QUOTE_ASSET_INVALID_SYMBOL_ERROR_CODE →
          request.quote_asset.symbol.isEmpty = true)
  | _ => True

/-- The request for a cryptocurrency in a fiat currency. -/
def cryptoFiat (crypto fiat : String) (timestamp : Option ℕ) : GetExchangeRateRequest :=
  ⟨⟨crypto, .Cryptocurrency⟩, ⟨fiat, .FiatCurrency⟩, timestamp⟩

/-- The request for a fiat currency in a cryptocurrency. -/
def fiatCrypto (fiat crypto : String) (timestamp : Option ℕ) : GetExchangeRateRequest :=
  ⟨⟨fiat, .FiatCurrency⟩, ⟨crypto, .Cryptocurrency⟩, timestamp⟩

/-! ## What the handler ends in

The renaming of errors is a function on all of them, but it exchanges the roles only of those
the handler really ends in. The handler is gone through once, part by part, for the errors of
its validation, of its forex lookup and of its composition. -/

/-- What a pair of both classes can end in, before its errors are renamed: the cryptocurrency is
its base, and the fiat currency the base of its forex lookup. -/
inductive HandlerError (request : GetExchangeRateRequest) : ExchangeRateError → Prop
  | crypto_not_found : HandlerError request .CryptoBaseAssetNotFound
  | fiat_not_found : HandlerError request .ForexBaseAssetNotFound
  | crypto_symbol_invalid (h : request.base_asset.symbol.isEmpty = true) :
      HandlerError request errors.base_asset_symbol_invalid_error
  | fiat_symbol_invalid (h : request.quote_asset.symbol.isEmpty = true) :
      HandlerError request errors.quote_asset_symbol_invalid_error
  | future_timestamp (requested current : ℕ) :
      HandlerError request (errors.timestamp_is_in_future_error requested current)
  | not_enough_cycles : HandlerError request .NotEnoughCycles
  | rate_limited : HandlerError request .RateLimited
  | pending : HandlerError request .Pending
  | forex_invalid_timestamp : HandlerError request .ForexInvalidTimestamp
  | stablecoin_rate_not_found : HandlerError request .StablecoinRateNotFound
  | stablecoin_rate_too_few_rates : HandlerError request .StablecoinRateTooFewRates
  | stablecoin_rate_zero_rate : HandlerError request .StablecoinRateZeroRate
  | inconsistent_rates : HandlerError request .InconsistentRatesReceived
  | invalid_rate : HandlerError request errors.invalid_rate_error

section Handler

variable {request : GetExchangeRateRequest} {error : ExchangeRateError}

/-- The errors of the validation name the symbol that is empty. In the request that the handler
sees, the base is the cryptocurrency, whichever arm it came from. -/
theorem handlerError_of_rejected [Features] {L : Type} {env : Environment} {num_rates_needed : ℕ}
    {requested_timestamp : NormalizedTimestamp} {s : State L}
    (h : RejectedWith error
      (validate_request env request num_rates_needed requested_timestamp s)) :
    HandlerError request error := by
  obtain ⟨e, he, rfl⟩ := h
  -- the checks, in their order
  unfold validate_request at he
  dsimp only at he
  split at he
  · cases he
    exact .future_timestamp _ _
  split at he
  · rename_i hbase
    cases he
    exact .crypto_symbol_invalid hbase
  split at he
  · rename_i hquote
    cases he
    exact .fiat_symbol_invalid hquote
  split at he
  · cases he
  split at he
  · cases he
    exact .rate_limited
  split at he
  · cases he
    exact .pending
  split at he
  · cases he
    exact .pending
  · cases he

/-- The errors of the composition. None of them depends on the assets, so both arms present them
alike. -/
theorem handlerError_of_composed {operands : CryptoFiatOperands}
    (h : crypto_fiat_rate operands = .error error) : HandlerError request error := by
  unfold crypto_fiat_rate at h
  split at h
  · -- the errors of the stablecoin, as the handler reports them
    rename_i e _
    cases e
    · cases h
      exact .stablecoin_rate_too_few_rates
    · cases h
      exact .stablecoin_rate_not_found
    · cases h
      exact .stablecoin_rate_zero_rate
  · -- and those of the validation
    unfold QueriedExchangeRate.validate at h
    dsimp only at h
    split at h
    · cases h
      exact .invalid_rate
    split at h
    · cases h
      exact .inconsistent_rates
    · cases h

variable [Features] [Unicode] {L : Type}

/-- The forex lookup asks for the fiat currency against USD, so only that can be missing. It is
reported as a base asset, being the base of the lookup, and the crypto/fiat arm corrects this. -/
theorem handlerError_of_lookup {env : Environment} {timestamp : ℕ} {s : State L}
    (h : lookup_fiat env request timestamp s = .error error) : HandlerError request error := by
  have husd : to_uppercase USD = USD := to_uppercase_of_upper (by decide)
  unfold lookup_fiat ForexRateStore.get at h
  dsimp only at h
  rw [husd] at h
  split at h
  · cases h
  split at h
  · cases h
    exact .forex_invalid_timestamp
  · unfold ForexRateStore.rate_on_day at h
    rw [if_pos rfl] at h
    split at h
    · cases h
      exact .fiat_not_found
    · cases h

variable [LruCache L CacheKey QueriedExchangeRate] {env : Environment} {s s' : State L}
  {w : World (State L) Call Answer} {n : ℕ}

/-- **The errors of the handler of both arms.** An error is one of the composition, or one that
the handler itself ends in: a rejection, a failed lookup, a charge that was refused or a
cryptocurrency without rates. -/
theorem handlerError_of_run {gathered : Except ExchangeRateError CryptoFiatOperands}
    (hrun : (gather_crypto_base_fiat_quote_pair env request s).run w n = some (s', gathered))
    (herror : gathered.bind crypto_fiat_rate = .error error) : HandlerError request error := by
  have hcontract : Holds (RejectsWhen error (HandlerError request error)) s []
      (gather_crypto_base_fiat_quote_pair env request s) := by
    refine rejectsWhen_charge_cycles ?_ ?_ env _ _ s _
    · rintro rfl
      exact .not_enough_cycles
    · intro s₁
      refine RejectsWhen.of_start (rejectsWhen_proceed_crypto_base_fiat_quote_pair _ _
        handlerError_of_rejected handlerError_of_lookup ?_ _ _ _ s₁) s₁ []
      rintro rfl
      exact .crypto_not_found
  obtain ⟨s₁, held₁, hdone⟩ := Holds.run (fun _ _ _ => trivial) _ s [] n s' _ hcontract hrun
  cases gathered with
  | error e => exact hdone (congrArg Except.error (Except.error.inj herror))
  | ok operands => exact handlerError_of_composed herror

/-! ## The two arms

Both arms run one program and apply a different function to its result, so calls and states
agree by definition. The results mirror each other exactly when the inversion loses nothing,
which is stated on the prices the cache, the exchanges and the forex store supply. -/

variable {crypto fiat : String} {timestamp : Option ℕ}

omit [Features] [Unicode] [LruCache L CacheKey QueriedExchangeRate] in
/-- The renamings of the two arms exchange the roles. -/
theorem HandlerError.renamed (h : HandlerError request error) :
    invert_exchange_rate_error_for_fiat_crypto_pair error
      = (crypto_fiat_error error).exchanged := by
  cases h <;> rfl

omit [Features] [Unicode] [LruCache L CacheKey QueriedExchangeRate] in
/-- Both arms name the role the asset has in their own request. -/
theorem HandlerError.namesRole
    (h : HandlerError (cryptoFiat crypto fiat timestamp) error) :
    NamesRole (cryptoFiat crypto fiat timestamp) (crypto_fiat_error error)
      ∧ NamesRole (fiatCrypto fiat crypto timestamp)
        (invert_exchange_rate_error_for_fiat_crypto_pair error) := by
  cases h with
  | crypto_not_found => exact ⟨rfl, rfl⟩
  | fiat_not_found => exact ⟨rfl, rfl⟩
  | crypto_symbol_invalid h => exact ⟨⟨fun _ => h, nofun⟩, nofun, fun _ => h⟩
  | fiat_symbol_invalid h => exact ⟨⟨nofun, fun _ => h⟩, fun _ => h, nofun⟩
  | future_timestamp requested current => exact ⟨⟨nofun, nofun⟩, nofun, nofun⟩
  | invalid_rate => exact ⟨⟨nofun, nofun⟩, nofun, nofun⟩
  | _ => exact ⟨trivial, trivial⟩

/-- What both arms gather. -/
def gathered_pair (env : Environment) (crypto fiat : String) (timestamp : Option ℕ) (s : State L)
    (w : World (State L) Call Answer) (n : ℕ) :
    Option (State L × Except ExchangeRateError CryptoFiatOperands) :=
  (gather_crypto_base_fiat_quote_pair env (cryptoFiat crypto fiat timestamp) s).run w n

/-- **Both arms present what one handler gathered.** The fiat/crypto arm calls it with the assets
exchanged. So everything a run does is the same for both, and only the result is presented
differently. -/
theorem route_request_cryptoFiat :
    route_request env (cryptoFiat crypto fiat timestamp) s
      = (gather_crypto_base_fiat_quote_pair env (cryptoFiat crypto fiat timestamp) s).map
          fun gathered => crypto_fiat_result (gathered.bind crypto_fiat_rate) :=
  map_map _ _ _

theorem route_request_fiatCrypto :
    route_request env (fiatCrypto fiat crypto timestamp) s
      = (gather_crypto_base_fiat_quote_pair env (cryptoFiat crypto fiat timestamp) s).map
          fun gathered => fiat_crypto_result (gathered.bind crypto_fiat_rate) :=
  map_map _ _ _

/-- Fiat/crypto mirrors crypto/fiat, in one state and world: the results are mirrored and leave
the same state, the calls and the state after every segment are the same, and every error
names the role its asset has in the own request. -/
structure Mirrors (env : Environment) (crypto fiat : String) (timestamp : Option ℕ) (s : State L)
    (w : World (State L) Call Answer) (n : ℕ) : Prop where
  results : Option.Rel (fun a b => a.1 = b.1 ∧ MirroredResult a.2 b.2)
    ((route_request env (cryptoFiat crypto fiat timestamp) s).run w n)
    ((route_request env (fiatCrypto fiat crypto timestamp) s).run w n)
  calls : (route_request env (fiatCrypto fiat crypto timestamp) s).calls w n
    = (route_request env (cryptoFiat crypto fiat timestamp) s).calls w n
  segments : (route_request env (fiatCrypto fiat crypto timestamp) s).segments w n s
    = (route_request env (cryptoFiat crypto fiat timestamp) s).segments w n s
  roles : ∀ s' error,
    (route_request env (cryptoFiat crypto fiat timestamp) s).run w n = some (s', .error error) →
      NamesRole (cryptoFiat crypto fiat timestamp) error
  roles' : ∀ s' error,
    (route_request env (fiatCrypto fiat crypto timestamp) s).run w n = some (s', .error error) →
      NamesRole (fiatCrypto fiat crypto timestamp) error

/-- No acceptable price that the cache, the exchanges and the forex store supply is too small to
invert: the square of its scale, divided by it, fits in 64 bits. -/
def PricesInvertible (env : Environment) (crypto fiat : String) (timestamp : Option ℕ) (s : State L)
    (w : World (State L) Call Answer) (n : ℕ) : Prop :=
  ∀ p, SuppliesPrices env (cryptoFiat crypto fiat timestamp) s
      ((route_request env (cryptoFiat crypto fiat timestamp) s).answered w n) p →
    Acceptable p.rates → ∀ r ∈ p.rates, 10 ^ (2 * p.decimals) < 2 ^ 64 * r

/-- The rate that both arms compose has the prices they are supplied with. This takes the
condition on what was gathered over to one on what was supplied. -/
theorem gathered_pair_prices_iff (p : Prices) :
    (∃ s' operands rate, gathered_pair env crypto fiat timestamp s w n = some (s', .ok operands)
        ∧ crypto_fiat_rate operands = .ok rate ∧ rate.prices = p)
      ↔ SuppliesPrices env (cryptoFiat crypto fiat timestamp) s
          ((route_request env (cryptoFiat crypto fiat timestamp) s).answered w n) p
        ∧ Acceptable p.rates := by
  have hpair : is_crypto_fiat_pair (cryptoFiat crypto fiat timestamp) = true := rfl
  have hhandled : routed_request (cryptoFiat crypto fiat timestamp)
      = cryptoFiat crypto fiat timestamp := rfl
  rw [← composed_prices_iff hpair, hhandled]
  simp only [result_eq_some_iff, gathered_pair]
  constructor
  · rintro ⟨s', operands, rate, hrun, hrate⟩
    exact ⟨operands, rate, ⟨s', hrun⟩, hrate⟩
  · rintro ⟨operands, rate, ⟨s', hrun⟩, hrate⟩
    exact ⟨s', operands, rate, hrun, hrate⟩

omit [Features] [Unicode] [LruCache L CacheKey QueriedExchangeRate] in
/-- The results of both arms are mirrored when the composed rate, if any, can be inverted. On
errors this holds without any condition, by the way in which the arms rename them. -/
theorem mirroredResult_iff {result : RateResult}
    (herror : ∀ error, result = .error error →
      HandlerError (cryptoFiat crypto fiat timestamp) error) :
    MirroredResult (crypto_fiat_result result) (fiat_crypto_result result)
      ↔ ∀ rate, result = .ok rate → rate.InvertsExactly := by
  cases result with
  | error error =>
      refine iff_of_true ?_ nofun
      -- both arms rename the error of the handler, each in its own way
      have hrenamed := (herror error rfl).renamed
      unfold crypto_fiat_result fiat_crypto_result
      simp only [Except.map, Except.mapError, hrenamed]
      exact .error _
  | ok rate =>
      constructor
      · -- the rate of the fiat/crypto arm is the inverse of the other's
        rintro (h | _) rate' heq
        obtain rfl := Except.ok.inj heq
        exact isInverse_inverted_iff.mp h
      · intro hexact
        exact .ok (isInverse_inverted_iff.mpr (hexact rate rfl))

/-- The errors of a run of both arms. -/
theorem handlerError_of_gathered {gathered : Except ExchangeRateError CryptoFiatOperands}
    (hrun : gathered_pair env crypto fiat timestamp s w n = some (s', gathered)) :
    ∀ error, gathered.bind crypto_fiat_rate = .error error →
      HandlerError (cryptoFiat crypto fiat timestamp) error := fun _ herror =>
  handlerError_of_run hrun herror

/-- Mirrored results can be inverted. -/
theorem Mirrors.pricesInvertible (h : Mirrors env crypto fiat timestamp s w n) :
    PricesInvertible env crypto fiat timestamp s w n := by
  intro p hsupplied hacceptable
  obtain ⟨s', operands, rate, hgathered, hcomposed, rfl⟩ :=
    (gathered_pair_prices_iff p).mpr ⟨hsupplied, hacceptable⟩
  have herrors := handlerError_of_gathered hgathered
  have hrate := composed_of_crypto_fiat_rate hcomposed
  have hresults := h.results
  unfold gathered_pair at hgathered
  rw [route_request_cryptoFiat, route_request_fiatCrypto, run_map, run_map, hgathered] at hresults
  cases hresults with
  | some hmirrored =>
      exact (inverts_exactly_iff hrate.inRange hrate.decimals_le).mp
        ((mirroredResult_iff herrors).mp hmirrored.2 rate hcomposed)

/-- **The mirror image of a run.** The calls and what is left behind are those of the one handler,
and the results are compared for each of its outcomes: an error by its kind, and a rate by its
inverse. -/
theorem mirrors_of_pricesInvertible (h : PricesInvertible env crypto fiat timestamp s w n) :
    Mirrors env crypto fiat timestamp s w n where
  results := by
    rw [route_request_cryptoFiat, route_request_fiatCrypto, run_map, run_map]
    cases hgathered : (gather_crypto_base_fiat_quote_pair env
        (cryptoFiat crypto fiat timestamp) s).run w n with
    | none => exact .none
    | some r =>
        refine .some ⟨rfl, (mirroredResult_iff (handlerError_of_gathered hgathered)).mpr ?_⟩
        -- a rate that both arms present has prices that were supplied, so it can be inverted
        intro rate hbound
        obtain ⟨operands, hoperands, hcomposed⟩ := bind_eq_ok_iff.mp hbound
        have hrate := composed_of_crypto_fiat_rate hcomposed
        obtain ⟨hsupplied, hacceptable⟩ := (gathered_pair_prices_iff rate.prices).mp
          ⟨r.1, operands, rate, by rw [gathered_pair, hgathered, ← hoperands], hcomposed, rfl⟩
        exact (inverts_exactly_iff hrate.inRange hrate.decimals_le).mpr
          (h rate.prices hsupplied hacceptable)
  calls := by
    rw [route_request_cryptoFiat, route_request_fiatCrypto, calls_map, calls_map]
  segments := by
    rw [route_request_cryptoFiat, route_request_fiatCrypto, segments_map, segments_map]
  -- each error is one the handler can end in, and is renamed by its arm
  roles := by
    intro s' error hrun
    rw [route_request_cryptoFiat, run_map, Option.map_eq_some_iff] at hrun
    obtain ⟨⟨s'', gathered⟩, hgathered, heq⟩ := hrun
    obtain ⟨e, hbound, rfl⟩ := mapError_eq_error_iff.mp (Prod.mk.inj heq).2
    exact (handlerError_of_gathered hgathered e hbound).namesRole.1
  roles' := by
    intro s' error hrun
    rw [route_request_fiatCrypto, run_map, Option.map_eq_some_iff] at hrun
    obtain ⟨⟨s'', gathered⟩, hgathered, heq⟩ := hrun
    obtain ⟨e, hbound, rfl⟩ := mapError_eq_error_iff.mp (Prod.mk.inj heq).2
    have hbound' := map_ne_error _ hbound
    exact (handlerError_of_gathered hgathered e hbound').namesRole.2

/-- **Fiat/crypto mirrors crypto/fiat**, in every state and world and for all assets and
timestamps, exactly when none of the prices supplied is too small to invert. Only
the inverse depends on that: the state left behind, the calls, and the errors, each with the
roles exchanged, are always the same.

Both arms run one handler, so what they leave behind needs no argument; the errors are those
of `HandlerError`, on which the two renamings agree. -/
theorem fiat_crypto_mirrors_iff (env : Environment) (crypto fiat : String)
    (timestamp : Option ℕ) (s : State L) (w : World (State L) Call Answer) (n : ℕ) :
    Mirrors env crypto fiat timestamp s w n
      ↔ PricesInvertible env crypto fiat timestamp s w n :=
  ⟨Mirrors.pricesInvertible, mirrors_of_pricesInvertible⟩

end Handler

/-! ## A rate of dust

A coin worth a billionth of a dollar against a currency worth more than three of them: the
quotient of the inversion no longer fits in a word. -/

/-- **KWD/BABYDOGE**: both pairs are answered, and the rate of one is not the inverse of the
other. -/
theorem dust_mirror_broken :
    letI := defaultBuild
    letI := asciiUnicode
    ¬ ∀ (env : Environment) (crypto fiat : String) (timestamp : Option ℕ) (s : State RecentRates)
        (w : World (State RecentRates) Call Answer) (n : ℕ),
      Mirrors env crypto fiat timestamp s w n := by
  let _ := defaultBuild
  let _ := asciiUnicode
  intro h
  have hinvertible := (h (Environment.ordinary 1_700_000_000) "BABYDOGE" "KWD"
    (some 1_699_833_600)
    (stateOf (ForexRateStore.oneDayStore "KWD" 3_250_000_000 1_699_833_600) (cacheOf []))
    (CallExchangesImpl.undisturbed 1_700_000_000 dustPrice) 0).pricesInvertible
  -- the rate that is composed has a price that is too small
  obtain ⟨s', operands, rate, hrun, hcomposed, r, hr, hlarge⟩ := dust_composed
  have hpair : invert_assets_in_request (sanitize_request (dustRequest "KWD"))
      = cryptoFiat "BABYDOGE" "KWD" (some 1_699_833_600) := by
    decide
  rw [gathered_operands, hpair] at hrun
  obtain ⟨hsupplied, hacceptable⟩ := (gathered_pair_prices_iff rate.prices).mp
    ⟨s', operands, rate, hrun, hcomposed, rfl⟩
  exact hlarge (hinvertible rate.prices hsupplied hacceptable r hr)

end Xrc
