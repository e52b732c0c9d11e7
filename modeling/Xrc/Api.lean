/-
`api.rs`: the request handlers. A handler is a function from the state it starts in to
the computation of its segments; its calls are those of the trait `CallExchanges`, whose
implementation is in `Xrc.Outcalls`.

Each asynchronous handler is split in two: `gather_*` is everything up to the last
answer, and returns the rates the answer is composed of; the composition itself
(`crypto_crypto_rate`, `crypto_fiat_rate`) touches no state and is applied to the
result. All failures of a handler are failures to gather or to compose.
-/
import Xrc.State
import Xrc.Stablecoin

set_option autoImplicit false

namespace Xrc

/-! ## Calls

The handlers see the outside world through two methods. A call is a value with its arguments, so
that a result about outcalls can speak of which exchanges were asked for what. -/

/-- A rate with the exchanges that failed over HTTP. -/
structure QueriedExchangeRateWithFailedExchanges where
  queried_exchange_rate : QueriedExchangeRate
  failed_exchanges : List Exchange

/-- The result of one query for rates. -/
abbrev QueryResult : Type := Except CallExchangeError QueriedExchangeRateWithFailedExchanges

/-- The methods of the trait `CallExchanges`. They are the only places where the handlers await
something, so the calls are the suspension points, and what an answer to one may be is the model's
interface to the exchanges. -/
inductive Call where
  | get_cryptocurrency_usdt_rate (exchanges : List Exchange) (asset : Asset) (timestamp : ℕ)
  | get_stablecoin_rates (exchanges : List Exchange) (symbols : List String) (timestamp : ℕ)

/-- What they return. -/
abbrev Answer : Call → Type
  | .get_cryptocurrency_usdt_rate _ _ _ => QueryResult
  | .get_stablecoin_rates _ _ _ => List QueryResult

/-- A running handler. It keeps its pairs in `Guard`s while it awaits the answer to a `Call`, and
the state may be another one when it goes on. -/
abbrev Handler (L : Type) : Type → Type := Async (State L) Guard Call Answer

/-- The result of a request. -/
abbrev RateResult : Type := Except ExchangeRateError QueriedExchangeRate

/-- The expected base rates for stablecoins. -/
def STABLECOIN_BASES : List String := [USDC, USDS]

/-- A cached rate is only used for privileged canisters if there are at least this many
source rates. -/
def MIN_NUM_RATES_FOR_PRIVILEGED_CANISTERS [Features] : ℕ :=
  if Features.ipv4_support then 3 else 2

/-! ## Normalised timestamps

A price is one of a minute. When the current minute is being fetched already, a request without
a timestamp is given the one before, whose rates are likely to be cached. The type remembers it,
since such a request is only served if they are: it may not fetch anything. -/

inductive NormalizedTimestampType where
  | RequestedOrCurrent
  | Past
  deriving DecidableEq, Repr

structure NormalizedTimestamp where
  value : ℕ
  type : NormalizedTimestampType
  deriving DecidableEq, Repr

namespace NormalizedTimestamp

def requested_or_current (value : ℕ) : NormalizedTimestamp := ⟨value, .RequestedOrCurrent⟩

def past (value : ℕ) : NormalizedTimestamp := ⟨value, .Past⟩

end NormalizedTimestamp

section Handlers

variable {L : Type}

/-- `get_normalized_timestamp`: without a requested timestamp, one minute back while an
asset is being fetched for the current one. -/
def get_normalized_timestamp (env : Environment) (request : GetExchangeRateRequest)
    (s : State L) : NormalizedTimestamp :=
  let timestamp := utils.get_normalized_timestamp env request
  if request.timestamp.isSome then .requested_or_current timestamp
  else if is_inflight s request.base_asset timestamp
      || is_inflight s request.quote_asset timestamp then
    .past (timestamp - ONE_MINUTE_SECONDS)
  else .requested_or_current timestamp

/-! ## Reading the cache

Assets are read for a caller, with the check that privileged callers are not served thin rates.
Stablecoins are read in a loop of their own, which makes no such check. -/

section Cache

variable [Features] [Unicode] [LruCache L CacheKey QueriedExchangeRate]

/-- Whether a cached rate is used for a caller. -/
def usable_for (caller : Principal) (rate : QueriedExchangeRate) : Bool :=
  !is_caller_privileged caller || decide (rate.base_asset.symbol = USDT)
    || decide (MIN_NUM_RATES_FOR_PRIVILEGED_CANISTERS ≤ rate.rates.length)

/-- `get_rate_from_cache`. -/
def get_rate_from_cache (cache : ExchangeRateCache L) (caller : Principal) (symbol : String)
    (timestamp : ℕ) : Option QueriedExchangeRate × ExchangeRateCache L :=
  let found := cache.get symbol timestamp
  (found.1.filter (usable_for caller), found.2)

/-- The stablecoin rates in the cache, the symbols that were missed, and the cache. The loop reads
the cache directly and moves what it finds to the front, so the cache comes back changed. -/
structure StablecoinsRead (L : Type) where
  stablecoin_rates : List QueriedExchangeRate
  missed_stablecoin_symbols : List String
  cache : ExchangeRateCache L

/-- One round of the loop over the stablecoin bases. -/
def read_stablecoin (timestamp : ℕ) (acc : StablecoinsRead L) (symbol : String) :
    StablecoinsRead L :=
  let found := acc.cache.get symbol timestamp
  match found.1 with
  | some rate => ⟨acc.stablecoin_rates ++ [rate], acc.missed_stablecoin_symbols, found.2⟩
  | none => ⟨acc.stablecoin_rates, acc.missed_stablecoin_symbols ++ [symbol], found.2⟩

/-- The stablecoin rates from the cache, with the symbols that were missed. -/
def read_stablecoins (cache : ExchangeRateCache L) (timestamp : ℕ) : StablecoinsRead L :=
  STABLECOIN_BASES.foldl (read_stablecoin timestamp) ⟨[], [], cache⟩

end Cache

/-! ## Validation and charging

The order of the two differs between the handlers, and with it who pays for a rejected request.
`charge_cycles` takes what comes after it as an argument: a charge that fails is the end. -/

inductive ValidateRequestError where
  | FutureTimestamp (requested_timestamp current_timestamp : ℕ)
  | RateLimited
  | AlreadyInflight
  | PastTimestampNotCached
  | BaseAssetInvalidSymbol
  | QuoteAssetInvalidSymbol
  deriving DecidableEq, Repr

/-- `From<ValidateRequestError> for ExchangeRateError`. -/
def ValidateRequestError.into : ValidateRequestError → ExchangeRateError
  | FutureTimestamp requested_timestamp current_timestamp =>
    errors.timestamp_is_in_future_error requested_timestamp current_timestamp
  | RateLimited => .RateLimited
  | AlreadyInflight => .Pending
  | PastTimestampNotCached => .Pending
  | BaseAssetInvalidSymbol => errors.base_asset_symbol_invalid_error
  | QuoteAssetInvalidSymbol => errors.quote_asset_symbol_invalid_error

/-- Whether a cryptocurrency of the request is being fetched. -/
def has_inflight_crypto (s : State L) (request : GetExchangeRateRequest) (timestamp : ℕ) : Bool :=
  (decide (request.base_asset.class' = .Cryptocurrency)
      && is_inflight s request.base_asset timestamp)
    || (decide (request.quote_asset.class' = .Cryptocurrency)
      && is_inflight s request.quote_asset timestamp)

/-- `validate_request`. -/
def validate_request [Features] (env : Environment) (request : GetExchangeRateRequest)
    (num_rates_needed : ℕ) (requested_timestamp : NormalizedTimestamp) (s : State L) :
    Except ValidateRequestError Unit :=
  let current_timestamp := env.time_secs
  if current_timestamp < requested_timestamp.value then
    .error (.FutureTimestamp requested_timestamp.value current_timestamp)
  else if request.base_asset.symbol.isEmpty then .error .BaseAssetInvalidSymbol
  else if request.quote_asset.symbol.isEmpty then .error .QuoteAssetInvalidSymbol
  else if is_caller_privileged env.caller then .ok ()
  else if is_rate_limited s num_rates_needed request then .error .RateLimited
  else if has_inflight_crypto s request requested_timestamp.value then .error .AlreadyInflight
  else if requested_timestamp.type = .Past ∧ 0 < num_rates_needed then
    .error .PastTimestampNotCached
  else .ok ()

/-- `charge_cycles(..)?`, and what comes after it. -/
def charge_cycles {α : Type} (env : Environment) (num_rates_needed : ℕ)
    (is_valid_request : Bool) (s : State L)
    (rest : State L → Handler L (Except ExchangeRateError α)) :
    Handler L (Except ExchangeRateError α) :=
  if is_caller_privileged env.caller then rest s
  else
    let charge_cycles_option :=
      if is_valid_request then ChargeOption.OutboundRatesNeeded num_rates_needed
      else .MinimumFee
    match env.charge_cycles charge_cycles_option with
    | .charged fee => rest { s with accepted := s.accepted ++ [fee] }
    | .NotEnoughCycles => .done s (.error .NotEnoughCycles)
    | .panicked => .trap

/-! ## Fetching

A handler is suspended for the rates that it did not find in the cache. What is fetched is put there
at the start of the next segment, and an exchange that failed over HTTP is not asked again in the
second phase. -/

section Fetch

variable [Features] [Unicode] [LruCache L CacheKey QueriedExchangeRate]

/-- One rate of a handler: the one from the cache, or the answer of the exchanges, which
is then cached. What follows receives it with the exchanges that failed. -/
def fetch_rate {α : Type} (exchanges : List Exchange) (asset : Asset) (timestamp : ℕ)
    (not_found : ExchangeRateError) (maybe_rate : Option QueriedExchangeRate)
    (rest : QueriedExchangeRate → List Exchange → State L →
      Handler L (Except ExchangeRateError α)) (s : State L) :
    Handler L (Except ExchangeRateError α) :=
  match maybe_rate with
  | some rate => rest rate [] s
  | none =>
    .await s [] (.get_cryptocurrency_usdt_rate exchanges asset timestamp)
      fun (answer : QueryResult) s =>
        match answer with
        | .error _ => .done s (.error not_found)
        | .ok response =>
          rest response.queried_exchange_rate response.failed_exchanges
            { s with cache := s.cache.insert response.queried_exchange_rate }

/-- The exchanges that have not failed. -/
def retain_exchanges (exchanges failed_exchanges : List Exchange) : List Exchange :=
  exchanges.filter fun exchange => decide (exchange ∉ failed_exchanges)

/-! ## Crypto pairs

Both assets are priced in USDT, and the answer is the quotient of the two. The stages of the
handler are definitions of their own, each with what it has found out so far as arguments. -/

/-- The rates a crypto pair is composed of. -/
structure CryptoCryptoOperands where
  base_rate : QueriedExchangeRate
  quote_rate : QueriedExchangeRate

/-- The answer for a crypto pair. -/
def crypto_crypto_rate (operands : CryptoCryptoOperands) : RateResult :=
  (operands.base_rate / operands.quote_rate).validate

/-- The number of rates a crypto pair has to fetch. -/
def crypto_pair_rates_needed (maybe_base_rate maybe_quote_rate : Option QueriedExchangeRate) :
    ℕ :=
  (if maybe_base_rate.isNone then 1 else 0) + if maybe_quote_rate.isNone then 1 else 0

/-- The two phases of fetching a crypto pair. -/
def fetch_cryptocurrency_pair (request : GetExchangeRateRequest) (timestamp : ℕ)
    (maybe_base_rate maybe_quote_rate : Option QueriedExchangeRate) (s : State L) :
    Handler L (Except ExchangeRateError CryptoCryptoOperands) :=
  let exchanges := get_available_exchanges
  fetch_rate exchanges request.base_asset timestamp .CryptoBaseAssetNotFound maybe_base_rate
    (fun base_rate failed_exchanges s =>
      fetch_rate (retain_exchanges exchanges failed_exchanges) request.quote_asset timestamp
        .CryptoQuoteAssetNotFound maybe_quote_rate
        (fun quote_rate _ s => .done s (.ok ⟨base_rate, quote_rate⟩)) s) s

/-- What a crypto pair does once it is charged. -/
def proceed_cryptocurrency_pair (request : GetExchangeRateRequest) (timestamp : ℕ)
    (validate_request_result : Except ValidateRequestError Unit)
    (maybe_base_rate maybe_quote_rate : Option QueriedExchangeRate) (s : State L) :
    Handler L (Except ExchangeRateError CryptoCryptoOperands) :=
  match validate_request_result with
  | .error error => .done s (.error error.into)
  | .ok () =>
    match maybe_base_rate, maybe_quote_rate with
    | some base_rate, some quote_rate => .done s (.ok ⟨base_rate, quote_rate⟩)
    | maybe_base_rate, maybe_quote_rate =>
      with_inflight_tracking [request.base_asset.symbol, request.quote_asset.symbol] timestamp
        (with_request_counter (crypto_pair_rates_needed maybe_base_rate maybe_quote_rate)
          (fetch_cryptocurrency_pair request timestamp maybe_base_rate maybe_quote_rate)) s

/-- What a crypto pair reads from the cache: its two rates, and the cache. -/
def read_cryptocurrency_pair (env : Environment) (request : GetExchangeRateRequest)
    (timestamp : ℕ) (cache : ExchangeRateCache L) :
    Option QueriedExchangeRate × Option QueriedExchangeRate × ExchangeRateCache L :=
  let base_read := get_rate_from_cache cache env.caller request.base_asset.symbol timestamp
  let quote_read :=
    get_rate_from_cache base_read.2 env.caller request.quote_asset.symbol timestamp
  (base_read.1, quote_read.1, quote_read.2)

/-- `handle_cryptocurrency_pair` up to the composition of the rates. -/
def gather_cryptocurrency_pair (env : Environment) (request : GetExchangeRateRequest)
    (s : State L) : Handler L (Except ExchangeRateError CryptoCryptoOperands) :=
  let requested_timestamp := get_normalized_timestamp env request s
  let read := read_cryptocurrency_pair env request requested_timestamp.value s.cache
  let num_rates_needed := crypto_pair_rates_needed read.1 read.2.1
  let validate_request_result :=
    validate_request env request num_rates_needed requested_timestamp s
  charge_cycles env num_rates_needed validate_request_result.isOk
    { s with cache := read.2.2 }
    (proceed_cryptocurrency_pair request requested_timestamp.value validate_request_result
      read.1 read.2.1)

/-- `handle_cryptocurrency_pair`. -/
def handle_cryptocurrency_pair (env : Environment) (request : GetExchangeRateRequest)
    (s : State L) : Handler L RateResult :=
  (gather_cryptocurrency_pair env request s).map fun gathered =>
    gathered.bind crypto_crypto_rate

/-! ## Crypto/fiat pairs

The asset is priced in USDT, USDT in dollars by way of the stablecoins, and the dollar in the
fiat currency by the forex store. The stablecoins are fetched first. -/

/-- The rates a crypto/fiat pair is composed of. -/
structure CryptoFiatOperands where
  crypto_base_rate : QueriedExchangeRate
  stablecoin_rates : List QueriedExchangeRate
  forex_rate : QueriedExchangeRate

/-- The crypto rate in US dollars, in the fiat currency, validated. -/
def crypto_fiat_rate (operands : CryptoFiatOperands) : RateResult :=
  match stablecoin.get_stablecoin_rate operands.stablecoin_rates usd_asset with
  | .error error => .error error.into
  | .ok stablecoin_rate =>
    let crypto_usd_base_rate := operands.crypto_base_rate * stablecoin_rate
    (crypto_usd_base_rate / operands.forex_rate).validate

/-- The number of rates a crypto/fiat pair has to fetch. -/
def crypto_fiat_rates_needed (maybe_crypto_base_rate : Option QueriedExchangeRate)
    (missed_stablecoin_symbols : List String) : ℕ :=
  (if maybe_crypto_base_rate.isNone then 1 else 0) + missed_stablecoin_symbols.length

/-- What the answers for the missed stablecoins accumulate. -/
structure StablecoinsFetched (L : Type) where
  stablecoin_rates : List QueriedExchangeRate
  failed_exchanges : List Exchange
  cache : ExchangeRateCache L

/-- One round of the loop over these answers. -/
def collect_stablecoin (acc : StablecoinsFetched L) (result : QueryResult × String) :
    StablecoinsFetched L :=
  match result.1 with
  | .ok response =>
    { stablecoin_rates := acc.stablecoin_rates ++ [response.queried_exchange_rate]
      failed_exchanges := acc.failed_exchanges ++ response.failed_exchanges
      cache := acc.cache.insert response.queried_exchange_rate }
  | .error _ => acc

/-- The two phases of fetching a crypto/fiat pair. -/
def fetch_crypto_fiat_pair (request : GetExchangeRateRequest) (timestamp : ℕ)
    (maybe_crypto_base_rate : Option QueriedExchangeRate)
    (stablecoin_rates : List QueriedExchangeRate) (missed_stablecoin_symbols : List String)
    (forex_rate : QueriedExchangeRate) (s : State L) :
    Handler L (Except ExchangeRateError CryptoFiatOperands) :=
  let exchanges := get_available_exchanges
  .await s [] (.get_stablecoin_rates exchanges missed_stablecoin_symbols timestamp)
    fun (stablecoin_results : List QueryResult) s =>
      let fetched := (stablecoin_results.zip missed_stablecoin_symbols).foldl collect_stablecoin
        ⟨stablecoin_rates, [], s.cache⟩
      fetch_rate (retain_exchanges exchanges fetched.failed_exchanges) request.base_asset
        timestamp .CryptoBaseAssetNotFound maybe_crypto_base_rate
        (fun crypto_base_rate _ s =>
          .done s (.ok ⟨crypto_base_rate, fetched.stablecoin_rates, forex_rate⟩))
        { s with cache := fetched.cache }

/-- The forex lookup of a crypto/fiat pair: the fiat currency against USD. -/
def lookup_fiat (env : Environment) (request : GetExchangeRateRequest) (timestamp : ℕ)
    (s : State L) : RateResult :=
  (s.forex_store.get timestamp env.time_secs request.quote_asset.symbol USD).mapError
    GetForexRateError.into

/-- What a crypto/fiat pair does once it is charged. -/
def proceed_crypto_base_fiat_quote_pair (request : GetExchangeRateRequest) (timestamp : ℕ)
    (validate_request_result : Except ValidateRequestError Unit)
    (forex_rate_result : RateResult) (maybe_crypto_base_rate : Option QueriedExchangeRate)
    (stablecoin_rates : List QueriedExchangeRate) (missed_stablecoin_symbols : List String)
    (s : State L) : Handler L (Except ExchangeRateError CryptoFiatOperands) :=
  match validate_request_result with
  | .error error => .done s (.error error.into)
  | .ok () =>
    match forex_rate_result with
    | .error error => .done s (.error error)
    | .ok forex_rate =>
      match maybe_crypto_base_rate, missed_stablecoin_symbols with
      | some crypto_base_rate, [] =>
        .done s (.ok ⟨crypto_base_rate, stablecoin_rates, forex_rate⟩)
      | maybe_crypto_base_rate, missed_stablecoin_symbols =>
        with_inflight_tracking [request.base_asset.symbol] timestamp
          (with_request_counter
            (crypto_fiat_rates_needed maybe_crypto_base_rate missed_stablecoin_symbols)
            (fetch_crypto_fiat_pair request timestamp maybe_crypto_base_rate stablecoin_rates
              missed_stablecoin_symbols forex_rate)) s

/-- What a crypto/fiat pair reads from the cache: its crypto rate, and the stablecoins. -/
def read_crypto_fiat_pair (env : Environment) (request : GetExchangeRateRequest)
    (timestamp : ℕ) (cache : ExchangeRateCache L) :
    Option QueriedExchangeRate × StablecoinsRead L :=
  let base_read := get_rate_from_cache cache env.caller request.base_asset.symbol timestamp
  (base_read.1, read_stablecoins base_read.2 timestamp)

/-- `handle_crypto_base_fiat_quote_pair` up to the composition of the rates. -/
def gather_crypto_base_fiat_quote_pair (env : Environment) (request : GetExchangeRateRequest)
    (s : State L) : Handler L (Except ExchangeRateError CryptoFiatOperands) :=
  let requested_timestamp := get_normalized_timestamp env request s
  let read := read_crypto_fiat_pair env request requested_timestamp.value s.cache
  let num_rates_needed := crypto_fiat_rates_needed read.1 read.2.missed_stablecoin_symbols
  let validate_request_result :=
    validate_request env request num_rates_needed requested_timestamp s
  let forex_rate_result := lookup_fiat env request requested_timestamp.value s
  charge_cycles env num_rates_needed
    (validate_request_result.isOk && forex_rate_result.isOk)
    { s with cache := read.2.cache }
    (proceed_crypto_base_fiat_quote_pair request requested_timestamp.value
      validate_request_result forex_rate_result read.1 read.2.stablecoin_rates
      read.2.missed_stablecoin_symbols)

/-- `handle_crypto_base_fiat_quote_pair`. -/
def handle_crypto_base_fiat_quote_pair (env : Environment) (request : GetExchangeRateRequest)
    (s : State L) : Handler L RateResult :=
  (gather_crypto_base_fiat_quote_pair env request s).map fun gathered =>
    gathered.bind crypto_fiat_rate

end Fetch

/-! ## Fiat pairs and routing

A fiat pair needs no outcall. A fiat/crypto pair is the crypto/fiat pair the other way round:
its assets are swapped, and then the rate is inverted, or the error renamed. -/

section Route

variable [Features] [Unicode] [LruCache L CacheKey QueriedExchangeRate]

/-- The forex lookup of a fiat pair, validated. -/
def fiat_rate (env : Environment) (request : GetExchangeRateRequest) (timestamp : ℕ)
    (s : State L) : RateResult :=
  ((s.forex_store.get timestamp env.time_secs request.base_asset.symbol
    request.quote_asset.symbol).mapError GetForexRateError.into).bind
    QueriedExchangeRate.validate

/-- `handle_fiat_pair`. A request that fails the validation returns before the charge. -/
def handle_fiat_pair (env : Environment) (request : GetExchangeRateRequest) (s : State L) :
    Handler L RateResult :=
  let requested_timestamp :=
    NormalizedTimestamp.requested_or_current (utils.get_normalized_timestamp env request)
  match validate_request env request 0 requested_timestamp s with
  | .error error => .done s (.error error.into)
  | .ok () =>
    let result := fiat_rate env request requested_timestamp.value s
    charge_cycles env 0 result.isOk s fun s => .done s result

/-- `invert_assets_in_request`. -/
def invert_assets_in_request (request : GetExchangeRateRequest) : GetExchangeRateRequest :=
  { base_asset := request.quote_asset
    quote_asset := request.base_asset
    timestamp := request.timestamp }

/-- `invert_exchange_rate_error_for_fiat_crypto_pair`. -/
def invert_exchange_rate_error_for_fiat_crypto_pair (error : ExchangeRateError) :
    ExchangeRateError :=
  match error with
  | .CryptoBaseAssetNotFound => .CryptoQuoteAssetNotFound
  | .ForexQuoteAssetNotFound => .ForexBaseAssetNotFound
  | .Other other_error =>
    if other_error.code = errors.BASE_ASSET_INVALID_SYMBOL_ERROR_CODE then
      errors.quote_asset_symbol_invalid_error
    else if other_error.code = errors.QUOTE_ASSET_INVALID_SYMBOL_ERROR_CODE then
      errors.base_asset_symbol_invalid_error
    else error
  | _ => error

/-- The error of a crypto/fiat pair: the base of its forex lookup is its quote. -/
def crypto_fiat_error (error : ExchangeRateError) : ExchangeRateError :=
  match error with
  | .ForexBaseAssetNotFound => .ForexQuoteAssetNotFound
  | _ => error

/-- What `route_request` makes of the result for a crypto/fiat pair. -/
def crypto_fiat_result (result : RateResult) : RateResult := result.mapError crypto_fiat_error

/-- What `route_request` makes of the result for the inverted fiat/crypto pair. -/
def fiat_crypto_result (result : RateResult) : RateResult :=
  (result.map QueriedExchangeRate.inverted).mapError
    invert_exchange_rate_error_for_fiat_crypto_pair

/-- `route_request`: one handler for each combination of the asset classes. The arm of fiat/crypto
pairs inverts a rate that the handler has validated, and does not validate the inverse. -/
def route_request (env : Environment) (request : GetExchangeRateRequest) (s : State L) :
    Handler L RateResult :=
  match request.base_asset.class', request.quote_asset.class' with
  | .Cryptocurrency, .Cryptocurrency => handle_cryptocurrency_pair env request s
  | .Cryptocurrency, .FiatCurrency =>
    (handle_crypto_base_fiat_quote_pair env request s).map crypto_fiat_result
  | .FiatCurrency, .Cryptocurrency =>
    (handle_crypto_base_fiat_quote_pair env (invert_assets_in_request request) s).map
      fiat_crypto_result
  | .FiatCurrency, .FiatCurrency => handle_fiat_pair env request s

/-- `get_exchange_rate_internal` up to the conversion of the rate. An anonymous caller is turned
away before anything else, and the symbols are sanitized before the request is routed. -/
def answer_request (env : Environment) (request : GetExchangeRateRequest) (s : State L) :
    Handler L RateResult :=
  if is_caller_anonymous env.caller then .done s (.error .AnonymousPrincipalNotAllowed)
  else if !is_caller_privileged env.caller && !env.has_enough_cycles then
    .done s (.error .NotEnoughCycles)
  else route_request env (sanitize_request request) s

/-- `get_exchange_rate_internal`. -/
def get_exchange_rate_internal (env : Environment) (request : GetExchangeRateRequest)
    (s : State L) : Handler L (Except ExchangeRateError ExchangeRate) :=
  (answer_request env request s).map fun result => result.map QueriedExchangeRate.into

end Route

end Handlers

end Xrc
