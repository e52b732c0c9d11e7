/-
What a request handler does to the shared state besides the cache: it charges in its
first segment, registers its symbols and reserves its outcalls when it goes on to fetch,
and gives both back in its last segment. `Tracked` says so as a contract of every
segment, `tracked_route_request` proves it of every request, once for all asset classes;
the accounting, the charging and the in-flight results are read off it.

The fetching phases themselves are `Quiet`: they touch nothing but the cache, own no
guards and make no more outcalls than were reserved.
-/
import Xrc.Outcalls

set_option autoImplicit false

namespace Xrc

open Async CallExchangesImpl

variable [Features] [Unicode] {L α : Type}

/-! ## The fetching phases

While it fetches, a handler touches nothing but the cache, and makes no call that exceeds what
is reserved. `Quiet` says so of every segment, and `fetch_rate` is the only step there is to
prove it of. -/

/-- A call makes no more HTTP requests than are reserved for `num_rates_needed` rates. How many
requests a call makes depends on the listings, as exchanges without the pair are not asked, and
never exceeds the number of exchanges. -/
def CallWithin (num_rates_needed : ℕ) (call : Call) : Prop :=
  ∀ listing_store now_secs,
    outcalls listing_store now_secs call ≤ available_exchanges_count * num_rates_needed

/-- The contract of a fetching phase. -/
def Quiet (num_rates_needed : ℕ) : Contract (State L) Guard Call Answer α where
  onDone a held b _ := held = [] ∧ ∃ cache, b = { a with cache := cache }
  onAwait a held b held' call :=
    held = [] ∧ held' = [] ∧ (∃ cache, b = { a with cache := cache })
      ∧ CallWithin num_rates_needed call
  onTrap := False
  answers _ _ := True

omit [Features] [Unicode] in
theorem length_retain_exchanges_le (exchanges failed_exchanges : List Exchange) :
    (retain_exchanges exchanges failed_exchanges).length ≤ exchanges.length :=
  List.length_filter_le _ _

/-- A query of some of the available exchanges stays within one rate. -/
theorem callWithin_crypto {num_rates_needed : ℕ} (hneeded : 0 < num_rates_needed)
    {exchanges : List Exchange} (h : exchanges.length ≤ available_exchanges_count) (asset : Asset)
    (timestamp : ℕ) :
    CallWithin num_rates_needed (.get_cryptocurrency_usdt_rate exchanges asset timestamp) := by
  intro listing_store now_secs
  exact ((outcalls_crypto_le listing_store now_secs exchanges asset timestamp).trans h).trans
    (Nat.le_mul_of_pos_right _ hneeded)

/-- A query for stablecoins stays within one rate for each of them. -/
theorem callWithin_stablecoins {num_rates_needed : ℕ} {symbols : List String}
    (h : symbols.length ≤ num_rates_needed) (timestamp : ℕ) :
    CallWithin num_rates_needed
      (.get_stablecoin_rates get_available_exchanges symbols timestamp) := by
  intro listing_store now_secs
  exact (outcalls_stablecoins_le listing_store now_secs _ symbols timestamp).trans
    (Nat.mul_le_mul_left _ h)

section Cached

variable [LruCache L CacheKey QueriedExchangeRate]

/-- **The rule of `fetch_rate`.** A rate that is at hand leads on to the rest at once; one that is
not is asked for first, and the rest goes on with a cache that may have changed. -/
theorem quiet_fetch_rate {num_rates_needed : ℕ} {exchanges : List Exchange} {asset : Asset}
    {timestamp : ℕ} {not_found : ExchangeRateError} {maybe_rate : Option QueriedExchangeRate}
    {rest : QueriedExchangeRate → List Exchange → State L →
      Handler L (Except ExchangeRateError α)}
    (hcall : maybe_rate = none → CallWithin num_rates_needed
      (.get_cryptocurrency_usdt_rate exchanges asset timestamp))
    (hrest : ∀ rate failed_exchanges (s : State L) cache,
      Holds (Quiet num_rates_needed) s [] (rest rate failed_exchanges { s with cache := cache }))
    (s : State L) (cache : ExchangeRateCache L) :
    Holds (Quiet num_rates_needed) s []
      (fetch_rate exchanges asset timestamp not_found maybe_rate rest
        { s with cache := cache }) := by
  cases maybe_rate with
  | some rate => exact hrest rate [] s cache
  | none =>
      refine ⟨⟨rfl, rfl, ⟨cache, rfl⟩, hcall rfl⟩, fun answer s' _ => ?_⟩
      cases answer with
      | error error => exact ⟨rfl, s'.cache, rfl⟩
      | ok response => exact hrest _ _ s' _

theorem quiet_fetch_cryptocurrency_pair (request : GetExchangeRateRequest) (timestamp : ℕ)
    (maybe_base_rate maybe_quote_rate : Option QueriedExchangeRate) (s : State L) :
    Holds (Quiet (crypto_pair_rates_needed maybe_base_rate maybe_quote_rate)) s []
      (fetch_cryptocurrency_pair request timestamp maybe_base_rate maybe_quote_rate s) := by
  unfold fetch_cryptocurrency_pair
  refine quiet_fetch_rate (fun hbase => ?_) (fun base_rate failed_exchanges s cache => ?_) s s.cache
  · refine callWithin_crypto ?_ le_rfl _ _
    simp only [crypto_pair_rates_needed, hbase, Option.isNone_none, if_true]
    omega
  · refine quiet_fetch_rate (fun hquote => ?_) (fun quote_rate _ s cache => ?_) s cache
    · refine callWithin_crypto ?_ (length_retain_exchanges_le _ _) _ _
      simp only [crypto_pair_rates_needed, hquote, Option.isNone_none, if_true]
      omega
    · exact ⟨rfl, cache, rfl⟩

theorem quiet_fetch_crypto_fiat_pair (request : GetExchangeRateRequest) (timestamp : ℕ)
    (maybe_crypto_base_rate : Option QueriedExchangeRate)
    (stablecoin_rates : List QueriedExchangeRate) (missed_stablecoin_symbols : List String)
    (forex_rate : QueriedExchangeRate) (s : State L) :
    Holds (Quiet (crypto_fiat_rates_needed maybe_crypto_base_rate missed_stablecoin_symbols)) s []
      (fetch_crypto_fiat_pair request timestamp maybe_crypto_base_rate stablecoin_rates
        missed_stablecoin_symbols forex_rate s) := by
  refine ⟨⟨rfl, rfl, ⟨s.cache, rfl⟩, callWithin_stablecoins (Nat.le_add_left _ _) _⟩,
    fun stablecoin_results s' _ => ?_⟩
  refine quiet_fetch_rate (fun hbase => ?_) (fun crypto_base_rate _ s cache => ?_) s' _
  · refine callWithin_crypto ?_ (length_retain_exchanges_le _ _) _ _
    simp only [crypto_fiat_rates_needed, hbase, Option.isNone_none, if_true]
    omega
  · exact ⟨rfl, cache, rfl⟩

end Cached

/-! ## The contract of a handler

The contract has the three things in it that the guards and the charge do to the state: the fees
are taken in the first segment, the guards of the key are held exactly between the first and the
last one, and the guarded state is changed by taking and dropping them and in no other way. -/

/-- What identifies the guards of a request. It is fixed when the request begins, and everything
it registers and reserves can be computed from it. -/
structure GuardKey where
  symbols : List String
  timestamp : ℕ
  num_rates_needed : ℕ
  deriving DecidableEq, Repr

/-- The guards a request owns at its suspension points, the outer one first. -/
def GuardKey.guards (key : GuardKey) : List Guard :=
  [.InflightCryptoUsdtRequestsGuard key.symbols key.timestamp,
   .RateLimitingRequestCounterGuard (http_requests_needed key.num_rates_needed)]

/-- The contract of a fetching phase with its reservation. -/
def Reserved (num_rates_needed : ℕ) : Contract (State L) Guard Call Answer α where
  onDone a held b _ :=
    held = [.RateLimitingRequestCounterGuard (http_requests_needed num_rates_needed)]
      ∧ ∃ cache, b = { a with cache := cache }.release (http_requests_needed num_rates_needed)
  onAwait a held b held' call :=
    held = [.RateLimitingRequestCounterGuard (http_requests_needed num_rates_needed)]
      ∧ held' = held ∧ (∃ cache, b = { a with cache := cache })
      ∧ CallWithin num_rates_needed call
  onTrap := False
  answers _ _ := True

/-- The contract of a handler that takes `fees` in its first segment and fetches under the
guards of `key`, which it does only when `admitted`. -/
def Tracked (key : GuardKey) (fees : List ℕ) (admitted : Prop) :
    Contract (State L) Guard Call Answer α where
  onDone a held b _ :=
    (held = [] ∧ b.inflight = a.inflight ∧ b.request_counter = a.request_counter
        ∧ b.accepted = a.accepted ++ fees)
      ∨ (held = key.guards ∧ b.inflight = a.inflight \ inflight_keys key.symbols key.timestamp
        ∧ b.request_counter = a.request_counter - http_requests_needed key.num_rates_needed
        ∧ b.accepted = a.accepted)
  onAwait a held b held' call :=
    held' = key.guards ∧ CallWithin key.num_rates_needed call
      ∧ ((held = [] ∧ admitted
          ∧ b.inflight = a.inflight ∪ inflight_keys key.symbols key.timestamp
          ∧ b.request_counter = Machine.saturating_add 32 a.request_counter
              (http_requests_needed key.num_rates_needed)
          ∧ b.accepted = a.accepted ++ fees)
        ∨ (held = key.guards ∧ b.inflight = a.inflight
          ∧ b.request_counter = a.request_counter ∧ b.accepted = a.accepted))
  onTrap := False
  answers _ _ := True

/-- The inner guard only gives back what was reserved. -/
theorem reserved_guarded {num_rates_needed : ℕ} (s : State L) (t : Handler L α)
    (h : Holds (Quiet num_rates_needed) s [] t) :
    Holds (Reserved num_rates_needed) s
      [.RateLimitingRequestCounterGuard (http_requests_needed num_rates_needed)]
      (t.guarded (.RateLimitingRequestCounterGuard (http_requests_needed num_rates_needed))
        fun s => s.release (http_requests_needed num_rates_needed)) := by
  refine Holds.guarded (Quiet num_rates_needed) (Reserved num_rates_needed) ?_ ?_
    (fun h => h) (fun _ _ h => h) t s [] h
  · rintro a held b _ ⟨rfl, cache, rfl⟩
    exact ⟨rfl, cache, rfl⟩
  · rintro a held b held' call ⟨rfl, rfl, hcache, hwithin⟩
    exact ⟨rfl, rfl, hcache, hwithin⟩

/-- The state after the reads and the charge of a first segment. -/
def State.charged (s : State L) (cache : ExchangeRateCache L) (fees : List ℕ) : State L :=
  { s with cache := cache, accepted := s.accepted ++ fees }

/-- A first segment that ends the request leaves the guarded state alone. -/
theorem tracked_done (key : GuardKey) (fees : List ℕ) (admitted : Prop) (s : State L)
    (cache : ExchangeRateCache L) (a : α) :
    Holds (Tracked key fees admitted) s [] (.done (s.charged cache fees) a) :=
  Or.inl ⟨rfl, rfl, rfl, rfl⟩

/-- The contract only speaks of the state, so it survives any work on the result. -/
theorem Tracked.map {β : Type} {key : GuardKey} {fees : List ℕ} {admitted : Prop} {s : State L}
    {held : List Guard} {t : Handler L α} (f : α → β)
    (h : Holds (Tracked key fees admitted) s held t) :
    Holds (Tracked key fees admitted) s held (t.map f) :=
  Holds.map (Tracked key fees admitted) (Tracked key fees admitted) (f := f) (fun _ _ _ _ h => h)
    (fun _ _ _ _ _ h => h) (fun h => h) (fun _ _ h => h) t s held h

/-- **The rule of the two guards**: around a quiet phase, the first segment takes them and
the last one drops them. -/
theorem tracked_guarded {key : GuardKey} {admitted : Prop} (hadmitted : admitted)
    {future : State L → Handler L α} (hquiet : ∀ s, Holds (Quiet key.num_rates_needed) s [] (future s))
    (hfetches : ∀ s, ∃ s' held call resume, future s = .await s' held call resume)
    (s : State L) (cache : ExchangeRateCache L) (fees : List ℕ) :
    Holds (Tracked key fees admitted) s []
      (with_inflight_tracking key.symbols key.timestamp
        (with_request_counter key.num_rates_needed future) (s.charged cache fees)) := by
  have hnested : ∀ (s' : State L) (t : Handler L α),
      Holds (Quiet key.num_rates_needed) s' [] t →
        Holds (Tracked key fees admitted) s' key.guards
          ((t.guarded (.RateLimitingRequestCounterGuard
              (http_requests_needed key.num_rates_needed))
            fun s => s.release (http_requests_needed key.num_rates_needed)).guarded
            (.InflightCryptoUsdtRequestsGuard key.symbols key.timestamp)
            fun s => s.remove_inflight key.symbols key.timestamp) := by
    intro s' t ht
    refine Holds.guarded (Reserved key.num_rates_needed) (Tracked key fees admitted) ?_ ?_
      (fun h => h) (fun _ _ h => h) _ s' _ (reserved_guarded s' t ht)
    · rintro a held b _ ⟨rfl, cache, rfl⟩
      exact Or.inr ⟨rfl, rfl, rfl, rfl⟩
    · rintro a held b held' call ⟨rfl, rfl, ⟨cache, rfl⟩, hwithin⟩
      exact ⟨rfl, hwithin, Or.inr ⟨rfl, rfl, rfl, rfl⟩⟩
  have hrun := hnested _ _ (hquiet (((s.charged cache fees).add_inflight key.symbols
    key.timestamp).reserve (http_requests_needed key.num_rates_needed)))
  obtain ⟨s', held, call, resume, hfuture⟩ := hfetches (((s.charged cache fees).add_inflight
    key.symbols key.timestamp).reserve (http_requests_needed key.num_rates_needed))
  unfold with_inflight_tracking with_request_counter
  dsimp only
  rw [hfuture] at hrun ⊢
  -- the phase suspends at once, so its first segment is the one that took the guards
  obtain ⟨⟨hheld', hwithin, hcase⟩, hresume⟩ := hrun
  refine ⟨⟨hheld', hwithin, Or.inl ?_⟩, hresume⟩
  rcases hcase with ⟨hnil, -⟩ | ⟨-, hinflight, hcounter, haccepted⟩
  · cases hnil
  · exact ⟨rfl, hadmitted, hinflight, hcounter, haccepted⟩

/-! ## The handlers

Each handler reads the cache, charges, and either ends or fetches under its two guards. The
rules above are applied in this order. What the contract's parameters are for a request, its
key, the timestamp and the number of rates, is said once for all three handlers. -/

section Handlers

variable [LruCache L CacheKey QueriedExchangeRate]

/-- Whatever is missing, a crypto pair that has to fetch calls the exchanges first. -/
theorem fetch_cryptocurrency_pair_await (request : GetExchangeRateRequest) (timestamp : ℕ)
    {maybe_base_rate maybe_quote_rate : Option QueriedExchangeRate}
    (h : maybe_base_rate = none ∨ maybe_quote_rate = none) (s : State L) :
    ∃ s' held call resume,
      fetch_cryptocurrency_pair request timestamp maybe_base_rate maybe_quote_rate s
        = .await s' held call resume := by
  cases maybe_base_rate with
  | none => exact ⟨_, _, _, _, rfl⟩
  | some base_rate =>
      cases maybe_quote_rate with
      | none => exact ⟨_, _, _, _, rfl⟩
      | some quote_rate => exact absurd h (by simp)

theorem tracked_proceed_cryptocurrency_pair (request : GetExchangeRateRequest) (timestamp : ℕ)
    (validate_request_result : Except ValidateRequestError Unit)
    (maybe_base_rate maybe_quote_rate : Option QueriedExchangeRate) (s : State L)
    (cache : ExchangeRateCache L) (fees : List ℕ) :
    Holds (Tracked ⟨[request.base_asset.symbol, request.quote_asset.symbol], timestamp,
        crypto_pair_rates_needed maybe_base_rate maybe_quote_rate⟩ fees
        (validate_request_result = .ok ())) s []
      (proceed_cryptocurrency_pair request timestamp validate_request_result maybe_base_rate
        maybe_quote_rate (s.charged cache fees)) := by
  unfold proceed_cryptocurrency_pair
  cases validate_request_result with
  | error error => exact tracked_done _ _ _ s cache _
  | ok u =>
      dsimp only
      split
      · -- both rates were in the cache: no guard is taken
        exact tracked_done _ _ _ s cache _
      · rename_i hmissing
        refine tracked_guarded rfl (fun s => quiet_fetch_cryptocurrency_pair request timestamp
          maybe_base_rate maybe_quote_rate s) (fun s => ?_) s cache fees
        refine fetch_cryptocurrency_pair_await request timestamp ?_ s
        cases maybe_base_rate with
        | none => exact Or.inl rfl
        | some base_rate =>
            cases maybe_quote_rate with
            | none => exact Or.inr rfl
            | some quote_rate => exact absurd rfl (hmissing base_rate quote_rate rfl)

theorem tracked_proceed_crypto_base_fiat_quote_pair (request : GetExchangeRateRequest)
    (timestamp : ℕ) (validate_request_result : Except ValidateRequestError Unit)
    (forex_rate_result : RateResult) (maybe_crypto_base_rate : Option QueriedExchangeRate)
    (stablecoin_rates : List QueriedExchangeRate) (missed_stablecoin_symbols : List String)
    (s : State L) (cache : ExchangeRateCache L) (fees : List ℕ) :
    Holds (Tracked ⟨[request.base_asset.symbol], timestamp,
        crypto_fiat_rates_needed maybe_crypto_base_rate missed_stablecoin_symbols⟩ fees
        (validate_request_result = .ok ())) s []
      (proceed_crypto_base_fiat_quote_pair request timestamp validate_request_result
        forex_rate_result maybe_crypto_base_rate stablecoin_rates missed_stablecoin_symbols
        (s.charged cache fees)) := by
  unfold proceed_crypto_base_fiat_quote_pair
  -- whatever is rejected ends here, before any guard is taken
  cases validate_request_result with
  | error error => exact tracked_done _ _ _ s cache _
  | ok u =>
      cases forex_rate_result with
      | error error => exact tracked_done _ _ _ s cache _
      | ok forex_rate =>
          dsimp only
          split
          · exact tracked_done _ _ _ s cache _
          · exact tracked_guarded rfl
              (fun s => quiet_fetch_crypto_fiat_pair request timestamp maybe_crypto_base_rate
                stablecoin_rates missed_stablecoin_symbols forex_rate s)
              (fun s => ⟨_, _, _, _, rfl⟩) s cache fees

omit [LruCache L CacheKey QueriedExchangeRate] in
/-- **The rule of the charge**: it panics, or the handler goes on with the fees taken. A panic
rolls the message back, so a request that ends there has neither registered nor paid anything. -/
theorem tracked_charge_cycles {key : GuardKey} {admitted : Prop}
    {rest : State L → Handler L (Except ExchangeRateError α)} {s : State L}
    {cache : ExchangeRateCache L}
    (hrest : ∀ fees, Holds (Tracked key fees admitted) s [] (rest (s.charged cache fees)))
    (env : Environment) (num_rates_needed : ℕ) (is_valid_request : Bool) :
    charge_cycles env num_rates_needed is_valid_request { s with cache := cache } rest = .trap
      ∨ ∃ fees, Holds (Tracked key fees admitted) s []
          (charge_cycles env num_rates_needed is_valid_request { s with cache := cache } rest) := by
  have hfree : ({ s with cache := cache } : State L) = s.charged cache [] := by
    simp only [State.charged, List.append_nil]
  unfold charge_cycles
  split
  · -- a privileged caller
    right
    rw [hfree]
    exact ⟨[], hrest []⟩
  · dsimp only
    split
    · exact Or.inr ⟨[_], hrest [_]⟩
    · -- not enough cycles: the request ends here, without a fee
      right
      rw [hfree]
      exact ⟨[], tracked_done _ _ _ s cache _⟩
    · exact Or.inl rfl

/-- The request a handler sees: a fiat/crypto pair is handled inverted. -/
def routed_request (request : GetExchangeRateRequest) : GetExchangeRateRequest :=
  match request.base_asset.class', request.quote_asset.class' with
  | .FiatCurrency, .Cryptocurrency => invert_assets_in_request request
  | _, _ => request

/-- The timestamp a request is answered for. -/
def chosen_timestamp (env : Environment) (request : GetExchangeRateRequest) (s : State L) :
    NormalizedTimestamp :=
  match request.base_asset.class', request.quote_asset.class' with
  | .FiatCurrency, .FiatCurrency =>
    .requested_or_current (utils.get_normalized_timestamp env request)
  | _, _ => get_normalized_timestamp env (routed_request request) s

/-- The number of rates a request has to fetch. -/
def rates_needed (env : Environment) (request : GetExchangeRateRequest) (s : State L) : ℕ :=
  let routed := routed_request request
  let timestamp := (chosen_timestamp env request s).value
  match request.base_asset.class', request.quote_asset.class' with
  | .Cryptocurrency, .Cryptocurrency =>
    let read := read_cryptocurrency_pair env routed timestamp s.cache
    crypto_pair_rates_needed read.1 read.2.1
  | .FiatCurrency, .FiatCurrency => 0
  | _, _ =>
    let read := read_crypto_fiat_pair env routed timestamp s.cache
    crypto_fiat_rates_needed read.1 read.2.missed_stablecoin_symbols

/-- The symbols a request registers while it fetches. -/
def fetched_symbols (request : GetExchangeRateRequest) : List String :=
  match request.base_asset.class', request.quote_asset.class' with
  | .Cryptocurrency, .Cryptocurrency => [request.base_asset.symbol, request.quote_asset.symbol]
  | .FiatCurrency, .FiatCurrency => []
  | _, _ => [(routed_request request).base_asset.symbol]

/-- The guards of a request. -/
def guard_key (env : Environment) (request : GetExchangeRateRequest) (s : State L) : GuardKey :=
  ⟨fetched_symbols request, (chosen_timestamp env request s).value, rates_needed env request s⟩

/-- The outcome of the validation of a request. -/
def validation (env : Environment) (request : GetExchangeRateRequest) (s : State L) :
    Except ValidateRequestError Unit :=
  validate_request env (routed_request request) (rates_needed env request s)
    (chosen_timestamp env request s) s

/-- A request passes its validation. It is the validation of the state that the request finds,
which is made before anything is charged. -/
def Admitted (env : Environment) (request : GetExchangeRateRequest) (s : State L) : Prop :=
  validation env request s = .ok ()

/-- **What every request does to the shared state**, whatever its asset classes: it
panics while charging, or every segment of it keeps the contract. -/
theorem tracked_route_request (env : Environment) (request : GetExchangeRateRequest)
    (s : State L) :
    route_request env request s = .trap
      ∨ ∃ fees, Holds (Tracked (guard_key env request s) fees (Admitted env request s)) s []
          (route_request env request s) := by
  unfold route_request guard_key Admitted validation rates_needed chosen_timestamp
    fetched_symbols routed_request
  cases hbase : request.base_asset.class' <;> cases hquote : request.quote_asset.class' <;>
    dsimp only
  · -- crypto/crypto
    unfold handle_cryptocurrency_pair gather_cryptocurrency_pair
    rcases tracked_charge_cycles (fun fees => tracked_proceed_cryptocurrency_pair request
      (get_normalized_timestamp env request s).value _ _ _ s _ fees) env _ _ with h | ⟨fees, h⟩
    · left
      rw [h]
      rfl
    · exact Or.inr ⟨fees, Tracked.map _ h⟩
  · -- crypto/fiat
    unfold handle_crypto_base_fiat_quote_pair gather_crypto_base_fiat_quote_pair
    rcases tracked_charge_cycles (fun fees => tracked_proceed_crypto_base_fiat_quote_pair request
      (get_normalized_timestamp env request s).value _ _ _ _ _ s _ fees) env _ _ with h | ⟨fees, h⟩
    · left
      rw [h]
      rfl
    · exact Or.inr ⟨fees, Tracked.map _ (Tracked.map _ h)⟩
  · -- fiat/crypto, with the request inverted
    unfold handle_crypto_base_fiat_quote_pair gather_crypto_base_fiat_quote_pair
    rcases tracked_charge_cycles (fun fees => tracked_proceed_crypto_base_fiat_quote_pair
      (invert_assets_in_request request)
      (get_normalized_timestamp env (invert_assets_in_request request) s).value _ _ _ _ _ s _ fees)
      env _ _ with h | ⟨fees, h⟩
    · left
      rw [h]
      rfl
    · exact Or.inr ⟨fees, Tracked.map _ (Tracked.map _ h)⟩
  · -- fiat/fiat: no outcall is ever made
    unfold handle_fiat_pair
    dsimp only
    split
    · refine Or.inr ⟨[], Or.inl ⟨rfl, rfl, rfl, ?_⟩⟩
      rw [List.append_nil]
    · exact tracked_charge_cycles (fun fees => tracked_done _ _ _ s s.cache _) env 0 _

end Handlers

end Xrc
