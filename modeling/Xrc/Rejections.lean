/-
Who is turned away. `RateLimited` and `Pending` are answered by the validation of a request
and nowhere else: neither the charge nor a fetch or a composition of rates ends in one of
them. So what is true of the rejections of the validation is true of the answers.

The limit itself is on outcalls, but the check compares the counter with it even when a
request needs none. `limits_outcalls_only_iff` says in which runs that makes no difference.
-/
import Xrc.Accounting
import Xrc.Charging
import Xrc.Settlement

set_option autoImplicit false

namespace Xrc

open Async CallExchangesImpl

/-! ## Where rejections come from

The two errors are only made in one place. That is a statement about all paths through the
handlers, so it is proved as a contract: a segment ends with the error only if the validation
has said so in the first one. -/

/-- The error of a request that is turned away. These are the two errors that depend on what other
requests are doing. -/
def TurnsAway (error : ExchangeRateError) : Prop := error = .RateLimited ∨ error = .Pending

instance (error : ExchangeRateError) : Decidable (TurnsAway error) :=
  inferInstanceAs (Decidable (error = .RateLimited ∨ error = .Pending))

/-- An error of another kind is not the one. -/
theorem TurnsAway.ne {error e : ExchangeRateError} (h : TurnsAway error) (he : ¬ TurnsAway e) :
    e ≠ error := by
  rintro rfl
  exact he h

theorem TurnsAway.error_ne {α : Type} {error e : ExchangeRateError} (h : TurnsAway error)
    (he : ¬ TurnsAway e) : (.error e : Except ExchangeRateError α) ≠ .error error := by
  intro heq
  exact h.ne he (Except.error.inj heq)

/-- The contract of a handler that only ends in `error` when it has been `rejected`. -/
def RejectsWhen {L α : Type} (error : ExchangeRateError) (rejected : Prop) :
    Contract (State L) Guard Call Answer (Except ExchangeRateError α) where
  onDone _ _ _ result := result = .error error → rejected
  onAwait _ _ _ _ _ := True
  onTrap := True
  answers _ _ := True

section Contract

variable {L α β : Type} {error : ExchangeRateError} {rejected : Prop} {s s' : State L}
  {held held' : List Guard}

/-- The contract reads neither the state nor the guards. -/
theorem RejectsWhen.of_start {handler : Handler L (Except ExchangeRateError α)}
    (h : Holds (RejectsWhen error rejected) s held handler) (s' : State L) (held' : List Guard) :
    Holds (RejectsWhen error rejected) s' held' handler := by
  refine Holds.start ?_ ?_ h
  · intro b result hdone
    exact hdone
  · intro b held'' call hawait
    exact hawait

theorem RejectsWhen.done {result : Except ExchangeRateError α} (h : result ≠ .error error)
    (s s' : State L) (held : List Guard) :
    Holds (RejectsWhen error rejected) s held
      (.done s' result : Handler L (Except ExchangeRateError α)) := fun herror => absurd herror h

theorem RejectsWhen.ok (a : α) (s s' : State L) (held : List Guard) :
    Holds (RejectsWhen error rejected) s held
      (.done s' (.ok a) : Handler L (Except ExchangeRateError α)) := by
  intro herror
  cases herror

theorem RejectsWhen.guarded {handler : Handler L (Except ExchangeRateError α)}
    (h : Holds (RejectsWhen error rejected) s held handler) (g : Guard) (drop : State L → State L) :
    Holds (RejectsWhen error rejected) s held (handler.guarded g drop) := by
  refine RejectsWhen.of_start (Holds.guarded (RejectsWhen error rejected)
    (RejectsWhen error rejected) ?_ ?_ (fun h => h) (fun _ _ h => h) handler s held h) s held
  · intro a _ b result hdone
    exact hdone
  · intro a _ b _ call hawait
    exact hawait

/-- Post-processing that does not make up the error. -/
theorem RejectsWhen.map {handler : Handler L (Except ExchangeRateError α)}
    {f : Except ExchangeRateError α → Except ExchangeRateError β}
    (hf : ∀ result, f result = .error error → result = .error error)
    (h : Holds (RejectsWhen error rejected) s held handler) :
    Holds (RejectsWhen error rejected) s held (handler.map f) := by
  refine Holds.map (f := f) (RejectsWhen error rejected) (RejectsWhen error rejected) ?_ ?_
    (fun h => h) (fun _ _ h => h) handler s held h
  · intro a _ b result hdone herror
    exact hdone (hf result herror)
  · intro a _ b _ call hawait
    exact hawait

end Contract

/-! ## Errors that are something else

A handler renames errors, binds computations that may fail, and composes rates. None of these
makes an error that turns away out of another one. -/

section Errors

variable {error : ExchangeRateError} {α β : Type}

theorem bind_ne_error {f : α → Except ExchangeRateError β} (hf : ∀ a, f a ≠ .error error)
    (result : Except ExchangeRateError α) (h : result.bind f = .error error) :
    result = .error error := by
  cases result with
  | error e => exact congrArg Except.error (Except.error.inj h)
  | ok a => exact absurd h (hf a)

theorem map_ne_error {f : α → β} (result : Except ExchangeRateError α)
    (h : result.map f = .error error) : result = .error error := by
  cases result with
  | error e => exact congrArg Except.error (Except.error.inj h)
  | ok a => cases h

theorem TurnsAway.validate_ne (h : TurnsAway error) (rate : QueriedExchangeRate) :
    rate.validate ≠ .error error := by
  unfold QueriedExchangeRate.validate
  dsimp only
  split
  · exact h.error_ne (by decide)
  · split
    · exact h.error_ne (by decide)
    · nofun

theorem TurnsAway.forex_ne (h : TurnsAway error)
    (result : Except GetForexRateError QueriedExchangeRate) :
    result.mapError GetForexRateError.into ≠ .error error := by
  cases result with
  | ok rate => nofun
  | error e =>
      apply h.error_ne
      cases e <;> simp [GetForexRateError.into, TurnsAway]

theorem TurnsAway.crypto_fiat_rate_ne [Unicode] (h : TurnsAway error) (operands : CryptoFiatOperands) :
    crypto_fiat_rate operands ≠ .error error := by
  unfold crypto_fiat_rate
  split
  · rename_i e _
    cases e <;> rcases h with rfl | rfl <;> nofun
  · exact h.validate_ne _

/-- The renamings of errors are about other ones. -/
theorem TurnsAway.of_crypto_fiat_error (h : TurnsAway error) (e : ExchangeRateError)
    (he : crypto_fiat_error e = error) : e = error := by
  unfold crypto_fiat_error at he
  split at he
  · rcases h with rfl | rfl
    · cases he
    · cases he
  · exact he

theorem TurnsAway.of_inverted_error (h : TurnsAway error) (e : ExchangeRateError)
    (he : invert_exchange_rate_error_for_fiat_crypto_pair e = error) : e = error := by
  unfold invert_exchange_rate_error_for_fiat_crypto_pair at he
  split at he
  · rcases h with rfl | rfl
    · cases he
    · cases he
  · rcases h with rfl | rfl
    · cases he
    · cases he
  · -- the errors with a code stay errors with a code
    rcases h with rfl | rfl
    · split_ifs at he <;> cases he
    · split_ifs at he <;> cases he
  · exact he

theorem mapError_ne_error {f : ExchangeRateError → ExchangeRateError}
    (hf : ∀ e, f e = error → e = error) (result : Except ExchangeRateError α)
    (h : result.mapError f = .error error) : result = .error error := by
  cases result with
  | error e => exact congrArg Except.error (hf e (Except.error.inj h))
  | ok a => cases h

theorem TurnsAway.presented_eq (h : TurnsAway error) (request : GetExchangeRateRequest) :
    presented request (.error error) = .error error := by
  unfold presented
  split
  · rcases h with rfl | rfl
    · rfl
    · rfl
  · rcases h with rfl | rfl
    · rfl
    · rfl

/-- The presentation of a pair of both classes renames other errors only. -/
theorem TurnsAway.of_presented (h : TurnsAway error) (request : GetExchangeRateRequest)
    (result : RateResult) (hresult : presented request result = .error error) :
    result = .error error := by
  unfold presented at hresult
  split at hresult
  · exact mapError_ne_error h.of_crypto_fiat_error _ hresult
  · exact map_ne_error _ (mapError_ne_error h.of_inverted_error _ hresult)

end Errors

/-! ## The handlers

The contract, along each handler. The validation is computed before anything is fetched, so
whether it has rejected the request is known from the state of the first segment. -/

section Handlers

variable {L α : Type} {error : ExchangeRateError} {rejected : Prop} {held : List Guard}

/-- The validation answers with `error`. -/
def RejectedWith (error : ExchangeRateError) (validated : Except ValidateRequestError Unit) :
    Prop := ∃ e, validated = .error e ∧ e.into = error

theorem rejectsWhen_charge_cycles (hcycles : ExchangeRateError.NotEnoughCycles = error → rejected)
    {rest : State L → Handler L (Except ExchangeRateError α)}
    (hrest : ∀ s, Holds (RejectsWhen error rejected) s held (rest s)) (env : Environment)
    (num_rates_needed : ℕ) (is_valid_request : Bool) (s s' : State L) :
    Holds (RejectsWhen error rejected) s held
      (charge_cycles env num_rates_needed is_valid_request s' rest) := by
  unfold charge_cycles
  split
  · exact RejectsWhen.of_start (hrest s') s held
  · dsimp only
    split
    · exact RejectsWhen.of_start (hrest _) s held
    · -- the caller has not sent enough cycles
      exact fun herror => hcycles (Except.error.inj herror)
    · trivial

section Cached

variable [Unicode] [LruCache L CacheKey QueriedExchangeRate]

theorem rejectsWhen_fetch_rate {exchanges : List Exchange} {asset : Asset} {timestamp : ℕ}
    {not_found : ExchangeRateError} {maybe_rate : Option QueriedExchangeRate}
    {rest : QueriedExchangeRate → List Exchange → State L →
      Handler L (Except ExchangeRateError α)}
    (hnot_found : not_found = error → rejected)
    (hrest : ∀ rate failed_exchanges s,
      Holds (RejectsWhen error rejected) s held (rest rate failed_exchanges s))
    (hheld : held = []) (s : State L) :
    Holds (RejectsWhen error rejected) s held
      (fetch_rate exchanges asset timestamp not_found maybe_rate rest s) := by
  subst hheld
  cases maybe_rate with
  | some rate => exact hrest rate [] s
  | none =>
      refine ⟨trivial, ?_⟩
      intro answer s' _
      cases answer with
      | error e => exact fun herror => hnot_found (Except.error.inj herror)
      | ok response => exact RejectsWhen.of_start (hrest _ _ _) s' []

variable [Features]

omit [Unicode] [LruCache L CacheKey QueriedExchangeRate] in
/-- Both guards around a fetching phase. -/
theorem rejectsWhen_guards {future : State L → Handler L (Except ExchangeRateError α)}
    (h : ∀ s, Holds (RejectsWhen error rejected) s held (future s)) (symbols : List String)
    (timestamp num_rates_needed : ℕ) (s : State L) :
    Holds (RejectsWhen error rejected) s held
      (with_inflight_tracking symbols timestamp (with_request_counter num_rates_needed future)
        s) :=
  RejectsWhen.guarded (RejectsWhen.guarded (RejectsWhen.of_start (h _) s held) _ _) _ _

theorem rejectsWhen_proceed_cryptocurrency_pair (h : TurnsAway error)
    (request : GetExchangeRateRequest) (timestamp : ℕ)
    (validate_request_result : Except ValidateRequestError Unit)
    (maybe_base_rate maybe_quote_rate : Option QueriedExchangeRate) (s : State L) :
    Holds (RejectsWhen error (RejectedWith error validate_request_result)) s []
      (proceed_cryptocurrency_pair request timestamp validate_request_result maybe_base_rate
        maybe_quote_rate s) := by
  unfold proceed_cryptocurrency_pair
  cases validate_request_result with
  | error e =>
      -- the result of the validation is the answer
      intro herror
      exact ⟨e, rfl, Except.error.inj herror⟩
  | ok u =>
      dsimp only
      split
      · exact RejectsWhen.ok _ s s []
      · refine rejectsWhen_guards ?_ _ _ _ s
        intro s'
        unfold fetch_cryptocurrency_pair
        -- a failed fetch is a base or a quote that was not found
        refine rejectsWhen_fetch_rate ?_ ?_ rfl s'
        · exact fun heq => absurd heq (h.ne (by decide))
        · intro base_rate failed_exchanges s₁
          refine rejectsWhen_fetch_rate ?_ ?_ rfl s₁
          · exact fun heq => absurd heq (h.ne (by decide))
          · intro quote_rate _ s₂
            exact RejectsWhen.ok _ s₂ s₂ []

/-- Three things go wrong in a pair of both classes once it is charged: its validation, its
forex lookup, and the fetch of its cryptocurrency. -/
theorem rejectsWhen_proceed_crypto_base_fiat_quote_pair (request : GetExchangeRateRequest)
    (timestamp : ℕ) {validate_request_result : Except ValidateRequestError Unit}
    (hvalidated : RejectedWith error validate_request_result → rejected)
    {forex_rate_result : RateResult} (hforex : forex_rate_result = .error error → rejected)
    (hcrypto : ExchangeRateError.CryptoBaseAssetNotFound = error → rejected)
    (maybe_crypto_base_rate : Option QueriedExchangeRate)
    (stablecoin_rates : List QueriedExchangeRate) (missed_stablecoin_symbols : List String)
    (s : State L) :
    Holds (RejectsWhen error rejected) s []
      (proceed_crypto_base_fiat_quote_pair request timestamp validate_request_result
        forex_rate_result maybe_crypto_base_rate stablecoin_rates missed_stablecoin_symbols s) := by
  unfold proceed_crypto_base_fiat_quote_pair
  cases validate_request_result with
  | error e =>
      intro herror
      exact hvalidated ⟨e, rfl, Except.error.inj herror⟩
  | ok u =>
      cases forex_rate_result with
      | error e =>
          -- the forex rate is looked up before anything is fetched
          intro herror
          exact hforex (congrArg Except.error (Except.error.inj herror))
      | ok forex_rate =>
          dsimp only
          split
          · exact RejectsWhen.ok _ s s []
          · refine rejectsWhen_guards ?_ _ _ _ s
            intro s'
            -- the stablecoins that fail are left out, which is no error
            refine ⟨trivial, ?_⟩
            intro results s₁ _
            refine RejectsWhen.of_start (rejectsWhen_fetch_rate hcrypto ?_ rfl _) s₁ []
            intro crypto_base_rate _ s₂
            exact RejectsWhen.ok _ s₂ s₂ []

/-- The validation of a pair of both classes, as its handler makes it. -/
theorem validation_of_crypto_fiat_pair {request : GetExchangeRateRequest}
    (hpair : is_crypto_fiat_pair request = true) (env : Environment) (s : State L) :
    validation env request s = validate_request env (routed_request request)
      (crypto_fiat_rates_needed
        (read_crypto_fiat_pair env (routed_request request)
          (get_normalized_timestamp env (routed_request request) s).value s.cache).1
        (read_crypto_fiat_pair env (routed_request request)
          (get_normalized_timestamp env (routed_request request) s).value
          s.cache).2.missed_stablecoin_symbols)
      (get_normalized_timestamp env (routed_request request) s) s := by
  unfold validation rates_needed chosen_timestamp
  rcases classes_of_crypto_fiat_pair hpair with ⟨hbase, hquote⟩ | ⟨hbase, hquote⟩
  · rw [hbase, hquote]
  · rw [hbase, hquote]

/-- **A request is only turned away by its validation**, whatever its asset classes. Each error
that a handler can end in is compared with the one in question: apart from the errors of the
validation, none of them turns a request away. -/
theorem rejectsWhen_route_request (h : TurnsAway error) (env : Environment)
    (request : GetExchangeRateRequest) (s : State L) :
    Holds (RejectsWhen error (RejectedWith error (validation env request s))) s []
      (route_request env request s) := by
  have hcycles : ExchangeRateError.NotEnoughCycles = error →
      RejectedWith error (validation env request s) := fun heq => absurd heq (h.ne (by decide))
  cases pairKind request with
  | crypto_fiat_pair hpair =>
      rw [validation_of_crypto_fiat_pair hpair] at hcycles ⊢
      rw [route_request_crypto_fiat hpair]
      refine RejectsWhen.map (h.of_presented request) (RejectsWhen.map
        (bind_ne_error h.crypto_fiat_rate_ne) (rejectsWhen_charge_cycles hcycles ?_ env _ _ s _))
      intro s'
      refine RejectsWhen.of_start (rejectsWhen_proceed_crypto_base_fiat_quote_pair _ _ id ?_ ?_
        _ _ _ s') s' []
      · exact fun hforex => absurd hforex (h.forex_ne _)
      · exact fun heq => absurd heq (h.ne (by decide))
  | crypto_pair hbase hquote =>
      unfold route_request validation rates_needed chosen_timestamp routed_request at *
      rw [hbase, hquote] at hcycles ⊢
      refine RejectsWhen.map (bind_ne_error ?_) (rejectsWhen_charge_cycles hcycles ?_ env _ _ s _)
      · intro operands
        exact h.validate_ne _
      · intro s'
        exact rejectsWhen_proceed_cryptocurrency_pair h request _ _ _ _ s'
  | fiat_pair hbase hquote =>
      unfold route_request validation rates_needed chosen_timestamp routed_request at *
      rw [hbase, hquote] at hcycles ⊢
      -- this handler validates before it charges
      dsimp only
      unfold handle_fiat_pair
      dsimp only
      cases validate_request env request 0
          (.requested_or_current (utils.get_normalized_timestamp env request)) s with
      | error e =>
          intro herror
          exact ⟨e, rfl, Except.error.inj herror⟩
      | ok u =>
          refine rejectsWhen_charge_cycles ?_ ?_ env _ _ s _
          · exact fun heq => absurd heq (h.ne (by decide))
          intro s'
          refine RejectsWhen.done ?_ s' s' []
          intro herror
          have hforex := bind_ne_error (fun rate => h.validate_ne rate) _ herror
          exact h.forex_ne _ hforex

/-- **Every answer that turns a request away** is one of its validation. The two errors before the
routing are excluded by what it means to turn a request away, and presenting a result does not
make another error into one that does. -/
theorem rejected_of_run (h : TurnsAway error) {env : Environment}
    {request : GetExchangeRateRequest} {s s' : State L} {w : World (State L) Call Answer} {n : ℕ}
    (hrun : (get_exchange_rate_internal env request s).run w n = some (s', .error error)) :
    RejectedWith error (validation env (sanitize_request request) s) := by
  have hanswer : Holds (RejectsWhen error (RejectedWith error
      (validation env (sanitize_request request) s))) s [] (answer_request env request s) := by
    rcases answer_request_cases env request s with ⟨error', hearly, hanswer⟩ | ⟨-, -, hanswer⟩
    · rw [hanswer]
      refine RejectsWhen.done (h.error_ne ?_) s s []
      rcases hearly with rfl | rfl
      · decide
      · decide
    · rw [hanswer]
      exact rejectsWhen_route_request h env (sanitize_request request) s
  have hrejects := RejectsWhen.map (f := fun result : RateResult =>
    result.map QueriedExchangeRate.into) (fun result => map_ne_error result) hanswer
  obtain ⟨s₁, held₁, hdone⟩ := Holds.run (fun _ _ _ => trivial) _ s [] n s' _ hrejects hrun
  exact hdone rfl

/-- **A caller who pays is turned away** when the validation says so. A privileged caller is not
checked, and a caller who cannot pay gets another error first, so it is about those who pay. -/
theorem run_of_rejected {env : Environment} (hpay : Paying env) {request : GetExchangeRateRequest}
    {s : State L} {e : ValidateRequestError} (haway : TurnsAway e.into)
    (hvalidation : validation env (sanitize_request request) s = .error e)
    (w : World (State L) Call Answer) (n : ℕ) :
    ∃ s', (get_exchange_rate_internal env request s).run w n = some (s', .error e.into) := by
  have hroute := answer_request_of_let_in hpay.not_anonymous (Or.inr hpay.has_enough_cycles)
    request s
  -- the outermost map keeps errors
  suffices hrun : ∃ s', (route_request env (sanitize_request request) s).run w n
      = some (s', .error e.into) by
    obtain ⟨s', hrun⟩ := hrun
    refine ⟨s', ?_⟩
    rw [get_exchange_rate_internal, hroute, run_map, hrun]
    rfl
  generalize sanitize_request request = request at hvalidation
  cases pairKind request with
  | crypto_fiat_pair hpair =>
      rw [validation_of_crypto_fiat_pair hpair] at hvalidation
      rw [route_request_crypto_fiat hpair, run_map, run_map]
      unfold gather_crypto_base_fiat_quote_pair
      dsimp only
      rw [charge_cycles_eq (Or.inr hpay), hvalidation, proceed_crypto_base_fiat_quote_pair,
        run_done]
      refine ⟨_, congrArg some (Prod.ext rfl ?_)⟩
      exact haway.presented_eq request
  | crypto_pair hbase hquote =>
      unfold validation rates_needed chosen_timestamp routed_request at hvalidation
      unfold route_request
      rw [hbase, hquote] at hvalidation ⊢
      unfold handle_cryptocurrency_pair gather_cryptocurrency_pair
      dsimp only at hvalidation ⊢
      rw [run_map, charge_cycles_eq (Or.inr hpay), hvalidation, proceed_cryptocurrency_pair,
        run_done]
      exact ⟨_, rfl⟩
  | fiat_pair hbase hquote =>
      unfold validation rates_needed chosen_timestamp routed_request at hvalidation
      unfold route_request
      rw [hbase, hquote] at hvalidation ⊢
      unfold handle_fiat_pair
      dsimp only at hvalidation ⊢
      rw [hvalidation]
      exact ⟨_, rfl⟩

end Cached

end Handlers

/-! ## Requests without outcalls

The check adds nothing for a request that needs no outcall, and compares the counter with the
limit as it is. So such a request is turned away exactly when the counter has gone beyond. -/

section Limit

variable [Features] [Unicode] {L : Type} [LruCache L CacheKey QueriedExchangeRate]

/-- No request that needs no outcall is turned away for the rate limit. It is asked of every
caller and every request that could arrive next, so it is a property of the state alone. -/
def LimitsOutcallsOnly (c : Canister L) : Prop :=
  ∀ (env : Environment) (request : GetExchangeRateRequest) (w : World (State L) Call Answer)
    (n : ℕ) (s' : State L), rates_needed env (sanitize_request request) c.state = 0 →
      (get_exchange_rate_internal env request c.state).run w n ≠ some (s', .error .RateLimited)

/-- A request that is exempt from the rate limit takes the counter above it. Its rates are added
to the counter like all others, although it is not compared with the limit. -/
def ExceedsLimit (c : Canister L) : Event → Prop
  | .call env request => is_limited env (sanitize_request request) = false
    ∧ REQUEST_COUNTER_LIMIT < (step c (.call env request)).state.request_counter
  | _ => False

/-- Within the limit there is room for no outcalls at all. A request that needs nothing compares
the counter itself with the limit, and it is met. -/
theorem limitsOutcallsOnly_of_le {c : Canister L}
    (h : c.state.request_counter ≤ REQUEST_COUNTER_LIMIT) : LimitsOutcallsOnly c := by
  intro env request w n s' hneeded hrun
  obtain ⟨e, hvalidation, hinto⟩ := rejected_of_run (Or.inl rfl) hrun
  have he : e = .RateLimited := by
    cases e <;> cases hinto
    rfl
  subst he
  have hlimited := validate_request_outcome env (routed_request (sanitize_request request))
    (rates_needed env (sanitize_request request) c.state)
    (chosen_timestamp env (sanitize_request request) c.state) c.state
  rw [show validate_request env _ _ _ c.state = .error .RateLimited from hvalidation] at hlimited
  dsimp only [ValidateOutcome] at hlimited
  rw [hneeded, is_rate_limited, Bool.and_eq_true, decide_eq_true_eq, http_requests_needed_eq (by omega),
    Nat.mul_zero] at hlimited
  -- nothing is added to a counter that is within the limit
  have hsum : Machine.saturating_add 32 0 c.state.request_counter ≤ c.state.request_counter := by
    apply (Nat.min_le_left _ _).trans
    rw [Nat.zero_add]
  exact absurd (hlimited.1.trans_le hsum) (Nat.not_lt.mpr h)

omit [Features] [Unicode] [LruCache L CacheKey QueriedExchangeRate] in
theorem paying_ordinary (time_secs : ℕ) : Paying (Environment.ordinary time_secs) :=
  ⟨rfl, rfl, rfl, fun _ => rfl⟩

/-- EUR/USD at the beginning of time. -/
def eurUsdRequest : GetExchangeRateRequest :=
  ⟨⟨"EUR", .FiatCurrency⟩, ⟨USD, .FiatCurrency⟩, some 0⟩

/-- Above the limit a fiat pair with a timestamp is turned away. Its caller pays, and nothing of
it has to be fetched, so the counter is the only reason. -/
theorem not_limitsOutcallsOnly_of_lt {c : Canister L}
    (h : REQUEST_COUNTER_LIMIT < c.state.request_counter) : ¬ LimitsOutcallsOnly c := by
  intro hlimits
  have hsanitized : sanitize_request eurUsdRequest = eurUsdRequest := by
    have heur : sanitize_symbol "EUR" = "EUR" := sanitize_symbol_of_upper (by decide) (by decide)
    have husd : sanitize_symbol USD = USD := sanitize_symbol_of_upper (by decide) (by decide)
    unfold sanitize_request eurUsdRequest
    dsimp only
    rw [heur, husd]
  have hlimited : is_rate_limited c.state 0 eurUsdRequest = true := by
    have hsum : REQUEST_COUNTER_LIMIT < Machine.saturating_add 32 0 c.state.request_counter := by
      refine lt_min ?_ (by decide)
      rw [Nat.zero_add]
      exact h
    rw [is_rate_limited, http_requests_needed_eq (Nat.zero_le 3), Nat.mul_zero,
      decide_eq_true hsum]
    rfl
  have hvalidation : validation (Environment.ordinary 0) (sanitize_request eurUsdRequest) c.state
      = .error .RateLimited := by
    rw [hsanitized]
    -- the request names its assets and a time that is past, so that the limit decides
    show (if is_rate_limited c.state 0 eurUsdRequest = true then
      (.error .RateLimited : Except ValidateRequestError Unit) else _) = _
    rw [if_pos hlimited]
  obtain ⟨s', hrun⟩ := run_of_rejected (paying_ordinary 0) (Or.inl rfl) hvalidation
    (undisturbed 0 fun _ _ => .error .NoRatesFound) 0
  refine hlimits (Environment.ordinary 0) eurUsdRequest _ 0 s' ?_ hrun
  rw [hsanitized]
  rfl

/-! ## Runs within the limit

A request that is subject to the limit never takes the counter beyond it. One that is exempt
may, and then only the end of a request brings the counter back. The runs without such an
arrival are just those in which no request without outcalls is turned away
(`forall_prefix_iff`). -/

/-- **A step keeps the counter within the limit** unless an exempt request exceeds it. A request
that the limit applies to is admitted only if there is room for it, and requests that end make
room. What remains is an exempt one. -/
theorem within_limit_step_iff {c : Canister L} (hwf : c.WellFormed)
    (h : c.state.request_counter ≤ REQUEST_COUNTER_LIMIT) (event : Event) :
    (step c event).state.request_counter ≤ REQUEST_COUNTER_LIMIT ↔ ¬ ExceedsLimit c event := by
  constructor
  · intro hle hexceeds
    cases event with
    | call env request => exact absurd hexceeds.2 (Nat.not_lt.mpr hle)
    | _ => exact hexceeds -- only a call can exceed it
  · intro hnot
    have hmove := (step_move c hwf event).2
    generalize hc' : step c event = c' at hmove
    cases hmove with
    | quiet _ _ _ hcounter =>
        rw [hcounter]
        exact h
    | @begins env request hadmitted _ _ hcounter =>
        by_cases hlimited : is_limited env (sanitize_request request) = true
        · -- the validation has made sure that there is room
          rw [hcounter]
          exact (Nat.min_le_left _ _).trans (room_of_admitted hadmitted hlimited)
        · rw [← hc']
          by_contra hlt
          exact hnot ⟨Bool.eq_false_of_not_eq_true hlimited, Nat.lt_of_not_le hlt⟩
    | ends _ _ _ _ hcounter =>
        rw [hcounter]
        exact (Nat.sub_le _ _).trans h

/-- **When the rate limit only stops outcalls**: in the runs in which no request that is exempt
from it, because of its caller or its pair, takes the counter above it.

Whoever is turned away by the limit is asking for outcalls as long as the counter is within it,
since the test adds the request's own cost. So the property of a state is that its counter is
within the limit, and the equivalence over runs follows from that of one step. -/
theorem limits_outcalls_only_iff (s : State L) (events : List Event) :
    (∀ n, LimitsOutcallsOnly (run (Canister.idle s) (events.take n)))
      ↔ ∀ n event, events[n]? = some event →
          ¬ ExceedsLimit (run (Canister.idle s) (events.take n)) event := by
  have hstate : ∀ n, LimitsOutcallsOnly (run (Canister.idle s) (events.take n))
      ↔ (run (Canister.idle s) (events.take n)).state.request_counter
        ≤ REQUEST_COUNTER_LIMIT := by
    intro n
    constructor
    · intro h
      by_contra hlt
      exact not_limitsOutcallsOnly_of_lt (Nat.lt_of_not_le hlt) h
    · exact limitsOutcallsOnly_of_le
  simp only [hstate]
  refine forall_prefix_iff (P := fun c : Canister L => c.state.request_counter
    ≤ REQUEST_COUNTER_LIMIT) ?_ (Canister.wellFormed_idle s) (Nat.zero_le _) events
  intro c hwf hc event
  exact within_limit_step_iff hwf hc event

end Limit

/-! ## A burst of privileged pairs

Four pairs that are exempt, asked for by ordinary callers at the same time, are enough. -/

/-- Ordinary callers ask for the prices of four coins in US dollars. -/
def burst : List Event :=
  [ICP, BTC, ETH, USDT].map fun symbol =>
    .call (Environment.ordinary 1_699_833_630) ⟨⟨symbol, .Cryptocurrency⟩, usd_asset, none⟩

/-- While they wait, a fiat pair is turned away although it needs no outcall. -/
theorem fiat_pair_rate_limited :
    letI := defaultBuild
    letI := asciiUnicode
    ¬ LimitsOutcallsOnly (run (Canister.idle (State.new : State RecentRates)) burst) := by
  let _ := defaultBuild
  let _ := asciiUnicode
  intro h
  have hneeded : rates_needed (Environment.ordinary 1_699_833_630)
      (sanitize_request ⟨⟨"EUR", .FiatCurrency⟩, usd_asset, some 1_699_833_600⟩)
      (run (Canister.idle (State.new : State RecentRates)) burst).state = 0 := by
    decide +kernel
  have hlimited : ((get_exchange_rate_internal (Environment.ordinary 1_699_833_630)
      ⟨⟨"EUR", .FiatCurrency⟩, usd_asset, some 1_699_833_600⟩
      (run (Canister.idle (State.new : State RecentRates)) burst).state).run
        (undisturbed 1_699_833_630 fun _ _ => .error .NoRatesFound) 0).map Prod.snd
      = some (.error .RateLimited) := by
    decide +kernel
  obtain ⟨⟨s', result⟩, hrun, hresult⟩ := Option.map_eq_some_iff.mp hlimited
  cases hresult
  exact h _ _ _ 0 s' hneeded hrun

end Xrc
