/-
What a request is charged. All handlers charge in their first segment, before any
outcall, and no later segment charges again; the fee follows from the outcome of the
validation and of the forex lookup. One early return breaks the rule: a fiat pair that
fails its validation is not charged at all, where the other two handlers take the
minimum fee.

`charged_iff` says that this is the only exception.
-/
import Xrc.ApiSpec

set_option autoImplicit false

namespace Xrc

open Async

variable [Features] [Unicode] {L α : Type}

/-! ## The fees of a run

What is charged is read off the ledger, segment by segment: a fee is what a segment has added to
it. A caller who pays has to be one of whom the system moves what the canister asks for. -/

/-- The fees taken in each segment of a run. -/
def fees_taken (segments : List (State L × State L)) : List (List ℕ) :=
  segments.map fun p => p.2.accepted.drop p.1.accepted.length

/-- One fee in the first segment, which ends before the first outcall, and none after. A segment
is what a request does between two suspensions, so a fee that was taken is kept even if the
request should trap later on. -/
def ChargedOnce (fees : List (List ℕ)) (fee : ℕ) : Prop :=
  ∃ later, fees = [fee] :: later ∧ ∀ f ∈ later, f = []

/-- A caller who pays: neither anonymous nor privileged, with enough cycles attached, of
which the system moves what it is asked for. -/
structure Paying (env : Environment) : Prop where
  not_anonymous : is_caller_anonymous env.caller = false
  not_privileged : is_caller_privileged env.caller = false
  has_enough_cycles : env.has_enough_cycles = true
  accepts : ∀ fee, env.accept_cycles fee = fee

/-- The fee for a request that is answered: the base cost, and the cost of its outcalls
for two rates at most. -/
def full_fee (num_rates_needed : ℕ) : ℕ :=
  XRC_BASE_CYCLES_COST + XRC_OUTBOUND_HTTP_CALL_CYCLES_COST * min num_rates_needed 2

section Cached

variable [LruCache L CacheKey QueriedExchangeRate]

/-- The fee a request owes: the minimum fee when it is rejected by the validation or by
the forex lookup (for a fiat pair: on any error), the full fee otherwise. -/
def owed_fee (env : Environment) (request : GetExchangeRateRequest) (s : State L) : ℕ :=
  let timestamp := (chosen_timestamp env request s).value
  let served :=
    match request.base_asset.class', request.quote_asset.class' with
    | .Cryptocurrency, .Cryptocurrency => true
    | .FiatCurrency, .FiatCurrency => (fiat_rate env request timestamp s).isOk
    | _, _ => (lookup_fiat env (routed_request request) timestamp s).isOk
  if (validation env request s).isOk && served then full_fee (rates_needed env request s)
  else XRC_MINIMUM_FEE_COST

/-! ## Charging

One case for each way a handler can charge, and the contract `Tracked` for what comes later. The
exception is found by following the handler of fiat pairs, whose validation returns early. -/

omit [Features] [Unicode] [LruCache L CacheKey QueriedExchangeRate] in
theorem full_fee_eq (num_rates_needed : ℕ) :
    calculate_fee (.OutboundRatesNeeded num_rates_needed) = full_fee num_rates_needed :=
  calculate_fee_outbound num_rates_needed

/-- The fees a caller is charged for a request of this kind. -/
def fees_of (env : Environment) (fee : ℕ) : List ℕ :=
  if is_caller_privileged env.caller then [] else [fee]

omit [Features] [Unicode] [LruCache L CacheKey QueriedExchangeRate] in
/-- **The charge of a handler**, for a privileged caller and for one who pays. The fee is the full
one only for a valid request. The state goes on with it in the list of what was accepted, next to
the cache that was read before. -/
theorem charge_cycles_eq {env : Environment}
    (hpay : is_caller_privileged env.caller = true ∨ Paying env) (num_rates_needed : ℕ)
    (is_valid_request : Bool) (s : State L) (cache : ExchangeRateCache L)
    (rest : State L → Handler L (Except ExchangeRateError α)) :
    charge_cycles env num_rates_needed is_valid_request { s with cache := cache } rest
      = rest (s.charged cache (fees_of env
          (if is_valid_request then full_fee num_rates_needed else XRC_MINIMUM_FEE_COST))) := by
  unfold charge_cycles fees_of
  rcases hpay with hprivileged | hpaying
  · simp only [hprivileged, if_true, State.charged, List.append_nil]
  · simp only [hpaying.not_privileged, Bool.false_eq_true, if_false]
    rw [charge_cycles_spec env _ hpaying.has_enough_cycles (hpaying.accepts _)]
    cases is_valid_request with
    | false => rfl
    | true => rw [if_pos rfl, if_pos rfl, full_fee_eq]; rfl

/-- A fiat pair that fails its validation. -/
def RejectedFiatPair (env : Environment) (request : GetExchangeRateRequest) (s : State L) : Prop :=
  request.base_asset.class' = .FiatCurrency ∧ request.quote_asset.class' = .FiatCurrency
    ∧ ∃ error, validation env request s = .error error

/-- **What a request is charged in its first segment**, when it is not a fiat pair that
fails its validation. -/
theorem tracked_fees {env : Environment} {request : GetExchangeRateRequest} {s : State L}
    (hpay : is_caller_privileged env.caller = true ∨ Paying env)
    (hfiat : ¬ RejectedFiatPair env request s) :
    Holds (Tracked (guard_key env request s) (fees_of env (owed_fee env request s))
      (Admitted env request s)) s [] (route_request env request s) := by
  unfold RejectedFiatPair validation rates_needed chosen_timestamp routed_request at hfiat
  unfold route_request guard_key Admitted owed_fee validation rates_needed chosen_timestamp
    fetched_symbols routed_request
  cases hbase : request.base_asset.class' <;> cases hquote : request.quote_asset.class' <;>
    dsimp only
  · -- crypto/crypto
    unfold handle_cryptocurrency_pair gather_cryptocurrency_pair
    rw [Bool.and_true]
    apply Tracked.map _
    dsimp only
    rw [charge_cycles_eq hpay]
    exact tracked_proceed_cryptocurrency_pair request _ _ _ _ s _ _
  · -- crypto/fiat: the forex lookup decides about the fee along with the validation
    unfold handle_crypto_base_fiat_quote_pair gather_crypto_base_fiat_quote_pair
    refine Tracked.map _ (Tracked.map _ ?_)
    dsimp only
    rw [charge_cycles_eq hpay]
    exact tracked_proceed_crypto_base_fiat_quote_pair request _ _ _ _ _ _ s _ _
  · -- fiat/crypto: the same handler, with the request inverted
    unfold handle_crypto_base_fiat_quote_pair gather_crypto_base_fiat_quote_pair
    refine Tracked.map _ (Tracked.map _ ?_)
    dsimp only
    rw [charge_cycles_eq hpay]
    exact tracked_proceed_crypto_base_fiat_quote_pair _ _ _ _ _ _ _ s _ _
  · -- fiat/fiat: the handler returns before charging when the validation fails
    simp only [hbase, hquote, true_and, not_exists] at hfiat
    unfold handle_fiat_pair
    dsimp only
    cases hvalid : validate_request env request 0
        (.requested_or_current (utils.get_normalized_timestamp env request)) s with
    | error error => exact absurd hvalid (hfiat error)
    | ok u =>
        have hcharge := charge_cycles_eq hpay 0 (fiat_rate env request
          (NormalizedTimestamp.requested_or_current
            (utils.get_normalized_timestamp env request)).value s).isOk s s.cache
          fun s' => .done s' (fiat_rate env request (NormalizedTimestamp.requested_or_current
            (utils.get_normalized_timestamp env request)).value s)
        refine hcharge ▸ ?_
        exact tracked_done _ _ _ s s.cache _

end Cached

/-! ## Over a whole run

A later segment has the guards of its request, and under `Tracked` such a segment takes nothing.
So the fees of a run are those of its first segment, and the rule is decided there. -/

omit [Features] [Unicode] in
/-- A segment that takes nothing. -/
theorem drop_accepted_self {a b : State L} (h : b.accepted = a.accepted) :
    b.accepted.drop a.accepted.length = [] := by
  rw [h, List.drop_length]

/-- Once the guards are held, nothing is taken any more. They start with the guards held, and a
contract that holds them does not touch the fees. -/
theorem later_segments_free {key : GuardKey} {fees : List ℕ} {admitted : Prop}
    (w : World (State L) Call Answer) :
    ∀ (t : Handler L α) (n : ℕ) (s : State L),
      Holds (Tracked key fees admitted) s key.guards t →
        ∀ p ∈ t.segments w n s, p.2.accepted = p.1.accepted
  | .done b a, n, s, h, p, hp => by
    rw [segments, List.mem_singleton] at hp
    subst hp
    -- the first disjunct is a first segment, which holds no guards yet
    rcases h with ⟨hnil, -⟩ | ⟨-, -, -, haccepted⟩
    · cases hnil
    · exact haccepted
  | .trap, _, _, _, _, hp => by cases hp
  | .await b held call resume, n, s, ⟨⟨hheld, _, hcase⟩, hresume⟩, p, hp => by
    rw [segments, List.mem_cons] at hp
    rcases hp with rfl | hp
    · rcases hcase with ⟨hnil, -⟩ | ⟨-, -, -, haccepted⟩
      · cases hnil
      · exact haccepted
    · subst hheld
      exact later_segments_free w _ (n + 1) _ (hresume _ _ trivial) p hp

/-- **The fees of a tracked run**: all of them in the first segment. A handler charges before its
first call, and nothing that it does after that touches the fees; so the later segments are about
the rates alone. -/
theorem fees_taken_of_tracked {key : GuardKey} {fees : List ℕ} {admitted : Prop}
    (w : World (State L) Call Answer) (n : ℕ) {s : State L} {t : Handler L α}
    (h : Holds (Tracked key fees admitted) s [] t) :
    ∃ later, fees_taken (t.segments w n s) = fees :: later ∧ ∀ f ∈ later, f = [] := by
  cases t with
  | done b a =>
      refine ⟨[], ?_, fun f hf => absurd hf List.not_mem_nil⟩
      rcases h with ⟨-, -, -, haccepted⟩ | ⟨hnil, -⟩
      · rw [segments, fees_taken, List.map_singleton, haccepted, List.drop_left]
      · cases hnil
  | trap => exact absurd h id
  | await b held call resume =>
      obtain ⟨⟨hheld, -, hcase⟩, hresume⟩ := h
      refine ⟨fees_taken (segments w (n + 1) (w.respond n call b).2
        (resume (w.respond n call b).1 (w.respond n call b).2)), ?_, ?_⟩
      · rcases hcase with ⟨-, -, -, -, haccepted⟩ | ⟨hnil, -⟩
        · rw [segments, fees_taken, List.map_cons, haccepted, List.drop_left]
          rfl
        · cases hnil
      · -- later segments leave the fees as they are, so what they add to them is nothing
        intro f hf
        obtain ⟨p, hp, rfl⟩ := List.mem_map.mp hf
        subst hheld
        exact drop_accepted_self (later_segments_free w _ (n + 1) _ (hresume _ _ trivial) p hp)

section Requests

variable [LruCache L CacheKey QueriedExchangeRate]

/-- A fiat pair that fails its validation is answered at once, for free. -/
theorem route_request_rejected_fiat {env : Environment} {request : GetExchangeRateRequest}
    {s : State L} (h : RejectedFiatPair env request s) :
    ∃ error, route_request env request s = .done s (.error error) := by
  obtain ⟨hbase, hquote, error, hvalid⟩ := h
  unfold validation rates_needed chosen_timestamp routed_request at hvalid
  simp only [hbase, hquote] at hvalid
  refine ⟨error.into, ?_⟩
  unfold route_request handle_fiat_pair
  simp only [hbase, hquote, hvalid]

/-- **When the charging rule holds.** A caller who pays is charged once, before any outcall, what
the request owes, and a privileged or anonymous caller is never charged, unless the request is a
fiat pair that fails its validation.

One direction exhibits the early return of `handle_fiat_pair`, which takes no fee where one is
owed. For the other, every handler keeps the contract `Tracked`, in which all fees of a request
fall into its first segment. -/
theorem charged_iff (env : Environment) (request : GetExchangeRateRequest) (s : State L)
    (w : World (State L) Call Answer) (n : ℕ) :
    ((Paying env →
        ChargedOnce (fees_taken ((get_exchange_rate_internal env request s).segments w n s))
          (owed_fee env (sanitize_request request) s))
      ∧ (is_caller_privileged env.caller = true ∨ is_caller_anonymous env.caller = true →
          ∀ fees ∈ fees_taken ((get_exchange_rate_internal env request s).segments w n s),
            fees = []))
      ↔ ¬ (Paying env ∧ RejectedFiatPair env (sanitize_request request) s) := by
  have hsegments : (get_exchange_rate_internal env request s).segments w n s
      = (answer_request env request s).segments w n s := segments_map w _ _ n s
  rw [hsegments]
  -- neither of the two early returns of `get_exchange_rate` is for a caller who pays
  have hpaid : Paying env →
      answer_request env request s = route_request env (sanitize_request request) s :=
    fun hpay => answer_request_of_let_in hpay.not_anonymous (Or.inr hpay.has_enough_cycles) _ s
  have hfree : ∀ error : ExchangeRateError, ∀ fees ∈ fees_taken
      ((.done s (.error error) : Handler L RateResult).segments w n s), fees = [] := by
    intro error fees hfees
    rw [segments, fees_taken, List.map_singleton, List.mem_singleton] at hfees
    rw [hfees, drop_accepted_self rfl]
  constructor
  · -- a rejected fiat pair takes no fee, where the rule asks for one
    rintro ⟨hcharged, -⟩ ⟨hpay, hrejected⟩
    obtain ⟨error, hdone⟩ := route_request_rejected_fiat hrejected
    obtain ⟨later, hfees, -⟩ := hcharged hpay
    rw [hpaid hpay, hdone] at hfees
    have := hfree error _ (hfees ▸ List.mem_cons_self)
    cases this
  · intro hnot
    constructor
    · intro hpay
      rw [hpaid hpay]
      have htracked := tracked_fees (Or.inr hpay) fun hrejected => hnot ⟨hpay, hrejected⟩
      rw [fees_of, if_neg (by rw [hpay.not_privileged]; decide)] at htracked
      exact fees_taken_of_tracked w n htracked
    · intro hcaller
      by_cases hanonymous : is_caller_anonymous env.caller = true
      · rw [answer_request, if_pos hanonymous]
        exact hfree _
      · have hprivileged := hcaller.resolve_right hanonymous
        rw [answer_request_of_let_in (Bool.eq_false_of_not_eq_true hanonymous) (Or.inl hprivileged)]
        -- for a privileged caller the early return is harmless: nothing is owed
        by_cases hrejected : RejectedFiatPair env (sanitize_request request) s
        · obtain ⟨error, hdone⟩ := route_request_rejected_fiat hrejected
          rw [hdone]
          exact hfree error
        · have htracked := tracked_fees (Or.inl hprivileged) hrejected
          rw [fees_of, if_pos hprivileged] at htracked
          obtain ⟨later, hfees, hlater⟩ := fees_taken_of_tracked w n htracked
          rw [hfees]
          intro fees hmem
          rcases List.mem_cons.mp hmem with rfl | hmem
          · rfl
          · exact hlater fees hmem

end Requests

/-- EUR/USD for a minute that is still in the future. -/
def futureFiatRequest : GetExchangeRateRequest :=
  ⟨⟨"EUR", .FiatCurrency⟩, ⟨"USD", .FiatCurrency⟩, some 6_000⟩

omit [Features] [Unicode] in
/-- A caller who pays is not charged for a fiat pair requested for the future. -/
theorem rejected_fiat_pair_not_charged :
    letI := defaultBuild
    letI := asciiUnicode
    ¬ ∀ (env : Environment) (request : GetExchangeRateRequest) (s : State RecentRates)
        (w : World (State RecentRates) Call Answer) (n : ℕ), Paying env →
      ChargedOnce (fees_taken ((get_exchange_rate_internal env request s).segments w n s))
        (owed_fee env (sanitize_request request) s) := by
  let _ := defaultBuild
  let _ := asciiUnicode
  intro h
  have hpaying : Paying (Environment.ordinary 60) := ⟨by decide, by decide, by decide, fun _ => rfl⟩
  obtain ⟨later, hfees, -⟩ := h (Environment.ordinary 60) futureFiatRequest State.new
    (CallExchangesImpl.undisturbed 60 fun _ _ => .error .NoRatesFound) 0 hpaying
  have hnone : fees_taken ((get_exchange_rate_internal (Environment.ordinary 60)
      futureFiatRequest (State.new : State RecentRates)).segments
        (CallExchangesImpl.undisturbed 60 fun _ _ => .error .NoRatesFound) 0 State.new) = [[]] := by
    decide +kernel
  rw [hnone] at hfees
  cases hfees

end Xrc
