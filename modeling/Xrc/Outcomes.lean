/-
What requests end in, over whole runs and whatever the exchanges and the forex sources answer.
A rate has at most `2 * DECIMALS` decimals: where a composition comes to more, it has lost its
rates, and the validation turns it away; an inversion afterwards scales no further. An error
without a kind of its own has one of the texts of `errors.rs`.

`outcome_get_exchange_rate_internal` says so of one request, `outcomes_of_run` of every answer.
-/
import Xrc.Answers
import Xrc.Bookkeeping
import Xrc.Rejections
import Xrc.Validation

set_option autoImplicit false

namespace Xrc

open Async QueriedExchangeRate

/-! ## Errors

Most errors are a kind of their own. The others carry a code and a text, and `Worded` lists the
texts there are, so that a property of all texts can be checked one by one. -/

/-- An error of a kind of its own, or with a text of `errors.rs`. -/
inductive Worded : ExchangeRateError → Prop where
  | kind {error : ExchangeRateError} (h : ∀ other, error ≠ .Other other) : Worded error
  | base_asset_symbol_invalid : Worded errors.base_asset_symbol_invalid_error
  | quote_asset_symbol_invalid : Worded errors.quote_asset_symbol_invalid_error
  | timestamp_is_in_future (requested current : ℕ) :
      Worded (errors.timestamp_is_in_future_error requested current)
  | invalid_rate : Worded errors.invalid_rate_error

theorem ValidateRequestError.worded_into (e : ValidateRequestError) : Worded e.into := by
  cases e with
  | FutureTimestamp requested current => exact .timestamp_is_in_future requested current
  | BaseAssetInvalidSymbol => exact .base_asset_symbol_invalid
  | QuoteAssetInvalidSymbol => exact .quote_asset_symbol_invalid
  | _ => exact .kind nofun

theorem GetForexRateError.worded_into (e : GetForexRateError) : Worded e.into := by
  cases e <;> exact .kind nofun

theorem stablecoin.StablecoinRateError.worded_into (e : StablecoinRateError) :
    Worded e.into := by
  cases e <;> exact .kind nofun

/-- The renaming of the roles keeps to the texts. -/
theorem Worded.crypto_fiat_error {error : ExchangeRateError} (h : Worded error) :
    Worded (crypto_fiat_error error) := by
  unfold Xrc.crypto_fiat_error
  split
  · exact .kind nofun
  · exact h

theorem Worded.inverted {error : ExchangeRateError} (h : Worded error) :
    Worded (invert_exchange_rate_error_for_fiat_crypto_pair error) := by
  unfold invert_exchange_rate_error_for_fiat_crypto_pair
  split
  · exact .kind nofun
  · exact .kind nofun
  · split
    · exact .quote_asset_symbol_invalid
    · split
      · exact .base_asset_symbol_invalid
      · exact h
  · exact h

/-! ## Results

Two properties are followed through a result at once, one of its value and one of its error.
What a composition does to decimals is known from `RateSpec.lean`: beyond twice their number a
product has lost its rates, and the validation refuses a rate without any. -/

/-- A value with a property, or an error with its words. Nothing is claimed about the kinds of
errors, which depend on the request; only their texts matter to those who print them. -/
def EndsAs {α : Type} (R : α → Prop) : Except ExchangeRateError α → Prop
  | .ok a => R a
  | .error error => Worded error

section EndsAs

variable {α β : Type} {R : α → Prop} {S : β → Prop} {result : Except ExchangeRateError α}

theorem EndsAs.bind {f : α → Except ExchangeRateError β} (h : EndsAs R result)
    (hf : ∀ a, R a → EndsAs S (f a)) : EndsAs S (result.bind f) := by
  cases result with
  | ok a => exact hf a h
  | error error => exact h

theorem EndsAs.map {f : α → β} (h : EndsAs R result) (hf : ∀ a, R a → S (f a)) :
    EndsAs S (result.map f) := by
  cases result with
  | ok a => exact hf a h
  | error error => exact h

theorem EndsAs.imp {S : α → Prop} (h : EndsAs R result) (hf : ∀ a, R a → S a) :
    EndsAs S result := by
  cases result with
  | ok a => exact hf a h
  | error error => exact h

theorem EndsAs.mapError {f : ExchangeRateError → ExchangeRateError} (h : EndsAs R result)
    (hf : ∀ error, Worded error → Worded (f error)) : EndsAs R (result.mapError f) := by
  cases result with
  | ok a => exact h
  | error error => exact hf error h

end EndsAs

/-- A rate that its number of decimals scales to a word. -/
def Scaled (rate : QueriedExchangeRate) : Prop := rate.decimals_or_default ≤ 2 * DECIMALS

/-- The validation lets no empty set of rates pass. -/
theorem outcome_validate (rate : QueriedExchangeRate) :
    EndsAs (fun q => q = rate ∧ q.rates ≠ []) rate.validate := by
  cases hresult : rate.validate with
  | ok q =>
      have hq := eq_of_validate_ok hresult
      subst hq
      refine ⟨rfl, ?_⟩
      -- a median that is positive is not one of an empty list
      intro hnil
      have hpos := ((validate_ok_iff q).mp hresult).1
      rw [hnil, median_nil] at hpos
      exact absurd hpos (by decide)
  | error error =>
      unfold validate at hresult
      dsimp only at hresult
      split at hresult
      · cases hresult
        exact .invalid_rate
      · split at hresult
        · cases hresult
          exact .kind nofun
        · cases hresult

/-- What is left of a product has few decimals. -/
theorem outcome_crypto_crypto_rate (operands : CryptoCryptoOperands) :
    EndsAs Scaled (crypto_crypto_rate operands) := by
  have hvalidated := outcome_validate (operands.base_rate / operands.quote_rate)
  unfold crypto_crypto_rate
  cases hresult : (operands.base_rate / operands.quote_rate).validate with
  | error error =>
      rw [hresult] at hvalidated
      exact hvalidated
  | ok q =>
      rw [hresult] at hvalidated
      obtain ⟨rfl, hne⟩ := hvalidated
      exact mul_decimals_le hne

theorem outcome_crypto_fiat_rate (operands : CryptoFiatOperands) :
    EndsAs Composed (crypto_fiat_rate operands) := by
  cases hresult : crypto_fiat_rate operands with
  | ok p => exact composed_of_crypto_fiat_rate hresult
  | error error =>
      unfold crypto_fiat_rate at hresult
      split at hresult
      · rename_i e _
        cases hresult
        exact e.worded_into
      · rename_i rate _
        have hvalidated := outcome_validate (operands.crypto_base_rate * rate / operands.forex_rate)
        rw [show (operands.crypto_base_rate * rate / operands.forex_rate).validate = .error error
          from hresult] at hvalidated
        exact hvalidated

theorem Composed.scaled {p : QueriedExchangeRate} (h : Composed p) : Scaled p := h.decimals_le

/-- The inverse is scaled up to where its median can be inverted, and no further. -/
theorem Composed.scaled_inverted {p : QueriedExchangeRate} (h : Composed p) :
    Scaled p.inverted := by
  obtain ⟨-, d', hd', -, hle, -⟩ := inverted_eq h.inRange h.decimals_le
  unfold Scaled decimals_or_default
  rw [hd']
  exact hle

theorem outcome_presented (request : GetExchangeRateRequest) {result : RateResult}
    (h : EndsAs Composed result) : EndsAs Scaled (presented request result) := by
  unfold presented
  split
  · exact EndsAs.mapError (h.imp fun _ => Composed.scaled) fun _ => Worded.crypto_fiat_error
  · exact EndsAs.mapError (h.map fun _ => Composed.scaled_inverted) fun _ => Worded.inverted

/-! ## Forex rates

The forex rates are not composed before they are stored, so all of them have the decimals they
were collected with. The invariant is on the entries of the store, and merging keeps one entry
or the other. -/

/-- A rate as it is collected: all of it in range, with the decimals it starts with. No decimals
are given yet, so the default applies, and composing such rates stays within the bounds of the
arithmetic. -/
structure FreshEntry (rate : QueriedExchangeRate) : Prop where
  decimals_eq : rate.decimals = none
  inRange : InRange rate.rates

theorem freshEntry_new (base_asset quote_asset : Asset) (timestamp : ℕ) (rates : List ℕ)
    (queried received : ℕ) (forex_timestamp : Option ℕ) :
    FreshEntry (QueriedExchangeRate.new base_asset quote_asset timestamp rates queried received
      forex_timestamp) := ⟨rfl, new_rates_inRange _ _ _ _ _ _ _⟩

theorem FreshEntry.scaled {rate : QueriedExchangeRate} (h : FreshEntry rate) : Scaled rate := by
  unfold Scaled decimals_or_default
  rw [h.decimals_eq]
  decide

/-- All entries of a store are as they were collected. Merging keeps one of two entries as it is,
and nothing else ever writes to a store. -/
def ForexRateStore.Fresh (self : ForexRateStore) : Prop :=
  ∀ day rates, self.rates day = some rates → ∀ symbol rate, rates symbol = some rate →
    FreshEntry rate

theorem ForexRateStore.fresh_new : ForexRateStore.new.Fresh := by
  intro day rates hrates
  cases hrates

/-- A merge keeps an entry of either side. -/
theorem ForexRateStore.Fresh.put {self : ForexRateStore} (h : self.Fresh) (timestamp : ℕ)
    {rates : ForexMultiRateMap} (hrates : ∀ symbol rate, rates symbol = some rate →
      FreshEntry rate) : (self.put timestamp rates).Fresh := by
  intro day stored hstored symbol rate hrate
  by_cases hday : day = start_of_day timestamp
  · subst hday
    rw [put_rates_self] at hstored
    rw [← Option.some.inj hstored] at hrate
    rcases (merge_entry_spec hrate).1 with hold | hnew
    · obtain ⟨before, hbefore, hentry⟩ := Option.bind_eq_some_iff.mp hold
      exact h _ before hbefore symbol rate hentry
    · exact hrates symbol rate hnew
  · rw [put_rates_of_ne self rates hday] at hstored
    exact h day stored hstored symbol rate hrate

section Stores

variable [Features]

/-- What a day of the collector would store. All of them are built by `new`, the computed XDR rate
among them, and no operation has been applied to any. -/
theorem freshEntry_of_get_rates_map {odc : OneDayRatesCollector} {symbol : String}
    {rate : QueriedExchangeRate} (h : odc.get_rates_map symbol = some rate) : FreshEntry rate := by
  have hcollected : odc.collected_rate symbol = some rate → FreshEntry rate := by
    intro hrate
    unfold OneDayRatesCollector.collected_rate at hrate
    split at hrate
    · cases hrate
    · obtain ⟨rates, -, rfl⟩ := Option.map_eq_some_iff.mp hrate
      exact freshEntry_new _ _ _ _ _ _ _
  -- the computed rate is built by `new` like the collected ones
  by_cases hcxdr : symbol = COMPUTED_XDR_SYMBOL
  · rw [hcxdr, OneDayRatesCollector.get_rates_map_cxdr, Option.or_eq_some_iff] at h
    rcases h with hcomputed | ⟨-, hquoted⟩
    · unfold OneDayRatesCollector.get_computed_xdr_rate at hcomputed
      split at hcomputed
      · rw [← Option.some.inj hcomputed]
        exact freshEntry_new _ _ _ _ _ _ _
      · cases hcomputed
    · exact hcollected (hcxdr ▸ hquoted)
  · rw [OneDayRatesCollector.get_rates_map_of_ne odc hcxdr] at h
    exact hcollected h

theorem fresh_store_step (collector : ForexRatesCollector) {store : ForexRateStore}
    (h : store.Fresh) (timestamp : ℕ) : (periodic.store_step collector store timestamp).Fresh := by
  unfold periodic.store_step
  cases hmap : collector.get_rates_map timestamp with
  | none => exact h
  | some rates =>
      obtain ⟨odc, -, rfl⟩ := Option.map_eq_some_iff.mp hmap
      apply h.put
      intro symbol rate hrate
      by_cases husd : symbol = USD
      · -- USD itself is not stored
        rw [husd, Function.update_self] at hrate
        cases hrate
      · rw [Function.update_of_ne husd] at hrate
        exact freshEntry_of_get_rates_map hrate

theorem fresh_stored (collector : ForexRatesCollector) (days : List ℕ) :
    ∀ {store : ForexRateStore}, store.Fresh →
      (days.foldl (periodic.store_step collector) store).Fresh := by
  induction days with
  | nil => exact fun h => h
  | cons day days ih => exact fun h => ih (fresh_store_step collector h day)

/-- **The forex update stores rates as they were collected.** Only an update that ends changes the
store, and it stores rates of the collector, merged with those of before. Neither merging nor
storing computes a new rate. -/
theorem fresh_step [Calendar] {s : periodic.ForexState} (h : s.forex_store.Fresh)
    (event : periodic.ForexEvent) : (periodic.step s event).forex_store.Fresh := by
  cases event with
  | heartbeat timestamp =>
      show (periodic.start_update s timestamp).forex_store.Fresh
      unfold periodic.start_update
      split
      · exact h
      · split
        · exact h
        · exact h
  | answers answer =>
      show (periodic.finish_update s answer).forex_store.Fresh
      unfold periodic.finish_update
      cases s.updating with
      | none => exact h
      | some update => exact fresh_stored _ _ h
  | upgraded => exact h

theorem fresh_run [Calendar] (events : List periodic.ForexEvent) :
    (periodic.run periodic.ForexState.new events).forex_store.Fresh := by
  induction events using List.reverseRecOn with
  | nil => exact ForexRateStore.fresh_new
  | append_singleton events event ih =>
      rw [periodic.run, List.foldl_append]
      exact fresh_step ih event

variable [Unicode]

/-- **A validated lookup has few decimals**: a stored rate is answered as it is, inverted, or in a
product. -/
theorem outcome_lookup {self : ForexRateStore} (h : self.Fresh)
    (requested current : ℕ) (base_asset quote_asset : String) :
    EndsAs Scaled (((self.get requested current base_asset quote_asset).mapError
      GetForexRateError.into).bind QueriedExchangeRate.validate) := by
  cases hget : self.get requested current base_asset quote_asset with
  | error e => exact e.worded_into
  | ok rate =>
      apply (outcome_validate rate).imp
      rintro q ⟨rfl, hne⟩
      rcases ForexRateStore.get_cases hget with ⟨-, rfl⟩ | ⟨day, rates, hfound, hcases⟩
      · exact (freshEntry_new _ _ _ _ _ _ _).scaled
      · obtain ⟨-, -, -, -, hday, -⟩ := ForexRateStore.search_spec
          (MAX_DAYS_TO_GO_BACK + 1) 0 (by omega) hfound
        have hfresh := h day rates hday
        -- stored, inverted, or divided: the bound on the decimals comes from the operation
        rcases hcases with ⟨-, -, hbase⟩ | ⟨-, -, quote, hquote, rfl⟩
          | ⟨-, -, -, base, quote, -, -, rfl⟩
        · exact (hfresh _ _ hbase).scaled
        · obtain ⟨-, d', hd', -, hle, -⟩ := inverted_eq (hfresh _ _ hquote).inRange
            (hfresh _ _ hquote).scaled
          unfold Scaled decimals_or_default
          rw [hd']
          exact hle
        · exact mul_decimals_le hne

end Stores

/-! ## Requests

One case for each handler, over the contracts of `Answers.lean` and `Rejections.lean`: the value
is what was composed and validated, and the error one of those the handler can end in. Nothing
is assumed of what calls are answered with. -/

section Requests

variable {L α : Type}

/-- The contracts of all errors together bound the result. -/
theorem endsIn_of_rejectsWhen {handler : Handler L (Except ExchangeRateError α)} (s : State L)
    (h : ∀ error, Holds (RejectsWhen error (Worded error)) s [] handler) :
    EndsIn (EndsAs fun _ => True) handler := by
  refine EndsIn.of_holds (C := fun error => RejectsWhen error (Worded error)) ?_ ?_ h
  · intro _ _ _ result hdone
    cases result with
    | ok a => trivial
    | error error => exact hdone error rfl
  · intro _ _ _
    trivial

/-- What the validation turns a request away with. -/
theorem RejectedWith.worded {error : ExchangeRateError}
    {validated : Except ValidateRequestError Unit} (h : RejectedWith error validated) :
    Worded error := by
  obtain ⟨e, -, rfl⟩ := h
  exact e.worded_into

variable [Features] [Unicode] [LruCache L CacheKey QueriedExchangeRate]

theorem endsIn_gather_cryptocurrency_pair (env : Environment) (request : GetExchangeRateRequest)
    (s : State L) :
    EndsIn (EndsAs fun _ => True) (gather_cryptocurrency_pair env request s) := by
  refine endsIn_of_rejectsWhen s ?_
  intro error
  refine rejectsWhen_charge_cycles ?_ ?_ env _ _ s _
  · rintro rfl
    exact .kind nofun
  · intro s₁
    unfold proceed_cryptocurrency_pair
    split
    · rename_i e _
      intro herror
      cases herror
      exact e.worded_into
    · split
      · exact RejectsWhen.ok _ s₁ s₁ []
      · refine rejectsWhen_guards ?_ _ _ _ s₁
        intro s₂
        unfold fetch_cryptocurrency_pair
        -- a failed fetch is a base or a quote that was not found
        refine rejectsWhen_fetch_rate ?_ ?_ rfl s₂
        · rintro rfl
          exact .kind nofun
        · intro base_rate failed_exchanges s₃
          refine rejectsWhen_fetch_rate ?_ ?_ rfl s₃
          · rintro rfl
            exact .kind nofun
          · intro quote_rate _ s₄
            exact RejectsWhen.ok _ s₄ s₄ []

theorem endsIn_gather_crypto_base_fiat_quote_pair (env : Environment)
    (request : GetExchangeRateRequest) (s : State L) :
    EndsIn (EndsAs fun _ => True) (gather_crypto_base_fiat_quote_pair env request s) := by
  refine endsIn_of_rejectsWhen s ?_
  intro error
  refine rejectsWhen_charge_cycles ?_ ?_ env _ _ s _
  · rintro rfl
    exact .kind nofun
  · intro s₁
    refine RejectsWhen.of_start (rejectsWhen_proceed_crypto_base_fiat_quote_pair _ _
      RejectedWith.worded ?_ ?_ _ _ _ s₁) s₁ []
    · intro hlookup
      unfold lookup_fiat at hlookup
      obtain ⟨e, -, rfl⟩ := mapError_eq_error_iff.mp hlookup
      exact e.worded_into
    · rintro rfl
      exact .kind nofun

/-- **Every request ends well**, whatever its asset classes. The two routes with cryptocurrencies
end in a composition, which is validated before it is presented. The third one looks a rate up,
which is a stored one, its inverse, or a quotient of two, and has the decimals of one. -/
theorem outcome_route_request (env : Environment) (request : GetExchangeRateRequest) {s : State L}
    (hstore : s.forex_store.Fresh) :
    EndsIn (EndsAs Scaled) (route_request env request s) := by
  cases pairKind request with
  | crypto_fiat_pair hpair =>
      rw [route_request_crypto_fiat hpair]
      refine EndsIn.map (P := EndsAs Composed) (fun result => outcome_presented request) ?_
      refine EndsIn.map ?_ (endsIn_gather_crypto_base_fiat_quote_pair env _ s)
      exact fun result hresult => hresult.bind fun operands _ => outcome_crypto_fiat_rate operands
  | crypto_pair hbase hquote =>
      rw [(route_request_crypto_crypto hbase hquote env s).1]
      refine EndsIn.map ?_ (endsIn_gather_cryptocurrency_pair env request s)
      exact fun result hresult => hresult.bind fun operands _ =>
        outcome_crypto_crypto_rate operands
  | fiat_pair hbase hquote =>
      unfold route_request
      rw [hbase, hquote]
      unfold handle_fiat_pair
      dsimp only
      split
      · rename_i e _
        exact e.worded_into
      · -- what is looked up does not depend on the charge
        have hresult := outcome_lookup hstore (utils.get_normalized_timestamp env request)
          env.time_secs request.base_asset.symbol request.quote_asset.symbol
        unfold charge_cycles
        split
        · exact hresult
        · dsimp only
          split
          · exact hresult
          · exact .kind nofun
          · trivial

/-- **What a message ends in.** The conversion keeps the decimals, and the two errors before the
routing have their own kinds. -/
theorem outcome_get_exchange_rate_internal (env : Environment) (request : GetExchangeRateRequest)
    {s : State L} (hstore : s.forex_store.Fresh) :
    EndsIn (EndsAs fun answer : ExchangeRate => answer.metadata.decimals ≤ 2 * DECIMALS)
      (get_exchange_rate_internal env request s) := by
  unfold get_exchange_rate_internal
  refine EndsIn.map (P := EndsAs Scaled)
    (fun result hresult => EndsAs.map (f := into) hresult fun rate hrate => hrate) ?_
  rcases answer_request_cases env request s with ⟨error, hearly, hanswer⟩ | ⟨-, -, hanswer⟩
  · rw [hanswer]
    rcases hearly with rfl | rfl
    · exact .kind nofun
    · exact .kind nofun
  · rw [hanswer]
    exact outcome_route_request env (sanitize_request request) hstore

end Requests

/-! ## Runs

A suspended request ends well whatever it is resumed with, and a timer brings forex rates that
were stored by the forex update. This carries over a run, and then to the logs, whose entries
are answers that were sent. -/

section Runs

variable [Features] [Unicode] {L : Type} [LruCache L CacheKey QueriedExchangeRate]

/-- What an answer is: a rate with few decimals, or an error with its words. This is what the page
and the log entries need of a result to be rendered without a panic. -/
def Proper : GetExchangeRateResult → Prop :=
  EndsAs fun answer => answer.metadata.decimals ≤ 2 * DECIMALS

/-- The terms that only ask for fresh forex rates. -/
def freshTerms : Terms L where
  answers _ _ := True
  forex_store := ForexRateStore.Fresh
  asked _ := True
  cache _ := True
  rate_of _ _ _ := True
  asked_sanitized _ := trivial
  asked_stablecoin _ _ := trivial
  cache_get _ _ _ := trivial
  cache_insert _ _ _ _ _ _ := trivial
  rate_of_lookup _ _ _ _ _ _ := trivial
  rate_of_crypto _ _ := trivial
  rate_of_stablecoin _ _ _ _ := trivial

/-- A forex store that the forex update has left. -/
def ForexRateStore.Stored [Calendar] (self : ForexRateStore) : Prop :=
  ∃ updates, self = (periodic.run periodic.ForexState.new updates).forex_store

omit [Unicode] in
theorem ForexRateStore.Stored.fresh [Calendar] {self : ForexRateStore} (h : self.Stored) :
    self.Fresh := by
  obtain ⟨updates, rfl⟩ := h
  exact fresh_run updates

namespace Service

variable [Calendar] {s : State L}

/-- The forex rates are fresh at every point of a run. -/
theorem fresh_of_run (hstore : s.forex_store.Stored) {events : List Event}
    (hstored : ∀ event ∈ events, event.Stored) :
    ((Service.new s).run events).served.state.forex_store.Fresh := by
  rw [((simulates_new s).run events).state_eq]
  refine (Terms.kept_run (t := freshTerms) trivial hstore.fresh events ?_).forex_store
  intro event hevent
  have hstored := hstored event hevent
  cases event with
  | timer forex_store listing_store => exact ForexRateStore.Stored.fresh hstored
  | resume i now_secs answers => exact fun call => trivial
  | _ => trivial

/-- Every suspended request ends well. The answer and the state are arbitrary, so nothing that
happens before it is resumed can change this. -/
def EndsWell (sv : Service L) : Prop :=
  ∀ session ∈ sv.sessions, ∀ answer served, EndsIn Proper (session.resume answer served)

omit [Calendar] in
/-- A message, run by the endpoint. -/
theorem endsIn_get_exchange_rate {sv : Service L}
    (hfresh : sv.served.state.forex_store.Fresh) (env : Environment)
    (request : GetExchangeRateRequest) :
    EndsIn Proper (get_exchange_rate env request sv.served) :=
  (outcome_get_exchange_rate_internal env request hfresh).within

omit [Calendar] in
/-- **The answer an event sends** is proper. A message is answered when it arrives, or when it is
resumed for the last time. In both cases its program was known to end well before the event. -/
theorem EndsWell.sends {sv : Service L} (h : sv.EndsWell)
    (hfresh : sv.served.state.forex_store.Fresh) {event : Event} {answer : Reply}
    (hsent : sv.sends event = some answer) : Proper answer.result := by
  cases event with
  | call env request =>
      -- a request that is answered at once ends as every message does
      have hends := endsIn_get_exchange_rate hfresh env request
      unfold Service.sends at hsent
      dsimp only at hsent
      split at hsent
      · rename_i served result hrun
        rw [hrun] at hends
        cases hsent
        exact hends
      · cases hsent
  | resume i now_secs answers =>
      unfold Service.sends at hsent
      dsimp only at hsent
      split at hsent
      · cases hsent
      · rename_i session hsession
        -- one that was suspended ends well whatever it is answered
        have hends := h session (List.mem_of_getElem? hsession) (answers session.call) sv.served
        split at hsent
        · cases hsent
        · split at hsent
          · rename_i served result hrun
            rw [hrun] at hends
            cases hsent
            exact hends
          · cases hsent
  | timer forex_store listing_store => cases hsent
  | outcall_returned i => cases hsent

omit [Calendar] in
/-- **What stays suspended** ends well. Ending well is a property of the program that is
suspended, whatever the state will be when it is resumed and whatever it is answered. So what
other requests do in the meantime cannot break it. -/
theorem EndsWell.step {sv : Service L} (h : sv.EndsWell)
    (hfresh : sv.served.state.forex_store.Fresh) (event : Event) : (sv.step event).EndsWell := by
  cases event with
  | call env request =>
      have hends := endsIn_get_exchange_rate hfresh env request
      show (sv.arrive env request).EndsWell
      unfold arrive
      split
      · exact h
      · exact h
      · rename_i served held call resume hrun
        rw [hrun] at hends
        split
        · intro session hsession
          rcases List.mem_append.mp hsession with hold | hnew
          · exact h session hold
          · rw [List.mem_singleton.mp hnew]
            exact hends
        · exact h
  | resume i now_secs answers =>
      show (sv.resume_session i now_secs answers).EndsWell
      unfold resume_session
      split
      · exact h
      · rename_i session hsession
        have hends := h session (List.mem_of_getElem? hsession) (answers session.call) sv.served
        split
        · exact h
        · split
          · exact fun session' hmem => h session' (List.mem_of_mem_eraseIdx hmem)
          · exact fun session' hmem => h session' (List.mem_of_mem_eraseIdx hmem)
          · rename_i served held call resume hrun
            rw [hrun] at hends
            intro session' hmem
            rcases List.mem_or_eq_of_mem_set hmem with hold | rfl
            · exact h session' hold
            · exact hends
  | timer forex_store listing_store => exact h
  | outcall_returned i =>
      intro session hsession
      obtain ⟨j, hj⟩ := List.mem_iff_getElem?.mp hsession
      rw [Service.step, List.getElem?_modify, Option.map_eq_map, Option.map_eq_some_iff] at hj
      -- only the count of the outcalls has changed
      obtain ⟨before, hbefore, rfl⟩ := hj
      have hends := h before (List.mem_of_getElem? hbefore)
      by_cases hij : i = j
      · rw [if_pos hij]
        exact hends
      · rw [if_neg hij]
        exact hends

/-- **Every answer is proper.** Both parts are proved together, since the answer to a message
depends on how its program was suspended earlier in the run. -/
theorem outcomes_of_run (hstore : s.forex_store.Stored) (events : List Event)
    (hstored : ∀ event ∈ events, event.Stored) :
    ((Service.new s).run events).EndsWell
      ∧ ∀ answer ∈ (Service.new s).answered events, Proper answer.result := by
  induction events using List.reverseRecOn with
  | nil =>
      refine ⟨?_, ?_⟩
      · intro session hsession
        cases hsession
      · intro answer hanswer
        cases hanswer
  | append_singleton events event ih =>
      have hbefore : ∀ e ∈ events, e.Stored := fun e he => hstored e (List.mem_append_left _ he)
      obtain ⟨hends, hanswered⟩ := ih hbefore
      have hfresh := fresh_of_run hstore hbefore
      -- the last event sends one answer at most, and the others were sent before
      rw [run_concat, Service.answered, outputs_concat]
      refine ⟨hends.step hfresh event, ?_⟩
      intro answer hanswer
      rcases List.mem_append.mp hanswer with hold | hnew
      · exact hanswered answer hold
      · exact hends.sends hfresh (Option.mem_toList.mp hnew)

omit [Features] [LruCache L CacheKey QueriedExchangeRate] [Calendar] in
/-- A log takes in a proper answer. -/
theorem proper_log_answer {log : RequestLog} (h : ∀ entry ∈ log.entries, Proper entry.result)
    {answer : Reply} (hanswer : Proper answer.result) :
    ∀ entry ∈ (log.log_answer answer).entries, Proper entry.result := by
  have hcons : ∀ entry ∈ answer.entry :: log.entries, Proper entry.result :=
    List.forall_mem_cons.mpr ⟨hanswer, h⟩
  intro entry hentry
  unfold RequestLog.log_answer RequestLog.log at hentry
  dsimp only at hentry
  split at hentry
  · exact hcons entry (List.mem_of_mem_dropLast hentry)
  · exact hcons entry hentry

/-- **The logs hold proper results.** An entry of a log has the result that was sent, so this
follows from the answers of the run. The logs keep no more than some of them. -/
theorem logged_outcomes (hstore : s.forex_store.Stored) (events : List Event)
    (hstored : ∀ event ∈ events, event.Stored) (privileged : Bool) :
    ∀ entry ∈ (((Service.new s).run events).served.log_of privileged).entries,
      Proper entry.result := by
  induction events using List.reverseRecOn with
  | nil =>
      intro entry hentry
      cases privileged <;> cases hentry
  | append_singleton events event ih =>
      have hbefore := ih fun e he => hstored e (List.mem_append_left _ he)
      -- what is logged is an answer that was sent
      have hsent : ∀ answer, ((Service.new s).run events).sends event = some answer →
          Proper answer.result := by
        intro answer hanswer
        apply (outcomes_of_run hstore (events ++ [event]) hstored).2 answer
        rw [Service.answered, outputs_concat, hanswer]
        exact List.mem_append_right _ List.mem_cons_self
      have hlogged : ∀ {answer : Reply}, ((Service.new s).run events).sends event = some answer →
          ((Service.new s).run (events ++ [event])).served.log_of privileged
            = (if answer.origin.privileged = privileged then
              (((Service.new s).run events).served.log_of privileged).log_answer answer
              else ((Service.new s).run events).served.log_of privileged) →
          ∀ entry ∈ (((Service.new s).run (events ++ [event])).served.log_of privileged).entries,
            Proper entry.result := by
        intro answer hanswer hlogs
        rw [hlogs]
        split
        · exact proper_log_answer hbefore (hsent answer hanswer)
        · exact hbefore
      -- two of the four kinds of event write to a log
      cases books_run s events event with
      | quiet _ _ _ hlogs _ =>
          rw [hlogs]
          exact hbefore
      | taken _ _ _ hlogs _ =>
          rw [hlogs]
          exact hbefore
      | answered _ hsends _ hlogs _ => exact hlogged hsends (hlogs privileged)
      | resumed _ hsends _ hlogs _ _ => exact hlogged hsends (hlogs privileged)

/-- **Every answer scales to a word, or has its words.** From any state whose forex rates the
forex update has stored, however requests interleave, whatever the exchanges and the forex sources
answer: a rate that is sent has at most `2 * DECIMALS` decimals, so that `10 ^ decimals` is a
word; and an error that is sent has a kind of its own or one of the four texts.

The bound on the decimals is lost in a product and regained by the validation, as a product of too
many decimals has no rates left. A suspended request carries the bound with it, whatever it is
resumed with, so that the theorem is one induction over the run. -/
theorem answers_scale_to_words (hstore : s.forex_store.Stored) (events : List Event)
    (hstored : ∀ event ∈ events, event.Stored) :
    ∀ answer ∈ (Service.new s).answered events,
      (∀ rate, answer.result = .ok rate → rate.metadata.decimals ≤ 2 * DECIMALS
        ∧ 10 ^ rate.metadata.decimals ≤ Machine.wordMax 64)
      ∧ ∀ error, answer.result = .error error → Worded error := by
  intro answer hanswer
  have hproper := (outcomes_of_run hstore events hstored).2 answer hanswer
  constructor
  · intro rate hrate
    rw [hrate] at hproper
    have hdecimals : rate.metadata.decimals ≤ 2 * DECIMALS := hproper
    refine ⟨hdecimals, ?_⟩
    exact (Nat.pow_le_pow_right (by decide) hdecimals).trans (by decide)
  · intro error herror
    rw [herror] at hproper
    exact hproper

end Service

end Runs

/-- A euro in euros, and a euro in dollars without forex rates. -/
def euroCalls : List Event :=
  [.call (Environment.ordinary 1_699_833_630)
      ⟨⟨"eur", .FiatCurrency⟩, ⟨"EUR", .FiatCurrency⟩, some 1_699_833_600⟩,
    .call (Environment.ordinary 1_699_833_630)
      ⟨⟨"eur", .FiatCurrency⟩, usd_asset, some 1_699_833_600⟩]

/-- One of the two is answered with a rate, the other with an error. -/
theorem euro_calls_answered :
    letI := defaultBuild
    letI := asciiUnicode
    letI := weekdays
    ((Service.new (State.new : State RecentRates)).answered euroCalls).map
        (fun answer => answer.result.isOk) = [true, false]
      ∧ ∀ answer ∈ (Service.new (State.new : State RecentRates)).answered euroCalls,
        ∀ error, answer.result = .error error → Worded error := by
  let _ := defaultBuild
  let _ := asciiUnicode
  let _ := weekdays
  refine ⟨by decide +kernel, ?_⟩
  intro answer hanswer
  have hstored : ∀ event ∈ euroCalls, event.Stored := by
    intro event hevent
    simp only [euroCalls, List.mem_cons, List.not_mem_nil, or_false] at hevent
    rcases hevent with rfl | rfl <;> trivial
  exact (Service.answers_scale_to_words (s := (State.new : State RecentRates)) ⟨[], rfl⟩ euroCalls
    hstored answer hanswer).2

end Xrc
