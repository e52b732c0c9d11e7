/-
Thin rates and privileged callers. A rate collected from few exchanges is not good enough
for a privileged caller, who has it fetched anew; but the stablecoins of a crypto/fiat pair
are read from the cache without that check. `thin_rates_iff` says that this is the only
way a thin rate gets into the answer.

The answer is followed back to the rates it is computed from (`ComposedOf`), and each of
these to its source: the entry of the cache for its symbol, or one of the answers that this
very run was given (`Sourced`). A rate that is fetched and then thrown away in favour of the
cached one would be neither.
-/
import Xrc.Validation

set_option autoImplicit false

namespace Xrc

open Async QueriedExchangeRate CallExchangesImpl

/-- A rate a privileged caller may rest on: the unit rate of USDT, or one with enough rates. The
unit rate has a single number in it and is exempt, as it is not made of any source's answers. -/
def Thick [Features] (rate : QueriedExchangeRate) : Prop :=
  rate.base_asset.symbol = USDT
    ∨ MIN_NUM_RATES_FOR_PRIVILEGED_CANISTERS ≤ rate.rates.length

/-! ## Answers and calls

An answer that gives a rate answers a call that asked for it, so that whatever a run was
given it has asked for. -/

section Given

variable {role : Role} {symbol : String} {rate : QueriedExchangeRate}

/-- What is given was asked for. An answer gives the rate of a symbol only in the role, and under
the symbol, that its call has named. -/
theorem asks_of_given {answer : (call : Call) × Answer call}
    (h : (symbol, rate) ∈ role.given answer) : role.asks symbol answer.1 := by
  obtain ⟨call, result⟩ := answer
  -- a role is only given rates by calls of its own kind
  cases role with
  | asset wanted =>
      cases call with
      | get_cryptocurrency_usdt_rate exchanges asked timestamp =>
          unfold Role.given at h
          dsimp only at h
          split at h
          · rename_i hasked
            obtain ⟨_, -, heq⟩ := List.mem_map.mp h
            obtain rfl := (Prod.mk.inj heq).1
            exact ⟨rfl, hasked⟩
          · cases h
      | get_stablecoin_rates exchanges symbols timestamp => cases h
  | stablecoin =>
      cases call with
      | get_cryptocurrency_usdt_rate exchanges asked timestamp => cases h
      | get_stablecoin_rates exchanges symbols timestamp =>
          unfold Role.given at h
          obtain ⟨⟨result', symbol'⟩, hmem, heq⟩ := List.mem_filterMap.mp h
          obtain ⟨_, -, heq⟩ := Option.map_eq_some_iff.mp heq
          obtain rfl := (Prod.mk.inj heq).1
          exact ⟨rfl, (List.of_mem_zip hmem).2⟩

/-- The symbol of a given asset is the one of the role. -/
theorem symbol_of_given {wanted : String} {answer : (call : Call) × Answer call}
    (h : (symbol, rate) ∈ (Role.asset wanted).given answer) : symbol = wanted := by
  have hasks := asks_of_given h
  obtain ⟨call, result⟩ := answer
  cases call with
  | get_cryptocurrency_usdt_rate exchanges asked timestamp => exact (Role.asset.inj hasks.1).symm
  | get_stablecoin_rates exchanges symbols timestamp => exact absurd hasks.1 nofun

variable {L α : Type} {t : Handler L α} {w : World (State L) Call Answer} {n : ℕ}

/-- The answers of a run answer its calls. -/
theorem exists_call_of_given
    (h : (symbol, rate) ∈ (t.answered w n).flatMap role.given) :
    ∃ call ∈ t.calls w n, role.asks symbol call := by
  obtain ⟨answer, hanswer, hgiven⟩ := List.mem_flatMap.mp h
  exact ⟨answer.1, fst_mem_calls_of_mem_answered w hanswer, asks_of_given hgiven⟩

end Given

/-! ## Runs that fetch

What a run that ended well tells about each of its rates. `Obtained` is the disjunction that
every read makes, and it is carried from the innermost fetch outwards, with more and more
answers. -/

section Fetch

variable {L α : Type} {w : World (State L) Call Answer} {n : ℕ} {s : State L}

/-- Where a rate that was wanted under a symbol comes from: it was at hand, or it was missing
and one of the answers gave it. -/
def Obtained (maybe_rate : Option QueriedExchangeRate) (symbol : String)
    (answers : List ((call : Call) × Answer call)) (rate : QueriedExchangeRate) : Prop :=
  maybe_rate = some rate
    ∨ maybe_rate = none ∧ (symbol, rate) ∈ answers.flatMap (Role.asset symbol).given

/-- More answers do no harm. -/
theorem Obtained.mono {maybe_rate : Option QueriedExchangeRate} {symbol : String}
    {answers answers' : List ((call : Call) × Answer call)} {rate : QueriedExchangeRate}
    (h : Obtained maybe_rate symbol answers rate)
    (hmono : ∀ answer ∈ answers, answer ∈ answers') : Obtained maybe_rate symbol answers' rate := by
  refine h.imp id fun ⟨hnone, hgiven⟩ => ⟨hnone, ?_⟩
  obtain ⟨answer, hanswer, hmem⟩ := List.mem_flatMap.mp hgiven
  exact List.mem_flatMap.mpr ⟨answer, hmono answer hanswer, hmem⟩

section Cached

variable [Unicode] [LruCache L CacheKey QueriedExchangeRate]

/-- **A rate that is fetched without an error** is the one at hand, or it was given; what
follows receives just that rate, and its answers are answers of the whole. -/
theorem fetch_rate_ok {exchanges : List Exchange} {asset : Asset} {timestamp : ℕ}
    {not_found : ExchangeRateError} {maybe_rate : Option QueriedExchangeRate}
    {rest : QueriedExchangeRate → List Exchange → State L →
      Handler L (Except ExchangeRateError α)} {a : α}
    (h : (fetch_rate exchanges asset timestamp not_found maybe_rate rest s).result w n
      = some (.ok a)) :
    ∃ rate failed_exchanges s₁ n₁, (rest rate failed_exchanges s₁).result w n₁ = some (.ok a)
      ∧ Obtained maybe_rate asset.symbol
          ((fetch_rate exchanges asset timestamp not_found maybe_rate rest s).answered w n) rate
      ∧ ∀ answer ∈ (rest rate failed_exchanges s₁).answered w n₁,
          answer ∈ (fetch_rate exchanges asset timestamp not_found maybe_rate rest s).answered w n
    := by
  -- a rate at hand costs no answer; otherwise the first answer is the rate
  cases maybe_rate with
  | some rate => exact ⟨rate, [], s, n, h, Or.inl rfl, fun _ hanswer => hanswer⟩
  | none =>
      rw [fetch_rate, result_await] at h
      rw [fetch_rate, answered_await]
      cases hanswer : (w.respond n (.get_cryptocurrency_usdt_rate exchanges asset timestamp) s).1
        with
      | error error =>
          rw [hanswer] at h
          cases h
      | ok response =>
          rw [hanswer] at h
          refine ⟨response.queried_exchange_rate, response.failed_exchanges, _, n + 1, h,
            Or.inr ⟨rfl, ?_⟩, fun _ hlater => List.mem_cons_of_mem _ hlater⟩
          rw [List.flatMap_cons]
          apply List.mem_append_left
          simp [Role.given, response_rate, Except.toOption]

/-- **A crypto pair that is answered**: both of its rates were at hand, or given. The answers of
the run are what it was given, so a rate that was not at hand can be pointed out among them. -/
theorem proceed_cryptocurrency_pair_ok [Features] {request : GetExchangeRateRequest}
    {timestamp : ℕ} {validate_request_result : Except ValidateRequestError Unit}
    {maybe_base_rate maybe_quote_rate : Option QueriedExchangeRate}
    {operands : CryptoCryptoOperands}
    (h : (proceed_cryptocurrency_pair request timestamp validate_request_result maybe_base_rate
      maybe_quote_rate s).result w n = some (.ok operands)) :
    Obtained maybe_base_rate request.base_asset.symbol ((proceed_cryptocurrency_pair request
        timestamp validate_request_result maybe_base_rate maybe_quote_rate s).answered w n)
        operands.base_rate
      ∧ Obtained maybe_quote_rate request.quote_asset.symbol ((proceed_cryptocurrency_pair request
        timestamp validate_request_result maybe_base_rate maybe_quote_rate s).answered w n)
        operands.quote_rate := by
  unfold proceed_cryptocurrency_pair at h ⊢
  cases validate_request_result with
  | error error => cases h
  | ok u =>
      dsimp only at h ⊢
      split at h
      · -- both rates are cached
        obtain rfl := Except.ok.inj (Option.some.inj h)
        exact ⟨Or.inl rfl, Or.inl rfl⟩
      · -- the second fetch runs inside the first, so its answers are among those of the first
        rw [with_inflight_tracking, result_guarded, with_request_counter, result_guarded,
          fetch_cryptocurrency_pair] at h
        rw [with_inflight_tracking, answered_guarded, with_request_counter, answered_guarded,
          fetch_cryptocurrency_pair]
        obtain ⟨base_rate, failed_exchanges, s₁, n₁, hquote_fetch, hbase, hrest⟩ := fetch_rate_ok h
        obtain ⟨quote_rate, -, s₂, n₂, hdone, hquote, -⟩ := fetch_rate_ok hquote_fetch
        obtain rfl := Except.ok.inj (Option.some.inj hdone)
        exact ⟨hbase, hquote.mono hrest⟩

/-- What is asked for as a stablecoin was missed. Only symbols that were not found in the cache
are asked for, whatever is found later. -/
theorem missed_of_asked [Features] {request : GetExchangeRateRequest}
    {timestamp : ℕ} {validate_request_result : Except ValidateRequestError Unit}
    {forex_rate_result : RateResult} {maybe_crypto_base_rate : Option QueriedExchangeRate}
    {stablecoin_rates : List QueriedExchangeRate} {missed_stablecoin_symbols : List String}
    {call : Call} {symbol : String}
    (hcall : call ∈ (proceed_crypto_base_fiat_quote_pair request timestamp validate_request_result
      forex_rate_result maybe_crypto_base_rate stablecoin_rates missed_stablecoin_symbols s).calls
        w n)
    (hasks : Role.stablecoin.asks symbol call) : symbol ∈ missed_stablecoin_symbols := by
  unfold proceed_crypto_base_fiat_quote_pair at hcall
  cases validate_request_result with
  | error error => cases hcall
  | ok u =>
      cases forex_rate_result with
      | error error => cases hcall
      | ok forex_rate =>
          dsimp only at hcall
          split at hcall
          · cases hcall
          · rw [with_inflight_tracking, calls_guarded, with_request_counter, calls_guarded,
              fetch_crypto_fiat_pair, calls_await, List.mem_cons] at hcall
            rcases hcall with rfl | hlater
            · exact hasks.2
            · -- the only other call is for the cryptocurrency
              unfold fetch_rate at hlater
              split at hlater
              · cases hlater
              · rw [calls_await, List.mem_cons] at hlater
                rcases hlater with rfl | hlater
                · exact Role.noConfusion hasks.1
                · split at hlater
                  · cases hlater
                  · cases hlater

end Cached

end Fetch

/-! ## What an answer rests on

An answer rests on the operands that were gathered for it. Each of them has a role, and the
sources that are good for a role are either the cache, if what it holds is thick, or the answers
of this very run. For the assets of a request the good sources are the only ones
(`asset_rests`); for the stablecoins that depends on what is cached. -/

section Rests

variable [Features] [Unicode] {L : Type} [LruCache L CacheKey QueriedExchangeRate]

omit [Features] [Unicode] in
/-- The roles that rates have in the answer to a request. -/
def roles_used (request : GetExchangeRateRequest) : List Role :=
  match request.base_asset.class', request.quote_asset.class' with
  | .Cryptocurrency, .Cryptocurrency =>
    [.asset request.base_asset.symbol, .asset request.quote_asset.symbol]
  | .FiatCurrency, .FiatCurrency => []
  | _, _ => [.asset (routed_request request).base_asset.symbol, .stablecoin]

/-- **The rates an answer is computed from**, each in its role, forex rates apart. They are what
the handler has gathered at the end of its run, and the answer is composed of nothing else. There
is one case for each route, and in each the answer is a function of the listed rates and of the
forex rates. -/
inductive ComposedOf (env : Environment) (request : GetExchangeRateRequest) (s : State L)
    (w : World (State L) Call Answer) (n : ℕ) :
    List (Role × QueriedExchangeRate) → QueriedExchangeRate → Prop
  | crypto_pair {operands : CryptoCryptoOperands} {q : QueriedExchangeRate}
      (hbase : request.base_asset.class' = .Cryptocurrency)
      (hquote : request.quote_asset.class' = .Cryptocurrency)
      (hgathered : (gather_cryptocurrency_pair env request s).result w n = some (.ok operands))
      (hcomposed : crypto_crypto_rate operands = .ok q) :
      ComposedOf env request s w n
        [(.asset request.base_asset.symbol, operands.base_rate),
          (.asset request.quote_asset.symbol, operands.quote_rate)] q
  | crypto_fiat_pair {operands : CryptoFiatOperands} {q : QueriedExchangeRate}
      (hpair : is_crypto_fiat_pair request = true)
      (hgathered : (gather_crypto_base_fiat_quote_pair env (routed_request request) s).result w n
        = some (.ok operands))
      (hcomposed : presented request (crypto_fiat_rate operands) = .ok q) :
      ComposedOf env request s w n
        ((.asset (routed_request request).base_asset.symbol, operands.crypto_base_rate)
          :: operands.stablecoin_rates.map (Role.stablecoin, ·)) q
  | fiat_pair {q : QueriedExchangeRate}
      (hbase : request.base_asset.class' = .FiatCurrency)
      (hquote : request.quote_asset.class' = .FiatCurrency)
      (hcomposed : fiat_rate env request (chosen_timestamp env request s).value s = .ok q) :
      ComposedOf env request s w n [] q

/-- A rate with a source that is good enough for a privileged caller: it is the thick rate that
the cache holds for a symbol of its role, or one of the answers gave it for that symbol. -/
def Sourced (cache : ExchangeRateCache L) (timestamp : ℕ)
    (answers : List ((call : Call) × Answer call)) (role : Role) (rate : QueriedExchangeRate) :
    Prop :=
  ∃ symbol ∈ role.symbols, (cache.lookup symbol timestamp = some rate ∧ Thick rate)
    ∨ (symbol, rate) ∈ answers.flatMap role.given

/-- A thin rate that the cache holds for a symbol of some role is asked for again. -/
def FetchedAnew (cache : ExchangeRateCache L) (timestamp : ℕ) (calls : List Call) (role : Role) :
    Prop :=
  ∀ symbol ∈ role.symbols, ∀ cached, cache.lookup symbol timestamp = some cached →
    ¬ Thick cached → ∃ call ∈ calls, role.asks symbol call

/-- A stablecoin in the cache is thin. It is a condition on the cache that the request finds, at
the timestamp that it was routed with. -/
def ThinStablecoin (cache : ExchangeRateCache L) (timestamp : ℕ) : Prop :=
  ∃ symbol ∈ STABLECOIN_BASES, ∃ cached, cache.lookup symbol timestamp = some cached
    ∧ ¬ Thick cached

omit [Features] [Unicode] in
/-- A result that is presented was composed. -/
theorem exists_operands_of_presented {request : GetExchangeRateRequest} {q : QueriedExchangeRate}
    {gathered : Except ExchangeRateError CryptoFiatOperands}
    (h : presented request (gathered.bind crypto_fiat_rate) = .ok q) :
    ∃ operands, gathered = .ok operands := by
  cases gathered with
  | ok operands => exact ⟨operands, rfl⟩
  | error error =>
      unfold presented at h
      cases hclass : request.base_asset.class' <;> rw [hclass] at h <;> cases h

/-- What a pair of both classes asks for as a stablecoin is not in the cache. -/
theorem stablecoin_missed_of_asked {request : GetExchangeRateRequest}
    (hpair : is_crypto_fiat_pair request = true) (env : Environment) (s : State L)
    {w : World (State L) Call Answer} {n : ℕ} :
    ∀ call ∈ (gather_crypto_base_fiat_quote_pair env (routed_request request) s).calls w n,
      ∀ symbol, Role.stablecoin.asks symbol call →
        symbol ∈ STABLECOIN_BASES
          ∧ s.cache.lookup symbol (chosen_timestamp env request s).value = none := by
  intro call hcall symbol hasks
  obtain ⟨cache, hgather⟩ := gather_crypto_base_fiat_quote_pair_eq hpair env s
  rw [hgather] at hcall
  obtain ⟨fees, hrest⟩ := charge_cycles_of_calls (List.ne_nil_of_mem hcall)
  rw [hrest] at hcall
  have hmissed := List.mem_filter.mp (missed_of_asked hcall hasks)
  exact ⟨hmissed.1, Option.isNone_iff_eq_none.mp hmissed.2⟩

section Privileged

variable {env : Environment} (hprivileged : is_caller_privileged env.caller = true)
  {cache : ExchangeRateCache L} {symbol : String} {timestamp : ℕ} {rate : QueriedExchangeRate}

include hprivileged

/-- A privileged caller is only given thick rates. -/
theorem thick_of_usable_rate
    (h : usable_rate cache env.caller symbol timestamp = some rate) : Thick rate := by
  have husable := (Option.filter_eq_some_iff.mp h).2
  simp only [usable_for, hprivileged, Bool.not_true, Bool.false_or, Bool.or_eq_true,
    decide_eq_true_eq] at husable
  exact husable

/-- A thin rate is not given to a privileged caller. -/
theorem usable_rate_of_thin (hcached : cache.lookup symbol timestamp = some rate)
    (hthin : ¬ Thick rate) : usable_rate cache env.caller symbol timestamp = none := by
  cases h : usable_rate cache env.caller symbol timestamp with
  | none => rfl
  | some usable =>
      have husable := (Option.filter_eq_some_iff.mp h).1
      rw [hcached] at husable
      obtain rfl := Option.some.inj husable
      exact absurd (thick_of_usable_rate hprivileged h) hthin

omit [Features] [Unicode] [LruCache L CacheKey QueriedExchangeRate] in
/-- A privileged caller is not charged. -/
theorem charge_cycles_of_privileged {α : Type} (num_rates_needed : ℕ) (is_valid_request : Bool)
    (s : State L) (rest : State L → Handler L (Except ExchangeRateError α)) :
    charge_cycles env num_rates_needed is_valid_request s rest = rest s := by
  rw [charge_cycles, if_pos hprivileged]

/-- **An asset's rate that was obtained has a good source, and a thin one was not used.** It is
the filter in front of the cache that makes both halves true: a thin rate does not pass it, and
then it counts as missing and has to be asked for. -/
theorem asset_rests {α : Type} {t : Handler L α} {w : World (State L) Call Answer} {n : ℕ}
    (h : Obtained (usable_rate cache env.caller symbol timestamp) symbol (t.answered w n) rate) :
    Sourced cache timestamp (t.answered w n) (.asset symbol) rate
      ∧ FetchedAnew cache timestamp (t.calls w n) (.asset symbol) := by
  constructor
  · refine ⟨symbol, List.mem_singleton_self symbol, h.imp ?_ And.right⟩
    intro husable
    exact ⟨(Option.filter_eq_some_iff.mp husable).1, thick_of_usable_rate hprivileged husable⟩
  · intro symbol' hsymbol cached hcached hthin
    obtain rfl := List.mem_singleton.mp hsymbol
    -- a thin rate counts as missing, so that it had to be given
    have hmissing := usable_rate_of_thin hprivileged hcached hthin
    rcases h with husable | ⟨-, hgiven⟩
    · rw [hmissing] at husable
      cases husable
    · exact exists_call_of_given hgiven

omit hprivileged in
/-- What a pair of both classes is supplied with was obtained. -/
theorem obtained_of_supplied {answers : List ((call : Call) × Answer call)}
    (h : supplied_rate cache env.caller symbol timestamp answers = some rate) :
    Obtained (usable_rate cache env.caller symbol timestamp) symbol answers rate := by
  unfold supplied_rate at h
  cases husable : usable_rate cache env.caller symbol timestamp with
  | some usable =>
      rw [husable, Option.some_or] at h
      exact Or.inl h
  | none =>
      rw [husable, Option.none_or, Option.map_eq_some_iff] at h
      obtain ⟨⟨symbol', rate'⟩, hfirst, rfl⟩ := h
      have hgiven := List.mem_of_head? hfirst
      obtain ⟨answer, -, hmem⟩ := List.mem_flatMap.mp hgiven
      obtain rfl := symbol_of_given hmem
      exact Or.inr ⟨rfl, hgiven⟩

variable {request : GetExchangeRateRequest} {s : State L} {w : World (State L) Call Answer}
  {n : ℕ} {q : QueriedExchangeRate}

/-- **A crypto pair** always rests on thick rates, and has the thin ones fetched. Both of its
rates are read through the filter, so nothing has to be assumed about the cache. -/
theorem crypto_pair_rests (hbase : request.base_asset.class' = .Cryptocurrency)
    (hquote : request.quote_asset.class' = .Cryptocurrency)
    (hresult : (route_request env request s).result w n = some (.ok q)) :
    ∃ used, ComposedOf env request s w n used q
      ∧ (∀ operand ∈ used, Sourced s.cache (chosen_timestamp env request s).value
          ((route_request env request s).answered w n) operand.1 operand.2)
      ∧ ∀ role ∈ roles_used request, FetchedAnew s.cache (chosen_timestamp env request s).value
          ((route_request env request s).calls w n) role := by
  obtain ⟨hhandler, htimestamp⟩ := route_request_crypto_crypto hbase hquote env s
  obtain ⟨hbase_read, hquote_read⟩ := read_cryptocurrency_pair_eq env request
    (chosen_timestamp env request s).value s.cache
  have hroles : roles_used request
      = [.asset request.base_asset.symbol, .asset request.quote_asset.symbol] := by
    unfold roles_used
    rw [hbase, hquote]
  rw [hhandler, handle_cryptocurrency_pair] at hresult ⊢
  rw [result_map, Option.map_eq_some_iff] at hresult
  rw [answered_map, calls_map, hroles]
  obtain ⟨gathered, hgathered, hbound⟩ := hresult
  -- the answer is composed of the two rates that were gathered
  obtain ⟨operands, rfl, hcomposed⟩ := bind_eq_ok_iff.mp hbound
  refine ⟨_, .crypto_pair hbase hquote hgathered hcomposed, ?_⟩
  unfold gather_cryptocurrency_pair at hgathered ⊢
  dsimp only at hgathered ⊢
  rw [← htimestamp, charge_cycles_of_privileged hprivileged, hbase_read, hquote_read]
    at hgathered ⊢
  obtain ⟨hbase_rate, hquote_rate⟩ := proceed_cryptocurrency_pair_ok hgathered
  -- each of them was read through the check, or fetched
  obtain ⟨hbase_sourced, hbase_fetched⟩ := asset_rests hprivileged hbase_rate
  obtain ⟨hquote_sourced, hquote_fetched⟩ := asset_rests hprivileged hquote_rate
  constructor
  · intro operand hmem
    rcases List.mem_cons.mp hmem with rfl | hmem
    · exact hbase_sourced
    · obtain rfl := List.mem_singleton.mp hmem
      exact hquote_sourced
  · intro role hmem
    rcases List.mem_cons.mp hmem with rfl | hmem
    · exact hbase_fetched
    · obtain rfl := List.mem_singleton.mp hmem
      exact hquote_fetched

/-- **A crypto/fiat pair** rests on thick rates, and has the thin ones fetched, exactly when no
stablecoin in the cache is thin. -/
theorem crypto_fiat_pair_rests_iff (hpair : is_crypto_fiat_pair request = true)
    (hresult : (route_request env request s).result w n = some (.ok q)) :
    ∃ used, ComposedOf env request s w n used q
      ∧ (((∀ operand ∈ used, Sourced s.cache (chosen_timestamp env request s).value
            ((route_request env request s).answered w n) operand.1 operand.2)
          ∧ ∀ role ∈ roles_used request, FetchedAnew s.cache
            (chosen_timestamp env request s).value ((route_request env request s).calls w n) role)
        ↔ ¬ ThinStablecoin s.cache (chosen_timestamp env request s).value) := by
  have hroles : roles_used request
      = [.asset (routed_request request).base_asset.symbol, .stablecoin] := by
    unfold roles_used
    rcases classes_of_crypto_fiat_pair hpair with ⟨hbase, hquote⟩ | ⟨hbase, hquote⟩
    · rw [hbase, hquote]
    · rw [hbase, hquote]
  rw [route_request_crypto_fiat hpair] at hresult ⊢
  rw [result_map, result_map, Option.map_map, Option.map_eq_some_iff] at hresult
  rw [answered_map, answered_map, calls_map, calls_map, hroles]
  obtain ⟨gathered, hgathered, hpresented⟩ := hresult
  obtain ⟨operands, rfl⟩ := exists_operands_of_presented hpresented
  have hsupplies := (gather_result_iff hpair s operands).mp hgathered
  obtain ⟨hasset_sourced, hasset_fetched⟩ := asset_rests hprivileged (t :=
    gather_crypto_base_fiat_quote_pair env (routed_request request) s)
    (obtained_of_supplied hsupplies.crypto_base_rate)
  have hasked := stablecoin_missed_of_asked (w := w) (n := n) hpair env s
  refine ⟨_, .crypto_fiat_pair hpair hgathered hpresented, ?_, ?_⟩
  · -- a thin stablecoin is used as it is, and not asked for
    rintro ⟨-, hfetched⟩ ⟨symbol, hsymbol, cached, hcached, hthin⟩
    obtain ⟨call, hcall, hasks⟩ := hfetched .stablecoin
      (List.mem_cons_of_mem _ (List.mem_singleton_self _)) symbol hsymbol cached hcached hthin
    rw [(hasked call hcall symbol hasks).2] at hcached
    cases hcached
  · intro hnone
    have hstablecoins : ∀ symbol ∈ STABLECOIN_BASES, ∀ cached,
        s.cache.lookup symbol (chosen_timestamp env request s).value = some cached →
          Thick cached := by
      intro symbol hsymbol cached hcached
      by_contra hthin
      exact hnone ⟨symbol, hsymbol, cached, hcached, hthin⟩
    constructor
    · intro operand hmem
      rcases List.mem_cons.mp hmem with rfl | hmem
      · exact hasset_sourced
      · -- a stablecoin was in the cache, or one of the answers gave it
        obtain ⟨rate, hrate, rfl⟩ := List.mem_map.mp hmem
        rw [hsupplies.stablecoin_rates] at hrate
        rcases List.mem_append.mp hrate with hcached | hgiven
        · obtain ⟨symbol, hsymbol, hlookup⟩ := List.mem_filterMap.mp hcached
          exact ⟨symbol, hsymbol, Or.inl ⟨hlookup, hstablecoins symbol hsymbol rate hlookup⟩⟩
        · obtain ⟨⟨symbol, rate'⟩, hmem', rfl⟩ := List.mem_map.mp hgiven
          obtain ⟨call, hcall, hasks⟩ := exists_call_of_given hmem'
          exact ⟨symbol, (hasked call hcall symbol hasks).1, Or.inr hmem'⟩
    · intro role hmem
      rcases List.mem_cons.mp hmem with rfl | hmem
      · exact hasset_fetched
      · obtain rfl := List.mem_singleton.mp hmem
        intro symbol hsymbol cached hcached hthin
        exact absurd (hstablecoins symbol hsymbol cached hcached) hthin

end Privileged

variable {env : Environment} {request : GetExchangeRateRequest} {s : State L}
  {w : World (State L) Call Answer} {n : ℕ}

/-- **A fiat pair** rests on no rate of a cryptocurrency. Its answer comes from the forex store
alone, for the fee of a request without outcalls. -/
theorem fiat_pair_composed (hbase : request.base_asset.class' = .FiatCurrency)
    (hquote : request.quote_asset.class' = .FiatCurrency) {q : QueriedExchangeRate}
    (hresult : (route_request env request s).result w n = some (.ok q)) :
    ComposedOf env request s w n [] q ∧ roles_used request = [] := by
  have hchosen : chosen_timestamp env request s
      = .requested_or_current (utils.get_normalized_timestamp env request) := by
    unfold chosen_timestamp
    rw [hbase, hquote]
  obtain ⟨s', hrun⟩ := (result_eq_some_iff w n).mp hresult
  unfold route_request at hrun
  rw [hbase, hquote] at hrun
  dsimp only at hrun
  unfold handle_fiat_pair at hrun
  dsimp only at hrun
  refine ⟨.fiat_pair hbase hquote ?_, ?_⟩
  · split at hrun
    · cases hrun
    · rw [hchosen]
      exact charge_cycles_done hrun
  · unfold roles_used
    rw [hbase, hquote]

/-- **When a privileged caller rests on thick rates only.** Of a request that is answered,
every rate that the answer is computed from is a thick one of the cache or an answer of this
run, and every thin one in the cache is fetched anew, unless one of its assets is a currency
and a stablecoin in the cache is thin.

The check is part of `get_rate_from_cache`, through which the assets of a request are read,
and not of the cache, from which the stablecoins are read directly. So the assets always
rest on good rates (`asset_rests`), and a thin stablecoin is neither left out nor asked for. -/
theorem thin_rates_iff {env : Environment} (hprivileged : is_caller_privileged env.caller = true)
    (request : GetExchangeRateRequest) (s : State L) (w : World (State L) Call Answer) (n : ℕ)
    {s' : State L} {rate : ExchangeRate}
    (hrun : (get_exchange_rate_internal env request s).run w n = some (s', .ok rate)) :
    ∃ q used, q.into = rate ∧ ComposedOf env (sanitize_request request) s w n used q
      ∧ (((∀ operand ∈ used,
              Sourced s.cache (chosen_timestamp env (sanitize_request request) s).value
                ((get_exchange_rate_internal env request s).answered w n) operand.1 operand.2)
            ∧ ∀ role ∈ roles_used (sanitize_request request),
              FetchedAnew s.cache (chosen_timestamp env (sanitize_request request) s).value
                ((get_exchange_rate_internal env request s).calls w n) role)
          ↔ ¬ (is_crypto_fiat_pair request = true
            ∧ ThinStablecoin s.cache
              (chosen_timestamp env (sanitize_request request) s).value)) := by
  rw [get_exchange_rate_internal, run_map, Option.map_eq_some_iff] at hrun
  obtain ⟨⟨s'', result⟩, hrun, heq⟩ := hrun
  obtain ⟨q, rfl, hinto⟩ := map_eq_ok_iff.mp (Prod.mk.inj heq).2
  -- a request that is answered was let in
  have hroute : answer_request env request s = route_request env (sanitize_request request) s := by
    rcases answer_request_cases env request s with ⟨error, -, hdone⟩ | ⟨-, -, hroute⟩
    · rw [hdone] at hrun
      cases hrun
    · exact hroute
  rw [hroute] at hrun
  have hresult := (result_eq_some_iff w n).mpr ⟨s'', hrun⟩
  rw [get_exchange_rate_internal, answered_map, calls_map, hroute]
  have hsame : is_crypto_fiat_pair request = is_crypto_fiat_pair (sanitize_request request) := rfl
  rw [hsame]
  rcases pairKind (sanitize_request request) with hpair | ⟨hbase, hquote⟩ | ⟨hbase, hquote⟩
  · -- only these pairs read stablecoins
    obtain ⟨used, hcomposed, hrests⟩ := crypto_fiat_pair_rests_iff hprivileged hpair hresult
    refine ⟨q, used, hinto, hcomposed, ?_⟩
    rw [hrests, hpair]
    simp only [true_and]
  · obtain ⟨used, hcomposed, hrests⟩ := crypto_pair_rests hprivileged hbase hquote hresult
    refine ⟨q, used, hinto, hcomposed, iff_of_true hrests ?_⟩
    rintro ⟨hpair, -⟩
    exact of_decide_eq_true hpair (hbase.trans hquote.symm)
  · -- two currencies need no rate of a cryptocurrency
    obtain ⟨hcomposed, hroles⟩ := fiat_pair_composed hbase hquote hresult
    refine ⟨q, [], hinto, hcomposed, iff_of_true ⟨fun _ h => absurd h List.not_mem_nil, ?_⟩ ?_⟩
    · rw [hroles]
      exact fun _ h => absurd h List.not_mem_nil
    · rintro ⟨hpair, -⟩
      exact of_decide_eq_true hpair (hbase.trans hquote.symm)

end Rests

/-! ## One exchange

A cache with one thin rate in it. If it is the rate of ICP it is asked for again, and if it is
the rate of USDC it is used. -/

/-- A rate that only one exchange has answered. -/
def thinRate (symbol : String) : QueriedExchangeRate :=
  QueriedExchangeRate.new ⟨symbol, .Cryptocurrency⟩ usdt_asset 1_699_833_600 [RATE_UNIT] 6 1 none

/-- ICP/EUR is answered, whichever of its rates is thin in the cache. -/
theorem icp_eur_served :
    letI := defaultBuild
    letI := asciiUnicode
    ∀ thin ∈ ["ICP", USDC], ∃ s' rate,
      (get_exchange_rate_internal (Environment.privileged 1_700_000_000) icpEurRequest
        (stateOf ForexRateStore.oneEurDay (cacheOf [thinRate thin]))).run
          (undisturbed 1_700_000_000 fun _ _ => .ok RATE_UNIT) 0 = some (s', .ok rate) := by
  let _ := defaultBuild
  let _ := asciiUnicode
  intro thin hthin
  have hok : ∀ thin ∈ ["ICP", USDC],
      ((get_exchange_rate_internal (Environment.privileged 1_700_000_000) icpEurRequest
        (stateOf ForexRateStore.oneEurDay (cacheOf [thinRate thin]))).run
          (undisturbed 1_700_000_000 fun _ _ => .ok RATE_UNIT) 0).map (fun r => r.2.isOk)
        = some true := by
    decide +kernel
  obtain ⟨⟨s', result⟩, hrun, hresult⟩ := Option.map_eq_some_iff.mp (hok thin hthin)
  cases result with
  | error error => cases hresult
  | ok rate => exact ⟨s', rate, hrun⟩

/-- The answers to ICP/EUR with a rate in the cache. -/
def icpEurAnswers [Features] [Unicode] (thin : String) : List ((call : Call) × Answer call) :=
  (get_exchange_rate_internal (Environment.privileged 1_700_000_000) icpEurRequest
    (stateOf ForexRateStore.oneEurDay (cacheOf [thinRate thin]))).answered
      (undisturbed 1_700_000_000 fun _ _ => .ok RATE_UNIT) 0

/-- A thin rate of ICP in the cache is not used, but fetched anew. -/
theorem thin_icp_fetched_anew :
    letI := defaultBuild
    letI := asciiUnicode
    ∃ q used, ComposedOf (Environment.privileged 1_700_000_000) (sanitize_request icpEurRequest)
        (stateOf ForexRateStore.oneEurDay (cacheOf [thinRate "ICP"]))
        (undisturbed 1_700_000_000 fun _ _ => .ok RATE_UNIT) 0 used q
      ∧ (∀ operand ∈ used, Sourced (cacheOf [thinRate "ICP"]) 1_699_833_600
          (icpEurAnswers "ICP") operand.1 operand.2)
      ∧ ∃ call ∈ (get_exchange_rate_internal (Environment.privileged 1_700_000_000) icpEurRequest
          (stateOf ForexRateStore.oneEurDay (cacheOf [thinRate "ICP"]))).calls
            (undisturbed 1_700_000_000 fun _ _ => .ok RATE_UNIT) 0,
          (Role.asset "ICP").asks "ICP" call := by
  let _ := defaultBuild
  let _ := asciiUnicode
  obtain ⟨s', rate, hrun⟩ := icp_eur_served "ICP" (by decide)
  obtain ⟨q, used, -, hcomposed, hrests⟩ := thin_rates_iff (by decide) icpEurRequest _ _ 0 hrun
  have htimestamp : (chosen_timestamp (Environment.privileged 1_700_000_000)
      (sanitize_request icpEurRequest)
      (stateOf ForexRateStore.oneEurDay (cacheOf [thinRate "ICP"]))).value = 1_699_833_600 := by
    decide +kernel
  -- no stablecoin is cached, so none of them can be thin
  have hmissed : ∀ symbol ∈ STABLECOIN_BASES,
      (stateOf ForexRateStore.oneEurDay (cacheOf [thinRate "ICP"])).cache.lookup symbol
        1_699_833_600 = none := by
    decide +kernel
  rw [htimestamp] at hrests
  obtain ⟨hsourced, hfetched⟩ := hrests.mpr (by
    rintro ⟨-, symbol, hsymbol, cached, hcached, -⟩
    rw [hmissed symbol hsymbol] at hcached
    cases hcached)
  refine ⟨q, used, hcomposed, hsourced, ?_⟩
  refine hfetched (.asset "ICP") (by decide +kernel) "ICP" (by decide) (thinRate "ICP")
    (by decide +kernel) ?_
  unfold Thick
  decide +kernel

/-- A thin rate of USDC is used. -/
theorem thin_usdc_used :
    letI := defaultBuild
    letI := asciiUnicode
    ¬ ∀ (env : Environment) (request : GetExchangeRateRequest) (s : State RecentRates)
        (w : World (State RecentRates) Call Answer) (n : ℕ) s' rate,
      is_caller_privileged env.caller = true →
      (get_exchange_rate_internal env request s).run w n = some (s', .ok rate) →
        ∃ q used, q.into = rate ∧ ComposedOf env (sanitize_request request) s w n used q
          ∧ ∀ operand ∈ used,
            Sourced s.cache (chosen_timestamp env (sanitize_request request) s).value
              ((get_exchange_rate_internal env request s).answered w n) operand.1 operand.2 := by
  let _ := defaultBuild
  let _ := asciiUnicode
  intro h
  obtain ⟨s', rate, hrun⟩ := icp_eur_served USDC (by decide)
  obtain ⟨q, used, -, hcomposed, hsourced⟩ := h _ _ _ _ 0 s' rate (by decide) hrun
  cases hcomposed with
  | crypto_pair hbase hquote hgathered hcomposed => cases hquote
  | fiat_pair hbase hquote hcomposed => cases hbase
  | @crypto_fiat_pair operands _ hpair hgathered hcomposed =>
      -- it comes first among the stablecoins, and no answer gives it
      have hrate : thinRate USDC ∈ operands.stablecoin_rates := by
        rw [((gather_result_iff hpair _ operands).mp hgathered).stablecoin_rates]
        refine List.mem_append_left _ (List.mem_filterMap.mpr ⟨USDC, by decide, ?_⟩)
        decide +kernel
      obtain ⟨symbol, hsymbol, hcached | hgiven⟩ := hsourced (.stablecoin, thinRate USDC)
        (List.mem_cons_of_mem _ (List.mem_map_of_mem hrate))
      · have hthick := hcached.2
        revert hthick
        unfold Thick
        decide +kernel
      · have hnone : (((icpEurAnswers USDC).flatMap Role.stablecoin.given).all
            fun given => decide (given.2 ≠ thinRate USDC)) = true := by
          decide +kernel
        exact of_decide_eq_true (List.all_eq_true.mp hnone _ hgiven) rfl

end Xrc
