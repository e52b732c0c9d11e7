/-
What the cache may change about an answer. Two runs of one request that are not turned away
settle to the same rates in two orders, and the choice of the stablecoin breaks ties by
position: with USDS cached and USDC not, it can fall on USDS.
-/
import Xrc.Settlement

set_option autoImplicit false

namespace Xrc

open Async QueriedExchangeRate CallExchangesImpl

/-! ## The anchor

The median of two medians is as far from one as from the other whenever their sum is even, and
then the first stablecoin in the list is chosen. So the choice is a function of the unordered
pair exactly when the sum is odd, or the two are not both known. -/

section Anchor

variable [Features] [Unicode] {L : Type} [LruCache L CacheKey QueriedExchangeRate]

/-- A request whose caller is let in and which is for a crypto/fiat pair. Only such a request
reads stablecoins, and so it is the only one for which their order may matter. -/
def ReachesCryptoFiat (env : Environment) (request : GetExchangeRateRequest) : Prop :=
  is_caller_anonymous env.caller = false ∧ env.has_enough_cycles = true
    ∧ is_crypto_fiat_pair request = true

instance (env : Environment) (request : GetExchangeRateRequest) :
    Decidable (ReachesCryptoFiat env request) := by
  unfold ReachesCryptoFiat
  infer_instance

/-- The stablecoin that stands in for the dollar in a run, if the run gets as far as
choosing one. -/
def usd_anchor (env : Environment) (request : GetExchangeRateRequest) (s : State L)
    (w : World (State L) Call Answer) (n : ℕ) :
    Option (Except stablecoin.StablecoinRateError QueriedExchangeRate) :=
  if ReachesCryptoFiat env request then
    match (gather_crypto_base_fiat_quote_pair env (routed_request (sanitize_request request)) s).run
      w n with
    | some (_, .ok operands) => some (stablecoin.median_stablecoin_rate operands.stablecoin_rates)
    | _ => none
  else none

namespace Quotes

variable {timestamp : ℕ} (quotes : Quotes timestamp)

omit [Features] in
/-- The stablecoin chosen in the order of `STABLECOIN_BASES`. -/
def anchor : Except stablecoin.StablecoinRateError QueriedExchangeRate :=
  stablecoin.median_stablecoin_rate (STABLECOIN_BASES.filterMap quotes.known)

/-- Both stablecoins are known, as close to the median of their medians as each other, and
not worthless. -/
def Tied : Prop :=
  ∃ usdc usds, quotes.known USDC = some usdc ∧ quotes.known USDS = some usds
    ∧ (median usdc.rates + median usds.rates) % 2 = 0
    ∧ ¬ (median usdc.rates = 0 ∧ median usds.rates = 0)

omit [Features] [Unicode] in
/-- The median of a known stablecoin is an accepted rate, or zero. -/
theorem median_le_of_fresh {rate : QueriedExchangeRate} {symbol : String}
    (h : FreshRate rate symbol timestamp) : median rate.rates ≤ MAX_RATE := by
  by_cases hne : rate.rates = []
  · rw [hne, median_nil]
    exact Nat.zero_le _
  · exact (median_of_inRange h.inRange hne).2

omit [Features] in
/-- The rates of the two stablecoins differ, are quoted alike and have medians of words. They
differ at least in their base assets, and a known rate has been built by `new` for its own symbol.
-/
theorem stablecoin_pair_of_known {usdc usds : QueriedExchangeRate}
    (husdc : quotes.known USDC = some usdc) (husds : quotes.known USDS = some usds) :
    usds.quote_asset = usdc.quote_asset ∧ median usdc.rates + median usds.rates < 2 ^ 64
      ∧ usdc ≠ usds := by
  have hcupper : to_uppercase USDC ≠ USDT := by
    rw [to_uppercase_of_upper (by decide)]
    decide
  have hsupper : to_uppercase USDS ≠ USDT := by
    rw [to_uppercase_of_upper (by decide)]
    decide
  have hfreshc := quotes.fresh_known hcupper husdc
  have hfreshs := quotes.fresh_known hsupper husds
  refine ⟨by rw [hfreshc.quote_eq, hfreshs.quote_eq], ?_, ?_⟩
  · have hc := median_le_of_fresh hfreshc
    have hs := median_le_of_fresh hfreshs
    have hmax := MAX_RATE_lt
    omega
  · -- each rate carries the symbol it was asked for
    intro heq
    have hsymbol := hfreshc.symbol_eq
    rw [heq, hfreshs.symbol_eq] at hsymbol
    exact absurd hsymbol (by decide)

omit [Features] in
/-- **The order decides exactly on a tie.** Of two rates the code takes the closer one to the
middle of both, and the first if both are as close. With the middle halfway between them that is
always so, unless the halving is rounded. -/
theorem anchor_reversed_iff :
    stablecoin.median_stablecoin_rate ([USDS, USDC].filterMap quotes.known) = quotes.anchor
      ↔ ¬ quotes.Tied := by
  have hbases : STABLECOIN_BASES = [USDC, USDS] := rfl
  unfold anchor Tied
  rw [hbases]
  cases husdc : quotes.known USDC with
  | none =>
      -- there is one order of a single stablecoin
      simp only [List.filterMap_cons, husdc, List.filterMap_nil, reduceCtorEq, false_and,
        exists_false, not_false_eq_true]
  | some usdc =>
      cases husds : quotes.known USDS with
      | none =>
          simp only [List.filterMap_cons, husdc, husds, List.filterMap_nil, reduceCtorEq, false_and,
            and_false, exists_false, not_false_eq_true]
      | some usds =>
          obtain ⟨hquote, hsum, hne⟩ := quotes.stablecoin_pair_of_known husdc husds
          have hlists : [USDS, USDC].filterMap quotes.known = [usds, usdc]
              ∧ [USDC, USDS].filterMap quotes.known = [usdc, usds] := by
            simp only [List.filterMap_cons, husdc, husds, List.filterMap_nil, and_self]
          rw [hlists.1, hlists.2, eq_comm, stablecoin.median_stablecoin_rate_swap_iff hquote hsum hne]
          constructor
          · rintro hodd ⟨usdc', usds', hc, hs, heven, hnonzero⟩
            cases hc
            cases hs
            rcases hodd with hodd | hzero
            · omega
            · exact hnonzero hzero
          · intro hnot
            by_contra hboth
            rw [not_or] at hboth
            exact hnot ⟨usdc, usds, rfl, rfl, by omega, hboth.2⟩

end Quotes

/-! ## Two runs

Each of the two runs returns what its rates settle to, and these rates are the same but for the
order of the stablecoins. A composed rate depends on the stablecoins through the chosen one
only, so the runs return the same unless the two orders choose differently. -/

omit [Features] [Unicode] in
/-- A crypto/fiat rate depends on the stablecoins through the chosen one only. -/
theorem crypto_fiat_rate_congr (crypto_base_rate forex_rate : QueriedExchangeRate)
    {rates rates' : List QueriedExchangeRate} (hperm : rates.Perm rates')
    (hchosen : stablecoin.median_stablecoin_rate rates = stablecoin.median_stablecoin_rate rates') :
    crypto_fiat_rate ⟨crypto_base_rate, rates, forex_rate⟩
      = crypto_fiat_rate ⟨crypto_base_rate, rates', forex_rate⟩ := by
  -- besides the chosen rate only the median of the timestamps enters, in any order
  have htimestamp : median (rates.map QueriedExchangeRate.timestamp)
      = median (rates'.map QueriedExchangeRate.timestamp) := median_congr (hperm.map _)
  unfold crypto_fiat_rate stablecoin.get_stablecoin_rate stablecoin.estimate
  simp only [hchosen, htimestamp]

section TwoRuns

variable {env : Environment} {request : GetExchangeRateRequest} {timestamp : ℕ}
  (quotes : Quotes timestamp)

/-- The symbols a request is about: its cryptocurrencies and the stablecoins. -/
def involved_symbols (request : GetExchangeRateRequest) : List String :=
  fetched_symbols (sanitize_request request) ++ STABLECOIN_BASES

/-- What a request that is let in settles to. -/
def settled_answer (env : Environment) (request : GetExchangeRateRequest) (s : State L)
    (order : List String) : RateResult :=
  if is_crypto_fiat_pair request then
    presented request ((settled_crypto_fiat quotes (routed_request request) env s order).bind
      crypto_fiat_rate)
  else (settled_pair quotes request env).bind crypto_crypto_rate

/-- A crypto/fiat request that gets as far as choosing a stablecoin: its caller is let in, it
passes the checks, and its currency and its cryptocurrency have a rate. Only such a request
depends on the order of the stablecoins, since every other one ends before it chooses among them
or does not need them. -/
structure Answerable (env : Environment) (request : GetExchangeRateRequest) (s : State L) :
    Prop where
  reaches : ReachesCryptoFiat env request
  checked : checked_request env (routed_request (sanitize_request request)) timestamp = .ok ()
  currency : (lookup_fiat env (routed_request (sanitize_request request)) timestamp s).isOk = true
  cryptocurrency :
    (quotes.known (routed_request (sanitize_request request)).base_asset.symbol).isSome = true

omit [Features] [Unicode] in
/-- A request turned away by the gathering of its rates is turned away. -/
theorem turnedAway_presented {α : Type} {request : GetExchangeRateRequest}
    {gathered : Except ExchangeRateError α} {f : α → RateResult} (h : TurnedAway gathered) :
    TurnedAway (presented request (gathered.bind f)) := by
  unfold presented
  rcases h with rfl | rfl <;> cases request.base_asset.class'
  · exact Or.inl rfl
  · exact Or.inl rfl
  · exact Or.inr rfl
  · exact Or.inr rfl

omit [Features] [Unicode] [LruCache L CacheKey QueriedExchangeRate] in
/-- An explicit timestamp is the one the request is answered for. -/
theorem get_normalized_timestamp_of_isSome (env : Environment)
    (request routed : GetExchangeRateRequest) (hsame : routed.timestamp = request.timestamp)
    (htimestamp : request.timestamp.isSome = true) (s : State L) :
    get_normalized_timestamp env routed s
      = .requested_or_current (utils.get_normalized_timestamp env request) := by
  have htime : utils.get_normalized_timestamp env routed
      = utils.get_normalized_timestamp env request := by
    rw [utils.get_normalized_timestamp, utils.get_normalized_timestamp, hsame]
  rw [get_normalized_timestamp, hsame, htimestamp, if_pos rfl, htime]

omit [Features] [Unicode] [LruCache L CacheKey QueriedExchangeRate] in
/-- A crypto/fiat pair fetches its cryptocurrency. -/
theorem fetched_symbols_crypto_fiat {request : GetExchangeRateRequest}
    (hpair : is_crypto_fiat_pair request = true) :
    fetched_symbols request = [(routed_request request).base_asset.symbol] := by
  unfold fetched_symbols
  rcases classes_of_crypto_fiat_pair hpair with ⟨hbase, hquote⟩ | ⟨hbase, hquote⟩
  · rw [hbase, hquote]
  · rw [hbase, hquote]

variable {quotes} {s s' : State L} {w : World (State L) Call Answer} {n : ℕ}

/-- A crypto/fiat run gathers what its rates settle to. It is stated on the gathered operands as
well, as the choice of the stablecoin is read off them. -/
theorem run_settles_crypto_fiat (hordinary : is_caller_privileged env.caller = false)
    (henough : env.has_enough_cycles = true)
    (hpair : is_crypto_fiat_pair (sanitize_request request) = true)
    (htimestamp : request.timestamp.isSome = true)
    (htime : utils.get_normalized_timestamp env request = timestamp)
    (hcached : quotes.Cached (involved_symbols request) s.cache) (hw : quotes.AnsweredIn w)
    {result : RateResult} (hresult : ¬ TurnedAway result)
    (hrun : (route_request env (sanitize_request request) s).run w n = some (s', result)) :
    ∃ gathered, settled_crypto_fiat quotes (routed_request (sanitize_request request)) env s
        (Quotes.stablecoin_order timestamp s.cache) = gathered
      ∧ (gather_crypto_base_fiat_quote_pair env (routed_request (sanitize_request request))
          s).run w n = some (s', gathered)
      ∧ presented (sanitize_request request) (gathered.bind crypto_fiat_rate) = result := by
  have hsame : (routed_request (sanitize_request request)).timestamp = request.timestamp := by
    unfold routed_request
    split <;> rfl
  have hnormalized := get_normalized_timestamp_of_isSome env _ _ hsame htimestamp s
  rw [htime] at hnormalized
  rw [route_request_crypto_fiat hpair, run_map, run_map, Option.map_map,
    Option.map_eq_some_iff] at hrun
  obtain ⟨⟨s'', gathered⟩, hgather, heq⟩ := hrun
  obtain ⟨rfl, hpresented⟩ := Prod.mk.inj heq
  -- neither composing nor presenting the rates turns a request away
  have hgathered : ¬ TurnedAway gathered := by
    intro haway
    exact hresult (hpresented ▸ turnedAway_presented haway)
  have hbase : (routed_request (sanitize_request request)).base_asset.symbol
      ∈ involved_symbols request := by
    rw [involved_symbols, fetched_symbols_crypto_fiat hpair]
    exact List.mem_append_left _ List.mem_cons_self
  have hbases : ∀ b ∈ STABLECOIN_BASES, b ∈ involved_symbols request :=
    fun b hb => List.mem_append_right _ hb
  have hsettled := settles_crypto_fiat_pair hordinary henough hnormalized hbase hbases hcached hw
    hgathered hgather
  exact ⟨gathered, hsettled.symm, hgather, hpresented⟩

/-- A crypto pair is composed of what its rates settle to. No stablecoin takes part in it, so the
cache cannot be noticed at all. -/
theorem run_settles_crypto_pair (hordinary : is_caller_privileged env.caller = false)
    (henough : env.has_enough_cycles = true)
    (hbase : (sanitize_request request).base_asset.class' = .Cryptocurrency)
    (hquote : (sanitize_request request).quote_asset.class' = .Cryptocurrency)
    (htimestamp : request.timestamp.isSome = true)
    (htime : utils.get_normalized_timestamp env request = timestamp)
    (hcached : quotes.Cached (involved_symbols request) s.cache) (hw : quotes.AnsweredIn w)
    {result : RateResult} (hresult : ¬ TurnedAway result)
    (hrun : (route_request env (sanitize_request request) s).run w n = some (s', result)) :
    result = (settled_pair quotes (sanitize_request request) env).bind crypto_crypto_rate := by
  obtain ⟨hhandler, -⟩ := route_request_crypto_crypto hbase hquote env s
  have hnormalized := get_normalized_timestamp_of_isSome env request (sanitize_request request)
    rfl htimestamp s
  rw [htime] at hnormalized
  rw [hhandler, handle_cryptocurrency_pair, run_map, Option.map_eq_some_iff] at hrun
  obtain ⟨⟨s'', gathered⟩, hgather, heq⟩ := hrun
  obtain ⟨rfl, hcomposed⟩ := Prod.mk.inj heq
  -- an error of the gathering is the error of the request
  have hgathered : ¬ TurnedAway gathered := by
    rintro (rfl | rfl)
    · exact hresult (Or.inl hcomposed.symm)
    · exact hresult (Or.inr hcomposed.symm)
  have hfetched : ∀ symbol ∈ [(sanitize_request request).base_asset.symbol,
      (sanitize_request request).quote_asset.symbol], symbol ∈ involved_symbols request := by
    intro symbol hsymbol
    unfold involved_symbols fetched_symbols
    rw [hbase, hquote]
    exact List.mem_append_left _ hsymbol
  have hsettled := settles_cryptocurrency_pair hordinary henough hnormalized
    (hfetched _ List.mem_cons_self) (hfetched _ (List.mem_cons_of_mem _ List.mem_cons_self))
    hcached hw hgathered hgather
  rw [← hsettled]
  exact hcomposed.symm

/-- **A run that is let in and not turned away** returns what its rates settle to. What they
settle to depends on the cache through one thing only, the order in which the stablecoins are
listed: those that are cached come first. Everything else is the quotes themselves. -/
theorem run_settles (hordinary : is_caller_privileged env.caller = false)
    (hpublic : is_caller_anonymous env.caller = false) (henough : env.has_enough_cycles = true)
    (hcrypto : ¬ (request.base_asset.class' = .FiatCurrency
      ∧ request.quote_asset.class' = .FiatCurrency))
    (htimestamp : request.timestamp.isSome = true)
    (htime : utils.get_normalized_timestamp env request = timestamp)
    (hcached : quotes.Cached (involved_symbols request) s.cache) (hw : quotes.AnsweredIn w)
    {result : RateResult} (hresult : ¬ TurnedAway result)
    (hrun : (answer_request env request s).run w n = some (s', result)) :
    result = settled_answer quotes env (sanitize_request request) s
        (Quotes.stablecoin_order timestamp s.cache)
      ∧ (is_crypto_fiat_pair request = true →
          ∃ s'', (gather_crypto_base_fiat_quote_pair env (routed_request (sanitize_request request))
            s).run w n = some (s'', settled_crypto_fiat quotes
              (routed_request (sanitize_request request)) env s
              (Quotes.stablecoin_order timestamp s.cache))) := by
  rw [answer_request_of_let_in hpublic (Or.inr henough)] at hrun
  unfold settled_answer
  by_cases hpair : is_crypto_fiat_pair (sanitize_request request) = true
  · obtain ⟨gathered, rfl, hgather, hpresented⟩ := run_settles_crypto_fiat hordinary henough hpair
      htimestamp htime hcached hw hresult hrun
    rw [if_pos hpair]
    exact ⟨hpresented.symm, fun _ => ⟨_, hgather⟩⟩
  · -- both assets are of one class, and it is not that of currencies
    have heq : request.base_asset.class' = request.quote_asset.class' :=
      class_eq_of_not_crypto_fiat_pair hpair
    have hbase : (sanitize_request request).base_asset.class' = .Cryptocurrency := by
      cases hbase : request.base_asset.class' with
      | Cryptocurrency => exact hbase
      | FiatCurrency => exact absurd ⟨hbase, heq ▸ hbase⟩ hcrypto
    rw [if_neg hpair]
    exact ⟨run_settles_crypto_pair hordinary henough hbase (heq.symm.trans hbase) htimestamp htime
      hcached hw hresult hrun, fun h => absurd h hpair⟩

omit [LruCache L CacheKey QueriedExchangeRate] in
/-- What a request settles to depends on the order of the stablecoins through the chosen one
only. -/
theorem settled_answer_congr {order order' : List String} (hperm : order.Perm order')
    (hchosen : stablecoin.median_stablecoin_rate (order.filterMap quotes.known)
      = stablecoin.median_stablecoin_rate (order'.filterMap quotes.known)) :
    settled_answer quotes env request s order = settled_answer quotes env request s order' := by
  have hcomposed : (settled_crypto_fiat quotes (routed_request request) env s order).bind
        crypto_fiat_rate
      = (settled_crypto_fiat quotes (routed_request request) env s order').bind
        crypto_fiat_rate := by
    unfold settled_crypto_fiat
    -- before the stablecoins are chosen from, both orders end alike
    cases checked_request env (routed_request request) timestamp with
    | error error => rfl
    | ok u =>
        dsimp only [Except.mapError, Except.bind]
        cases lookup_fiat env (routed_request request) timestamp s with
        | error error => rfl
        | ok forex_rate =>
            dsimp only
            unfold known_crypto_fiat
            cases quotes.known (routed_request request).base_asset.symbol with
            | none => rfl
            | some crypto_base_rate =>
                -- the choice is the same, and the number of stablecoins does not depend on their
                -- order
                exact crypto_fiat_rate_congr crypto_base_rate forex_rate
                  (hperm.filterMap quotes.known) hchosen
  unfold settled_answer
  rw [hcomposed]

/-- The chosen stablecoin of a settled run. The order of the stablecoins is that of the run, and
the choice depends on it only in a tie. -/
theorem usd_anchor_of_settled {order : List String} (hreaches : ReachesCryptoFiat env request)
    {s'' : State L}
    (hgather : (gather_crypto_base_fiat_quote_pair env (routed_request (sanitize_request request))
      s).run w n = some (s'', settled_crypto_fiat quotes
        (routed_request (sanitize_request request)) env s order)) :
    (∀ chosen, usd_anchor env request s w n = some chosen →
        chosen = stablecoin.median_stablecoin_rate (order.filterMap quotes.known))
      ∧ (Answerable quotes env request s → usd_anchor env request s w n
          = some (stablecoin.median_stablecoin_rate (order.filterMap quotes.known))) := by
  unfold usd_anchor
  rw [if_pos hreaches, hgather]
  constructor
  · -- a run with an anchor has gathered its operands, the stablecoins among them
    intro chosen hchosen
    cases hsettled : settled_crypto_fiat quotes (routed_request (sanitize_request request)) env s
        order with
    | error error =>
        rw [hsettled] at hchosen
        cases hchosen
    | ok operands =>
        rw [hsettled] at hchosen
        obtain ⟨-, -, -, hstablecoins⟩ := settled_crypto_fiat_ok_iff.mp hsettled
        rw [← hstablecoins]
        exact (Option.some.inj hchosen).symm
  · -- an answerable request gets there
    rintro ⟨-, hchecked, hcurrency, hcryptocurrency⟩
    obtain ⟨crypto_base_rate, hknown⟩ := Option.isSome_iff_exists.mp hcryptocurrency
    cases hlookup : lookup_fiat env (routed_request (sanitize_request request)) timestamp s with
    | error error =>
        rw [hlookup] at hcurrency
        cases hcurrency
    | ok forex_rate =>
        have hsettled : settled_crypto_fiat quotes (routed_request (sanitize_request request)) env s
            order = .ok ⟨crypto_base_rate, order.filterMap quotes.known, forex_rate⟩ :=
          settled_crypto_fiat_ok_iff.mpr ⟨hchecked, hlookup, hknown, rfl⟩
        rw [hsettled]

omit [LruCache L CacheKey QueriedExchangeRate] in
/-- A request that does not get as far as choosing a stablecoin fails, in any order. The checks,
the forex rate and the cryptocurrency come first, and none of them depends on the cache. -/
theorem settled_of_not_answerable (hreaches : ReachesCryptoFiat env request)
    (hnot : ¬ Answerable quotes env request s) :
    ∃ error, ∀ order, settled_crypto_fiat quotes (routed_request (sanitize_request request)) env s
      order = .error error := by
  unfold settled_crypto_fiat known_crypto_fiat
  cases hchecked : checked_request env (routed_request (sanitize_request request)) timestamp with
  | error error => exact ⟨error.into, fun _ => rfl⟩
  | ok u =>
      cases hlookup : lookup_fiat env (routed_request (sanitize_request request)) timestamp s with
      | error error => exact ⟨error, fun _ => rfl⟩
      | ok forex_rate =>
          cases hknown : quotes.known
              (routed_request (sanitize_request request)).base_asset.symbol with
          | none => exact ⟨.CryptoBaseAssetNotFound, fun _ => rfl⟩
          | some crypto_base_rate =>
              refine absurd ⟨hreaches, hchecked, ?_, ?_⟩ hnot
              · exact congrArg Except.isOk hlookup
              · exact congrArg Option.isSome hknown

omit [Features] in
/-- The stablecoin of a run is the one USDC stands first for, but on a tie with only USDS in
the cache. -/
theorem chosen_eq_anchor_iff (quotes : Quotes timestamp) (cache : ExchangeRateCache L) :
    stablecoin.median_stablecoin_rate
        ((Quotes.stablecoin_order timestamp cache).filterMap quotes.known) = quotes.anchor
      ↔ ¬ (quotes.Tied ∧ Quotes.UsdsFirst timestamp cache) := by
  classical
  rw [Quotes.stablecoin_order_eq]
  by_cases hfirst : Quotes.UsdsFirst timestamp cache
  · rw [if_pos hfirst, quotes.anchor_reversed_iff]
    exact ⟨fun hnot htied => hnot htied.1, fun hnot htied => hnot ⟨htied, hfirst⟩⟩
  · rw [if_neg hfirst]
    exact ⟨fun _ htied => hfirst htied.2, fun _ => rfl⟩

omit [Features] in
/-- Every order is one of the two stablecoins. -/
theorem stablecoin_order_perm (cache : ExchangeRateCache L) :
    (Quotes.stablecoin_order timestamp cache).Perm STABLECOIN_BASES := by
  classical
  rw [Quotes.stablecoin_order_eq]
  split
  · exact List.Perm.swap _ _ _
  · exact List.Perm.refl _

omit [LruCache L CacheKey QueriedExchangeRate] in
/-- Nothing of this depends on the cache. -/
theorem answerable_cache_iff (cache : ExchangeRateCache L) :
    Answerable quotes env request { s with cache := cache } ↔ Answerable quotes env request s :=
  ⟨fun ⟨hreaches, hchecked, hcurrency, hcrypto⟩ => ⟨hreaches, hchecked, hcurrency, hcrypto⟩,
    fun ⟨hreaches, hchecked, hcurrency, hcrypto⟩ => ⟨hreaches, hchecked, hcurrency, hcrypto⟩⟩

/-- The rate, up to its conversion, of a request that is not turned away. -/
theorem exists_result_of_run {rate : Except ExchangeRateError ExchangeRate}
    (haway : ¬ TurnedAway rate)
    (hrun : (get_exchange_rate_internal env request s).run w n = some (s', rate)) :
    ∃ result : RateResult, (answer_request env request s).run w n = some (s', result)
      ∧ rate = result.map QueriedExchangeRate.into ∧ ¬ TurnedAway result := by
  rw [get_exchange_rate_internal, run_map, Option.map_eq_some_iff] at hrun
  obtain ⟨⟨s'', result⟩, hanswer, heq⟩ := hrun
  obtain ⟨rfl, rfl⟩ := Prod.mk.inj heq
  refine ⟨result, hanswer, rfl, ?_⟩
  rintro (rfl | rfl)
  · exact haway (Or.inl rfl)
  · exact haway (Or.inr rfl)

/-- A caller who is not let in is told so, whatever the state. -/
theorem answer_request_not_let_in
    (h : ¬ (is_caller_anonymous env.caller = false ∧ env.has_enough_cycles = true))
    (hordinary : is_caller_privileged env.caller = false) :
    ∃ error, ∀ s : State L, answer_request env request s = .done s (.error error) := by
  unfold answer_request
  cases hanonymous : is_caller_anonymous env.caller with
  | true => exact ⟨_, fun s => rfl⟩
  | false =>
      cases henough : env.has_enough_cycles with
      | true => exact absurd ⟨hanonymous, henough⟩ h
      | false =>
          rw [hordinary]
          exact ⟨_, fun s => rfl⟩

variable (quotes) in
/-- The stablecoin of a run, if it chooses one, is the one that the order of
`STABLECOIN_BASES` gives. -/
def AnchoredFirst (env : Environment) (request : GetExchangeRateRequest) (s : State L)
    (w : World (State L) Call Answer) (n : ℕ) : Prop :=
  ∀ chosen, usd_anchor env request s w n = some chosen → chosen = quotes.anchor

/-- **One run**: the choice is the intended one, unless the request gets as far as choosing,
the stablecoins tie and only USDS is in the cache. -/
theorem anchoredFirst_iff (hordinary : is_caller_privileged env.caller = false)
    (hcrypto : ¬ (request.base_asset.class' = .FiatCurrency
      ∧ request.quote_asset.class' = .FiatCurrency))
    (htimestamp : request.timestamp.isSome = true)
    (htime : utils.get_normalized_timestamp env request = timestamp)
    (hcached : quotes.Cached (involved_symbols request) s.cache) (hw : quotes.AnsweredIn w)
    {result : RateResult} (hresult : ¬ TurnedAway result)
    (hrun : (answer_request env request s).run w n = some (s', result)) :
    AnchoredFirst quotes env request s w n
      ↔ ¬ (Answerable quotes env request s ∧ quotes.Tied
          ∧ Quotes.UsdsFirst timestamp s.cache) := by
  by_cases hreaches : ReachesCryptoFiat env request
  · obtain ⟨-, hgather⟩ := run_settles hordinary hreaches.1 hreaches.2.1 hcrypto htimestamp htime
      hcached hw hresult hrun
    obtain ⟨s'', hgather⟩ := hgather hreaches.2.2
    obtain ⟨hsome, hchosen⟩ := usd_anchor_of_settled hreaches hgather
    -- the run chooses in the order of its cache, which decides exactly on a tie
    constructor
    · rintro hanchored ⟨hanswerable, htied⟩
      exact (chosen_eq_anchor_iff quotes s.cache).mp (hanchored _ (hchosen hanswerable)) htied
    · intro hnot chosen h
      by_cases hanswerable : Answerable quotes env request s
      · exact (hsome chosen h).trans ((chosen_eq_anchor_iff quotes s.cache).mpr fun htied =>
          hnot ⟨hanswerable, htied⟩)
      · -- the run fails before the choice
        obtain ⟨error, hfails⟩ := settled_of_not_answerable hreaches hanswerable
        rw [usd_anchor, if_pos hreaches, hgather, hfails] at h
        cases h
  · constructor
    · rintro - ⟨hanswerable, -⟩
      exact hreaches hanswerable.reaches
    · intro _ chosen h
      rw [usd_anchor, if_neg hreaches] at h
      cases h

/-- What a request settles to is the same in two orders that put the same stablecoin
first. -/
theorem settled_answer_eq {cache₁ cache₂ : ExchangeRateCache L}
    (hlet : is_caller_anonymous env.caller = false ∧ env.has_enough_cycles = true)
    (hnot : ¬ (Answerable quotes env request s ∧ quotes.Tied
      ∧ (Quotes.UsdsFirst timestamp cache₁ ∨ Quotes.UsdsFirst timestamp cache₂))) :
    settled_answer quotes env (sanitize_request request) s
        (Quotes.stablecoin_order timestamp cache₁)
      = settled_answer quotes env (sanitize_request request) s
          (Quotes.stablecoin_order timestamp cache₂) := by
  by_cases hpair : is_crypto_fiat_pair (sanitize_request request) = true
  · by_cases hanswerable : Answerable quotes env request s
    · -- both orders choose the anchor, and the rest of the answer does not see the order
      have heq₁ := (chosen_eq_anchor_iff quotes cache₁).mpr fun h =>
        hnot ⟨hanswerable, h.1, Or.inl h.2⟩
      have heq₂ := (chosen_eq_anchor_iff quotes cache₂).mpr fun h =>
        hnot ⟨hanswerable, h.1, Or.inr h.2⟩
      exact settled_answer_congr
        ((stablecoin_order_perm cache₁).trans (stablecoin_order_perm cache₂).symm)
        (heq₁.trans heq₂.symm)
    · have hreaches : ReachesCryptoFiat env request := ⟨hlet.1, hlet.2, hpair⟩
      obtain ⟨error, hfails⟩ := settled_of_not_answerable hreaches hanswerable
      rw [settled_answer, settled_answer, if_pos hpair, if_pos hpair, hfails, hfails]
  · rw [settled_answer, settled_answer, if_neg hpair, if_neg hpair]

end TwoRuns

/-- **When the cache is transparent.** Take two runs of an ordinary caller's request with an
explicit timestamp, involving a cryptocurrency, that start in states differing in the cache only,
both caches holding some of the rates the exchanges return for that timestamp, and neither turned
away. They return the same, and each of them chooses the stablecoin that the order of
`STABLECOIN_BASES` gives, unless the request gets as far as choosing one, the two tie, and one of
the caches holds USDS without USDC.

Each run is followed on its own: with the quotes fixed, whatever it reads or fetches for a symbol
is the quote of this symbol, so that only the order of the two stablecoins is left to the cache.
The two runs then differ exactly where `median_in_set` breaks a tie by that order. -/
theorem cache_transparent_iff (env : Environment) (request : GetExchangeRateRequest)
    {timestamp : ℕ} (htime : utils.get_normalized_timestamp env request = timestamp)
    (htimestamp : request.timestamp.isSome = true)
    (hordinary : is_caller_privileged env.caller = false)
    (hcrypto : ¬ (request.base_asset.class' = .FiatCurrency
      ∧ request.quote_asset.class' = .FiatCurrency))
    (quotes : Quotes timestamp) (s : State L) {cache₁ cache₂ : ExchangeRateCache L}
    {w₁ w₂ : World (State L) Call Answer} {n₁ n₂ : ℕ}
    (hcached₁ : quotes.Cached (involved_symbols request) cache₁)
    (hcached₂ : quotes.Cached (involved_symbols request) cache₂)
    (hw₁ : quotes.AnsweredIn w₁) (hw₂ : quotes.AnsweredIn w₂)
    {s₁ s₂ : State L} {rate₁ rate₂ : Except ExchangeRateError ExchangeRate}
    (hrun₁ : (get_exchange_rate_internal env request { s with cache := cache₁ }).run w₁ n₁
      = some (s₁, rate₁))
    (hrun₂ : (get_exchange_rate_internal env request { s with cache := cache₂ }).run w₂ n₂
      = some (s₂, rate₂))
    (haway₁ : ¬ TurnedAway rate₁) (haway₂ : ¬ TurnedAway rate₂) :
    (rate₁ = rate₂ ∧ AnchoredFirst quotes env request { s with cache := cache₁ } w₁ n₁
        ∧ AnchoredFirst quotes env request { s with cache := cache₂ } w₂ n₂)
      ↔ ¬ (Answerable quotes env request s ∧ quotes.Tied
          ∧ (Quotes.UsdsFirst timestamp cache₁ ∨ Quotes.UsdsFirst timestamp cache₂)) := by
  obtain ⟨result₁, hanswer₁, rfl, hresult₁⟩ := exists_result_of_run haway₁ hrun₁
  obtain ⟨result₂, hanswer₂, rfl, hresult₂⟩ := exists_result_of_run haway₂ hrun₂
  have hcached₁' : quotes.Cached (involved_symbols request) ({ s with cache := cache₁ }).cache :=
    hcached₁
  have hcached₂' : quotes.Cached (involved_symbols request) ({ s with cache := cache₂ }).cache :=
    hcached₂
  -- each run's choice is decided by its own cache, and equal choices give equal answers
  rw [anchoredFirst_iff hordinary hcrypto htimestamp htime hcached₁' hw₁ hresult₁ hanswer₁,
    anchoredFirst_iff hordinary hcrypto htimestamp htime hcached₂' hw₂ hresult₂ hanswer₂,
    answerable_cache_iff cache₁, answerable_cache_iff cache₂]
  constructor
  · rintro ⟨-, h₁, h₂⟩ ⟨hanswerable, htied, hfirst₁ | hfirst₂⟩
    · exact h₁ ⟨hanswerable, htied, hfirst₁⟩
    · exact h₂ ⟨hanswerable, htied, hfirst₂⟩
  · intro hnot
    refine ⟨?_, fun h => hnot ⟨h.1, h.2.1, Or.inl h.2.2⟩, fun h => hnot ⟨h.1, h.2.1, Or.inr h.2.2⟩⟩
    by_cases hlet : is_caller_anonymous env.caller = false ∧ env.has_enough_cycles = true
    · obtain ⟨hsettled₁, -⟩ := run_settles hordinary hlet.1 hlet.2 hcrypto htimestamp htime
        hcached₁' hw₁ hresult₁ hanswer₁
      obtain ⟨hsettled₂, -⟩ := run_settles hordinary hlet.1 hlet.2 hcrypto htimestamp htime
        hcached₂' hw₂ hresult₂ hanswer₂
      have hsame := settled_answer_eq hlet hnot
      rw [hsettled₁, hsettled₂]
      exact congrArg _ hsame
    · -- nobody is let in: both are told the same
      obtain ⟨error, hdone⟩ : ∃ error, ∀ s : State L,
          answer_request env request s = .done s (.error error) :=
        answer_request_not_let_in hlet hordinary
      rw [hdone, run_done] at hanswer₁ hanswer₂
      rw [← (Prod.mk.inj (Option.some.inj hanswer₁)).2,
        ← (Prod.mk.inj (Option.some.inj hanswer₂)).2]

end Anchor

/-! ## A depegged stablecoin

Two caches over the same rates, one of them empty and the other with USDS in it, and two answers
that are a quarter apart. -/

/-- USDS has lost its peg, and everything else trades at par. -/
def depegRate (symbol : String) : QueriedExchangeRate :=
  QueriedExchangeRate.new ⟨symbol, .Cryptocurrency⟩ usdt_asset 1_699_833_600
    [if symbol = USDS then 800_000_000 else RATE_UNIT] 1 1 none

/-- These rates, for every symbol. -/
def depegQuotes : Quotes 1_699_833_600 where
  query symbol := .ok ⟨depegRate symbol, []⟩
  fresh symbol response h := by
    rw [← Except.ok.inj h]
    exact freshRate_new ⟨symbol, .Cryptocurrency⟩ _ _ _ _

/-- The exchanges answer with these rates, and nothing else happens. -/
def depegWorld : World (State RecentRates) Call Answer :=
  ⟨fun _ call s => (depegQuotes.answer call, s)⟩

/-- The state with some of these rates in the cache. -/
def depegState [Unicode] (symbols : List String) : State RecentRates :=
  stateOf ForexRateStore.oneEurDay (cacheOf (symbols.map depegRate))

/-- A request that is answered is not turned away. -/
theorem not_turnedAway_of_isOk {rate : Except ExchangeRateError ExchangeRate}
    (h : rate.isOk = true) : ¬ TurnedAway rate := by
  rintro (rfl | rfl) <;> cases h

/-- With nothing in the cache or only USDC, the request is answered alike. -/
theorem cold_and_usdc_alike :
    letI := defaultBuild
    letI := asciiUnicode
    ∃ s₁ s₂ rate,
      (get_exchange_rate_internal (Environment.ordinary 1_700_000_000) icpEurRequest
          (depegState [])).run depegWorld 0 = some (s₁, rate)
      ∧ (get_exchange_rate_internal (Environment.ordinary 1_700_000_000) icpEurRequest
          (depegState [USDC])).run depegWorld 0 = some (s₂, rate)
      ∧ AnchoredFirst depegQuotes (Environment.ordinary 1_700_000_000) icpEurRequest
          (depegState [USDC]) depegWorld 0 := by
  let _ := defaultBuild
  let _ := asciiUnicode
  -- both runs are answered, which is evaluated
  have hcold : ((get_exchange_rate_internal (Environment.ordinary 1_700_000_000) icpEurRequest
      (depegState [])).run depegWorld 0).map (fun r => r.2.isOk) = some true := by
    decide +kernel
  have husdc : ((get_exchange_rate_internal (Environment.ordinary 1_700_000_000) icpEurRequest
      (depegState [USDC])).run depegWorld 0).map (fun r => r.2.isOk) = some true := by
    decide +kernel
  obtain ⟨⟨s₁, rate₁⟩, hrun₁, hok₁⟩ := Option.map_eq_some_iff.mp hcold
  obtain ⟨⟨s₂, rate₂⟩, hrun₂, hok₂⟩ := Option.map_eq_some_iff.mp husdc
  obtain ⟨rfl, -, hanchored⟩ := (cache_transparent_iff (Environment.ordinary 1_700_000_000)
    icpEurRequest rfl rfl (by decide) (by decide) depegQuotes (depegState [])
    (by unfold Quotes.Cached; decide +kernel) (by unfold Quotes.Cached; decide +kernel)
    (fun _ _ _ => rfl) (fun _ _ _ => rfl) hrun₁ hrun₂ (not_turnedAway_of_isOk hok₁)
    (not_turnedAway_of_isOk hok₂)).mpr (by
      rintro ⟨-, -, h | h⟩
      · exact h.2 (by decide +kernel)
      · exact absurd h.1 (by decide +kernel))
  exact ⟨s₁, s₂, rate₁, hrun₁, hrun₂, hanchored⟩

/-- With only USDS in the cache, the same request is answered a quarter higher. -/
theorem usds_in_the_cache_changes_the_answer :
    letI := defaultBuild
    letI := asciiUnicode
    ¬ ∀ (env : Environment) (request : GetExchangeRateRequest) (timestamp : ℕ)
        (quotes : Quotes timestamp) (s : State RecentRates)
        (cache₁ cache₂ : ExchangeRateCache RecentRates) (w : World (State RecentRates) Call Answer)
        (n : ℕ) s₁ s₂ rate₁ rate₂,
      utils.get_normalized_timestamp env request = timestamp →
      request.timestamp.isSome = true → is_caller_privileged env.caller = false →
      quotes.Cached (involved_symbols request) cache₁ →
      quotes.Cached (involved_symbols request) cache₂ → quotes.AnsweredIn w →
      (get_exchange_rate_internal env request { s with cache := cache₁ }).run w n
        = some (s₁, rate₁) →
      (get_exchange_rate_internal env request { s with cache := cache₂ }).run w n
        = some (s₂, rate₂) →
      ¬ TurnedAway rate₁ → ¬ TurnedAway rate₂ → rate₁ = rate₂ := by
  let _ := defaultBuild
  let _ := asciiUnicode
  intro h
  -- USDC is the anchor when nothing is cached, and USDS when it is
  have hcold : ((get_exchange_rate_internal (Environment.ordinary 1_700_000_000) icpEurRequest
      (depegState [])).run depegWorld 0).map (fun r => r.2.toOption.map ExchangeRate.rate)
        = some (some 909_090_909) := by
    decide +kernel
  have husds : ((get_exchange_rate_internal (Environment.ordinary 1_700_000_000) icpEurRequest
      (depegState [USDS])).run depegWorld 0).map (fun r => r.2.toOption.map ExchangeRate.rate)
        = some (some 1_136_363_636) := by
    decide +kernel
  obtain ⟨⟨s₁, rate₁⟩, hrun₁, hrate₁⟩ := Option.map_eq_some_iff.mp hcold
  obtain ⟨⟨s₂, rate₂⟩, hrun₂, hrate₂⟩ := Option.map_eq_some_iff.mp husds
  have hok : ∀ {rate : Except ExchangeRateError ExchangeRate} {r : ℕ},
      rate.toOption.map ExchangeRate.rate = some r → ¬ TurnedAway rate := by
    rintro rate r hr (rfl | rfl) <;> cases hr
  have hsame := h (Environment.ordinary 1_700_000_000) icpEurRequest _ depegQuotes (depegState [])
    _ _ depegWorld 0 s₁ s₂ rate₁ rate₂ rfl rfl (by decide) (by unfold Quotes.Cached; decide +kernel)
    (by unfold Quotes.Cached; decide +kernel) (fun _ _ _ => rfl) hrun₁ hrun₂ (hok hrate₁)
    (hok hrate₂)
  rw [hsame, hrate₂] at hrate₁
  exact absurd hrate₁ (by decide)

end Xrc
