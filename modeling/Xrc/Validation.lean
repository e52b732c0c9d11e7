/-
The validation boundary, and the one way around it. Every route ends with `validate`,
and the route of a fiat/crypto pair then inverts what was validated. The inversion takes
reciprocals of the rates at some number of decimals and casts them to 64 bits; the answer
keeps to the boundary exactly when these reciprocals still agree, and it is the reciprocal
of what it came from exactly when none of them is cast.

The first part is arithmetic on the rate before the inversion; the second says which rate
that is.
-/
import Xrc.Supply

set_option autoImplicit false

namespace Xrc

open Async OrderStatistics QueriedExchangeRate

/-! ## Reciprocals

The exponent of `Prices.inverse` is chosen for the upper median alone. A rate above it may have
a reciprocal of zero, and with more than `DECIMALS` decimals a small one may have a reciprocal
that does not fit in 64 bits, so the agreement of the rates says nothing about that of their
reciprocals. -/

namespace Prices

/-- The reciprocals, cast to 64 bits. -/
def reciprocals (p : Prices) : List ℕ :=
  p.rates.map fun r => 10 ^ p.reciprocal_exponent / r % 2 ^ 64

/-- The reciprocals are acceptable themselves. With `DECIMALS` decimals or less their
median is always in range, and only their agreement is at stake. -/
structure ReciprocalsAgree (p : Prices) : Prop where
  majority : MajorityWithinTenth p.reciprocals
  median : DECIMALS < p.decimals →
    0 < Xrc.median p.reciprocals ∧ Xrc.median p.reciprocals ≤ MAX_RATE

end Prices

namespace QueriedExchangeRate

/-- Agreement does not depend on the order of the rates. -/
theorem majorityWithinTenth_perm {l₁ l₂ : List ℕ} (h : l₁.Perm l₂) :
    MajorityWithinTenth l₁ ↔ MajorityWithinTenth l₂ := by
  have himp : ∀ {l₁ l₂ : List ℕ}, l₁.Perm l₂ → MajorityWithinTenth l₁ → MajorityWithinTenth l₂ := by
    rintro l₁ l₂ h ⟨group, hsub, hlen, hgroup⟩
    exact ⟨group, hsub.trans h.subperm, h.length_eq ▸ hlen, hgroup⟩
  exact ⟨himp h, himp h.symm⟩

theorem reciprocal_exponent_prices (self : QueriedExchangeRate) :
    self.prices.reciprocal_exponent
      = max (2 * self.decimals_or_default) (Nat.clog 10 (upper_median self.rates)) := rfl

theorem reciprocals_prices (self : QueriedExchangeRate) :
    self.prices.reciprocals
      = self.rates.map fun r => 10 ^ self.prices.reciprocal_exponent / r % 2 ^ 64 := rfl

section Inverse

variable {self : QueriedExchangeRate} (h : InRange self.rates)

include h

/-- **What `inverted` answers**, in closed form. It follows from the specification of the loop,
which stops at the least sufficient power of ten: that is a logarithm. -/
theorem inverted_eq (hd : self.decimals_or_default ≤ 2 * DECIMALS) :
    self.inverted.rates = sort self.prices.reciprocals
    ∧ ∃ d', self.inverted.decimals = some d' ∧ self.decimals_or_default ≤ d'
      ∧ d' ≤ 2 * DECIMALS ∧ self.decimals_or_default + d' = self.prices.reciprocal_exponent := by
  obtain ⟨d', hdd', hd', hmedian, hstrict, hinv⟩ := inverted_rates_spec h hd
  have hexp : self.decimals_or_default + d' = self.prices.reciprocal_exponent := by
    have hclog : Nat.clog 10 (upper_median self.rates) ≤ self.decimals_or_default + d' :=
      Nat.clog_le_of_le_pow hmedian
    rw [reciprocal_exponent_prices]
    -- the loop stops at once, or at the first power of ten that reaches the upper median
    rcases Nat.eq_or_lt_of_le hdd' with heq | hlt
    · omega
    · have := (Nat.lt_clog_iff_pow_lt (by decide)).mpr (hstrict hlt)
      omega
  refine ⟨?_, d', ?_, hdd', hd', hexp⟩
  · show (inverted_rates self.rates self.decimals_or_default).1 = _
    rw [hinv, reciprocals_prices, hexp]
  · show some (inverted_rates self.rates self.decimals_or_default).2 = _
    rw [hinv]

/-- With few decimals no reciprocal exceeds `MAX_RATE`, so the cast does nothing. -/
theorem reciprocal_exponent_le (hsmall : self.decimals_or_default ≤ DECIMALS) :
    self.prices.reciprocal_exponent ≤ 2 * DECIMALS := by
  have hclog : Nat.clog 10 (upper_median self.rates) ≤ 2 * DECIMALS :=
    Nat.clog_le_of_le_pow (MAX_RATE_eq ▸ upper_median_le h)
  rw [reciprocal_exponent_prices]
  omega

/-- With few decimals the median of the reciprocals is in range: the upper half of them
comes from rates that are at most the upper median, which is invertible. -/
theorem median_reciprocals (hsmall : self.decimals_or_default ≤ DECIMALS)
    (hne : self.rates ≠ []) :
    0 < Xrc.median self.prices.reciprocals ∧ Xrc.median self.prices.reciprocals ≤ MAX_RATE := by
  have hexp := reciprocal_exponent_le h hsmall
  have hpow : 10 ^ self.prices.reciprocal_exponent ≤ MAX_RATE := by
    rw [MAX_RATE_eq]
    exact Nat.pow_le_pow_right (by decide) hexp
  have hmid : (sort self.rates).length / 2 < (sort self.rates).length := by
    rw [length_sort]
    exact Nat.div_lt_self (List.length_pos_iff.mpr hne) (by decide)
  have hupper : upper_median self.rates = (sort self.rates)[(sort self.rates).length / 2] :=
    List.getD_eq_getElem _ _ hmid
  have hinvertible : upper_median self.rates ≤ 10 ^ self.prices.reciprocal_exponent := by
    apply (Nat.le_pow_clog (b := 10) (by decide) _).trans
    exact Nat.pow_le_pow_right (by decide) (Nat.le_max_right _ _)
  -- more than half of the rates are at most the upper median
  have hlow : self.rates.length < 2 * self.rates.countP fun r =>
      decide (r ≤ upper_median self.rates) := by
    have hall : ∀ r ∈ (sort self.rates).take ((sort self.rates).length / 2 + 1),
        decide (r ≤ upper_median self.rates) = true := by
      intro r hr
      obtain ⟨j, hj, rfl⟩ := List.getElem_of_mem hr
      rw [List.length_take] at hj
      rw [List.getElem_take, decide_eq_true_eq, hupper]
      exact getElem_mono (sort_pairwise _) (by omega) hmid
    have hcard := List.countP_eq_length.mpr hall
    have hpos := List.length_pos_iff.mpr hne
    have hle := (List.take_sublist ((sort self.rates).length / 2 + 1) (sort self.rates)).countP_le
      (p := fun r => decide (r ≤ upper_median self.rates))
    rw [(sort_perm self.rates).countP_eq] at hle
    rw [hcard, List.length_take, length_sort] at hle
    omega
  have hword : MAX_RATE < 2 ^ 64 := by decide
  -- the reciprocal of such a rate is at least one, and the cast keeps it
  have hmajority : self.prices.reciprocals.length < 2 * countIn 1 MAX_RATE self.prices.reciprocals := by
    rw [reciprocals_prices, List.length_map, countIn, List.countP_map]
    refine lt_of_lt_of_le hlow (Nat.mul_le_mul_left 2 (List.countP_mono_left fun r hr hle => ?_))
    have hpos := (h r hr).1
    have hge : 1 ≤ 10 ^ self.prices.reciprocal_exponent / r :=
      (Nat.one_le_div_iff hpos).mpr ((of_decide_eq_true hle).trans hinvertible)
    have hdiv : 10 ^ self.prices.reciprocal_exponent / r ≤ MAX_RATE := (Nat.div_le_self _ _).trans hpow
    simp only [Function.comp_def, decide_eq_true_eq, Nat.mod_eq_of_lt (lt_of_le_of_lt hdiv hword)]
    exact ⟨hge, hdiv⟩
  exact median_mem_interval (by decide) MAX_RATE_lt hmajority

/-- **When an inverse passes the validation.** The inverse is a sorted list of words, so
`validate` decides whether it is acceptable. For rates in range with few decimals the bounds on
the median are met anyway. -/
theorem validate_inverted_iff (hd : self.decimals_or_default ≤ 2 * DECIMALS)
    (hne : self.rates ≠ []) :
    self.inverted.validate = .ok self.inverted ↔ self.prices.ReciprocalsAgree := by
  obtain ⟨hrates, -⟩ := inverted_eq h hd
  have hsorted : self.inverted.rates.Pairwise (· ≤ ·) := by
    rw [hrates]
    exact sort_pairwise _
  have hword : ∀ r ∈ self.inverted.rates, r < 2 ^ 64 := by
    intro r hr
    rw [hrates, mem_sort, reciprocals_prices, List.mem_map] at hr
    obtain ⟨r', -, rfl⟩ := hr
    exact Nat.mod_lt _ (by decide)
  have hmedian : Xrc.median self.inverted.rates = Xrc.median self.prices.reciprocals := by
    rw [hrates]
    exact median_congr (sort_perm _)
  have hmajority : MajorityWithinTenth self.inverted.rates
      ↔ MajorityWithinTenth self.prices.reciprocals := by
    rw [hrates]
    exact majorityWithinTenth_perm (sort_perm _)
  rw [validate_ok_iff_acceptable hsorted hword]
  constructor
  · rintro ⟨hpos, hle, hmaj⟩
    rw [hmedian] at hpos hle
    exact ⟨hmajority.mp hmaj, fun _ => ⟨hpos, hle⟩⟩
  · -- up to `DECIMALS` decimals the range of the median need not be asked for
    rintro ⟨hmaj, hlarge⟩
    have hrange : 0 < Xrc.median self.prices.reciprocals ∧ Xrc.median self.prices.reciprocals ≤ MAX_RATE := by
      rcases Nat.lt_or_ge DECIMALS self.decimals_or_default with hlt | hge
      · exact hlarge hlt
      · exact median_reciprocals h hge hne
    exact ⟨hmedian ▸ hrange.1, hmedian ▸ hrange.2, hmajority.mpr hmaj⟩

end Inverse

end QueriedExchangeRate

/-! ## Routes

For the routes that end with `validate` there is nothing to show but that they do. On the
remaining one, what was validated is a composed crypto/fiat rate, which is in range and has at
most `2 * DECIMALS` decimals, so that its inverse is known in closed form. -/

/-- A rate inside the validation boundary: `validate` accepts it. On sorted words, which
every composition of rates returns, it is then acceptable as a set of rates. -/
def Validated (q : QueriedExchangeRate) : Prop :=
  q.validate = .ok q
    ∧ (q.rates.Pairwise (· ≤ ·) → (∀ r ∈ q.rates, r < 2 ^ 64) → Acceptable q.rates)

theorem validated_iff_validate {q : QueriedExchangeRate} : Validated q ↔ q.validate = .ok q :=
  ⟨fun h => h.1, fun h => ⟨h, fun hsorted hword =>
    (validate_ok_iff_acceptable hsorted hword).mp h⟩⟩

/-- A request that reaches the route of a fiat/crypto pair. Neither the routing nor these checks
look at the state, so this is known before the run starts. -/
structure RoutedFiatCrypto (env : Environment) (request : GetExchangeRateRequest) : Prop where
  not_anonymous : is_caller_anonymous env.caller = false
  paid : is_caller_privileged env.caller = true ∨ env.has_enough_cycles = true
  base_fiat : request.base_asset.class' = .FiatCurrency
  quote_crypto : request.quote_asset.class' = .Cryptocurrency

/-- What a composed crypto/fiat rate is once it is validated. It is a fixed point of `validate`,
which returns the rate it was given or refuses it. -/
structure Composed (p : QueriedExchangeRate) : Prop where
  validated : p.validate = .ok p
  sorted : p.rates.Pairwise (· ≤ ·)
  inRange : InRange p.rates
  ne_nil : p.rates ≠ []
  decimals_le : p.decimals_or_default ≤ 2 * DECIMALS

theorem composed_of_crypto_fiat_rate {operands : CryptoFiatOperands} {p : QueriedExchangeRate}
    (h : crypto_fiat_rate operands = .ok p) : Composed p := by
  unfold crypto_fiat_rate at h
  split at h
  · cases h
  · rename_i stablecoin_rate _
    dsimp only at h
    have hp := eq_of_validate_ok h
    rw [← hp] at h
    -- the median of no rates is zero, which the validation rejects
    have hne : p.rates ≠ [] := by
      intro hnil
      have hpos := ((validate_ok_iff p).mp h).1
      rw [hnil, median_nil] at hpos
      exact absurd hpos (by decide)
    subst hp
    exact ⟨h, mul_rates_pairwise _ _, mul_rates_inRange _ _, hne, mul_decimals_le hne⟩

section Routes

variable [Features] [Unicode] {L : Type} [LruCache L CacheKey QueriedExchangeRate]

/-- The rates a fiat/crypto request gathers, in a given state and world: from the cache,
from the exchanges and from the forex store. -/
def gathered_operands (env : Environment) (request : GetExchangeRateRequest) (s : State L)
    (w : World (State L) Call Answer) (n : ℕ) :
    Option (State L × Except ExchangeRateError CryptoFiatOperands) :=
  (gather_crypto_base_fiat_quote_pair env
    (invert_assets_in_request (sanitize_request request)) s).run w n

/-- **What a fiat/crypto request answers**: the inverse of the validated crypto/fiat rate
that its operands compose. -/
theorem run_fiat_crypto_iff {env : Environment} {request : GetExchangeRateRequest}
    (hrouted : RoutedFiatCrypto env request) (s : State L) (w : World (State L) Call Answer)
    (n : ℕ) (s' : State L) (q : QueriedExchangeRate) :
    (answer_request env request s).run w n = some (s', .ok q)
      ↔ ∃ operands p, gathered_operands env request s w n = some (s', .ok operands)
          ∧ crypto_fiat_rate operands = .ok p ∧ p.inverted = q := by
  have hbase : (sanitize_request request).base_asset.class' = .FiatCurrency := hrouted.base_fiat
  have hquote : (sanitize_request request).quote_asset.class' = .Cryptocurrency :=
    hrouted.quote_crypto
  have hroute : answer_request env request s
      = ((gather_crypto_base_fiat_quote_pair env
          (invert_assets_in_request (sanitize_request request)) s).map
            fun gathered => gathered.bind crypto_fiat_rate).map fiat_crypto_result := by
    rw [answer_request_of_let_in hrouted.not_anonymous hrouted.paid, route_request, hbase,
      hquote]
    rfl
  -- both post-processing steps commute with the run, and keep errors errors
  rw [hroute, run_map, run_map, gathered_operands, Option.map_map, Option.map_eq_some_iff]
  constructor
  · rintro ⟨⟨s'', gathered⟩, hrun, heq⟩
    obtain ⟨rfl, hresult⟩ := Prod.mk.inj heq
    obtain ⟨p, hcomposed, hinverted⟩ := map_eq_ok_iff.mp (mapError_eq_ok_iff.mp hresult)
    obtain ⟨operands, hgathered, hcomposed⟩ := bind_eq_ok_iff.mp hcomposed
    exact ⟨operands, p, hgathered ▸ hrun, hcomposed, hinverted⟩
  · rintro ⟨operands, p, hrun, hcomposed, hinverted⟩
    refine ⟨(s', .ok operands), hrun, Prod.ext rfl ?_⟩
    exact mapError_eq_ok_iff.mpr (map_eq_ok_iff.mpr
      ⟨p, bind_eq_ok_iff.mpr ⟨operands, rfl, hcomposed⟩, hinverted⟩)

omit [Features] [Unicode] in
/-- `validate` accepts what it returns. -/
theorem validate_of_validate_ok {p q : QueriedExchangeRate} (h : p.validate = .ok q) :
    q.validate = .ok q := by
  have hpq := eq_of_validate_ok h
  rw [← hpq] at h
  exact h

omit [Features] [Unicode] [LruCache L CacheKey QueriedExchangeRate] in
/-- The charge of a fiat pair only decides whether its result is returned. -/
theorem charge_cycles_done {env : Environment} {num_rates_needed : ℕ} {is_valid_request : Bool}
    {s s' : State L} {result : RateResult} {w : World (State L) Call Answer} {n : ℕ}
    {q : QueriedExchangeRate}
    (hrun : (charge_cycles env num_rates_needed is_valid_request s
      fun s => .done s result).run w n = some (s', .ok q)) : result = .ok q := by
  unfold charge_cycles at hrun
  split at hrun
  · exact (Prod.mk.inj (Option.some.inj hrun)).2
  · dsimp only at hrun
    split at hrun
    · exact (Prod.mk.inj (Option.some.inj hrun)).2
    · cases hrun
    · cases hrun

/-- **Every other route ends with the validation.** The compositions of the two handlers with
cryptocurrencies are validated where they are computed, and the third handler validates what it
has looked up. -/
theorem validate_of_other_routes {env : Environment} {request : GetExchangeRateRequest}
    (hother : ¬ RoutedFiatCrypto env request) {s : State L} {w : World (State L) Call Answer}
    {n : ℕ} {s' : State L} {q : QueriedExchangeRate}
    (hrun : (answer_request env request s).run w n = some (s', .ok q)) :
    q.validate = .ok q := by
  rcases answer_request_cases env request s with ⟨error, -, hdone⟩ | ⟨hpublic, hpaid, hroute⟩
  · rw [hdone] at hrun
    cases hrun
  · rw [hroute] at hrun
    unfold route_request at hrun
    split at hrun
    · -- crypto/crypto
      rw [handle_cryptocurrency_pair, run_map, Option.map_eq_some_iff] at hrun
      obtain ⟨⟨s'', gathered⟩, -, heq⟩ := hrun
      obtain ⟨operands, -, hcomposed⟩ := bind_eq_ok_iff.mp (Prod.mk.inj heq).2
      exact validate_of_validate_ok hcomposed
    · -- crypto/fiat
      rw [handle_crypto_base_fiat_quote_pair, run_map, run_map, Option.map_map,
        Option.map_eq_some_iff] at hrun
      obtain ⟨⟨s'', gathered⟩, -, heq⟩ := hrun
      obtain ⟨operands, -, hcomposed⟩ :=
        bind_eq_ok_iff.mp (mapError_eq_ok_iff.mp (Prod.mk.inj heq).2)
      exact (composed_of_crypto_fiat_rate hcomposed).validated
    · -- fiat/crypto, which `hother` excludes
      rename_i hbase hquote
      exact absurd ⟨hpublic, hpaid, hbase, hquote⟩ hother
    · -- fiat/fiat
      unfold handle_fiat_pair at hrun
      dsimp only at hrun
      split at hrun
      · cases hrun
      · obtain ⟨p, -, hvalid⟩ := bind_eq_ok_iff.mp (charge_cycles_done hrun)
        exact validate_of_validate_ok hvalid

/-- What a fiat/crypto request composes, on the prices it is supplied with. The request has to be
let in first, and what its handler gathers is then what it is supplied with. -/
theorem gathered_prices_iff {env : Environment} {request : GetExchangeRateRequest}
    (hrouted : RoutedFiatCrypto env request) (s : State L) (w : World (State L) Call Answer)
    (n : ℕ) (p : Prices) :
    (∃ s' operands q, gathered_operands env request s w n = some (s', .ok operands)
        ∧ crypto_fiat_rate operands = .ok q ∧ q.prices = p)
      ↔ SuppliesPrices env (sanitize_request request) s
          ((get_exchange_rate_internal env request s).answered w n) p ∧ Acceptable p.rates := by
  have hbase : (sanitize_request request).base_asset.class' = .FiatCurrency := hrouted.base_fiat
  have hquote : (sanitize_request request).quote_asset.class' = .Cryptocurrency :=
    hrouted.quote_crypto
  have hpair : is_crypto_fiat_pair (sanitize_request request) = true := by
    refine decide_eq_true ?_
    rw [hbase, hquote]
    decide
  -- the handler sees the pair the other way round
  have hhandled : routed_request (sanitize_request request)
      = invert_assets_in_request (sanitize_request request) := by
    unfold routed_request
    rw [hbase, hquote]
  rw [get_exchange_rate_internal, answered_map,
    answer_request_of_let_in hrouted.not_anonymous hrouted.paid, ← composed_prices_iff hpair,
    hhandled]
  simp only [result_eq_some_iff, gathered_operands]
  constructor
  · rintro ⟨s', operands, q, hrun, hq⟩
    exact ⟨operands, q, ⟨s', hrun⟩, hq⟩
  · rintro ⟨operands, q, ⟨s', hrun⟩, hq⟩
    exact ⟨s', operands, q, hrun, hq⟩

/-- **When every answer is validated.** In any state and world, a rate that
`get_exchange_rate_internal` returns comes from a validated one, unless the request is a
fiat/crypto pair and the prices it is supplied with are acceptable, but not their
reciprocals.

All routes but one end with `validate`, and that one inverts what it validated. The prices
are those of the cache, the exchanges and the forex store in closed form, so the condition
is about them and not about what the handler makes of them. -/
theorem answers_are_validated_iff (env : Environment) (request : GetExchangeRateRequest)
    (s : State L) (w : World (State L) Call Answer) (n : ℕ) :
    (∀ s' rate, (get_exchange_rate_internal env request s).run w n = some (s', .ok rate) →
      ∃ q, (answer_request env request s).run w n = some (s', .ok q) ∧ q.into = rate
        ∧ Validated q)
      ↔ (RoutedFiatCrypto env request → ∀ p,
          SuppliesPrices env (sanitize_request request) s
            ((get_exchange_rate_internal env request s).answered w n) p →
          Acceptable p.rates → p.ReciprocalsAgree) := by
  constructor
  · -- the inverse is the answer itself, so its validation is the agreement of its rates
    intro hvalidated hrouted p hsupplied hacceptable
    obtain ⟨s', operands, q, hgathered, hcomposed, rfl⟩ :=
      (gathered_prices_iff hrouted s w n p).mpr ⟨hsupplied, hacceptable⟩
    have hanswer := (run_fiat_crypto_iff hrouted s w n s' q.inverted).mpr
      ⟨operands, q, hgathered, hcomposed, rfl⟩
    have hrun : (get_exchange_rate_internal env request s).run w n
        = some (s', .ok q.inverted.into) := by
      rw [get_exchange_rate_internal, run_map, hanswer]
      rfl
    obtain ⟨q', hq', -, hvalid⟩ := hvalidated s' _ hrun
    have hqq' : q.inverted = q' := by
      have := hanswer.symm.trans hq'
      exact Except.ok.inj (Prod.mk.inj (Option.some.inj this)).2
    have hq := composed_of_crypto_fiat_rate hcomposed
    rw [← validate_inverted_iff hq.inRange hq.decimals_le hq.ne_nil, hqq']
    exact hvalid.1
  · -- the conversion loses the rates, so the validated one is that of the request
    intro hagree s' rate hrun
    rw [get_exchange_rate_internal, run_map, Option.map_eq_some_iff] at hrun
    obtain ⟨⟨s'', result⟩, hanswer, heq⟩ := hrun
    obtain ⟨rfl, hresult⟩ := Prod.mk.inj heq
    obtain ⟨q, rfl, hinto⟩ := map_eq_ok_iff.mp hresult
    refine ⟨q, hanswer, hinto, validated_iff_validate.mpr ?_⟩
    by_cases hrouted : RoutedFiatCrypto env request
    · obtain ⟨operands, p, hgathered, hcomposed, rfl⟩ :=
        (run_fiat_crypto_iff hrouted s w n _ q).mp hanswer
      obtain ⟨hsupplied, hacceptable⟩ := (gathered_prices_iff hrouted s w n p.prices).mp
        ⟨_, operands, p, hgathered, hcomposed, rfl⟩
      have hp := composed_of_crypto_fiat_rate hcomposed
      rw [validate_inverted_iff hp.inRange hp.decimals_le hp.ne_nil]
      exact hagree hrouted p.prices hsupplied hacceptable
    · exact validate_of_other_routes hrouted hanswer

/-- **When an inversion is exact**, of any rate in range with at most `2 * DECIMALS` decimals, and
so of every fiat/crypto answer: it is the inverse of a composed rate of this kind.

The condition says that no quotient is cut off by the cast to 64 bits, and is checked rate by
rate. Nothing else can go wrong for rates in range with so few decimals: they are positive, and
raising their decimals does not saturate. -/
theorem inversion_is_exact_iff :
    (∀ self : QueriedExchangeRate, InRange self.rates →
        self.decimals_or_default ≤ 2 * DECIMALS →
      (self.InvertsExactly ↔ ∀ r ∈ self.rates, 10 ^ (2 * self.decimals_or_default) < 2 ^ 64 * r))
    ∧ ∀ (env : Environment) (request : GetExchangeRateRequest) (s : State L)
        (w : World (State L) Call Answer) (n : ℕ) (s' : State L) (q : QueriedExchangeRate),
      RoutedFiatCrypto env request →
      (answer_request env request s).run w n = some (s', .ok q) →
      ∃ operands p, gathered_operands env request s w n = some (s', .ok operands)
        ∧ crypto_fiat_rate operands = .ok p ∧ q = p.inverted
        ∧ InRange p.rates ∧ p.decimals_or_default ≤ 2 * DECIMALS := by
  refine ⟨fun self hrange hdecimals => inverts_exactly_iff hrange hdecimals, ?_⟩
  intro env request s w n s' q hrouted hrun
  obtain ⟨operands, p, hgathered, hcomposed, rfl⟩ :=
    (run_fiat_crypto_iff hrouted s w n s' q).mp hrun
  have hp := composed_of_crypto_fiat_rate hcomposed
  exact ⟨operands, p, hgathered, hcomposed, rfl, hp.inRange, hp.decimals_le⟩

end Routes

/-! ## A price of dust

The smallest price an exchange can answer with, against two currencies. One makes a reciprocal
that is out of range, and the other one that does not fit in 64 bits. -/

/-- BABYDOGE trades at one unit of the last decimal, and the stablecoins hold their peg. -/
def dustPrice : ExchangeAnswers := fun _ args =>
  if args.base_asset.symbol = "BABYDOGE" then .ok 1 else .ok RATE_UNIT

/-- A currency against BABYDOGE, on the day of `oneEurDay`. -/
def dustRequest (currency : String) : GetExchangeRateRequest :=
  ⟨⟨currency, .FiatCurrency⟩, ⟨"BABYDOGE", .Cryptocurrency⟩, some 1_699_833_600⟩

/-- For EUR/BABYDOGE the reciprocal of `0.9` billionths exceeds `MAX_RATE`, and is returned. -/
theorem dust_answer_not_validated :
    letI := defaultBuild
    letI := asciiUnicode
    ¬ ∀ (env : Environment) (request : GetExchangeRateRequest) (s : State RecentRates)
        (w : World (State RecentRates) Call Answer) (n : ℕ) s' rate,
      (get_exchange_rate_internal env request s).run w n = some (s', .ok rate) →
        ∃ q, (answer_request env request s).run w n = some (s', .ok q) ∧ q.into = rate
          ∧ Validated q := by
  let _ := defaultBuild
  let _ := asciiUnicode
  intro h
  -- the run is evaluated: what it ends in would not pass
  have hrejected : ((answer_request (Environment.ordinary 1_700_000_000) (dustRequest "EUR")
      (stateOf ForexRateStore.oneEurDay (cacheOf []))).run
        (CallExchangesImpl.undisturbed 1_700_000_000 dustPrice) 0).map
          (fun r => r.2.toOption.map fun q => q.validate.isOk) = some (some false) := by
    decide +kernel
  rw [Option.map_eq_some_iff] at hrejected
  obtain ⟨⟨s', result⟩, hrun, hresult⟩ := hrejected
  rw [Option.map_eq_some_iff] at hresult
  obtain ⟨q, hq, hinvalid⟩ := hresult
  cases result with
  | error error => cases hq
  | ok answer =>
      cases hq
      obtain ⟨q', hrun', -, hvalid⟩ := h _ _ _ _ _ s' q.into (by
        rw [get_exchange_rate_internal, run_map, hrun]
        rfl)
      rw [hrun] at hrun'
      cases hrun'
      rw [hvalid.1] at hinvalid
      cases hinvalid

/-- For KWD/BABYDOGE a rate of `0.3` billionths is composed. -/
theorem dust_composed :
    letI := defaultBuild
    letI := asciiUnicode
    ∃ s' operands p, gathered_operands (Environment.ordinary 1_700_000_000) (dustRequest "KWD")
          (stateOf (ForexRateStore.oneDayStore "KWD" 3_250_000_000 1_699_833_600) (cacheOf []))
          (CallExchangesImpl.undisturbed 1_700_000_000 dustPrice) 0 = some (s', .ok operands)
      ∧ crypto_fiat_rate operands = .ok p
      ∧ ∃ r ∈ p.rates, ¬ 10 ^ (2 * p.decimals_or_default) < 2 ^ 64 * r := by
  let _ := defaultBuild
  let _ := asciiUnicode
  -- the quotient of the smallest price is beyond 64 bits
  have hlarge : (gathered_operands (Environment.ordinary 1_700_000_000) (dustRequest "KWD")
      (stateOf (ForexRateStore.oneDayStore "KWD" 3_250_000_000 1_699_833_600) (cacheOf []))
      (CallExchangesImpl.undisturbed 1_700_000_000 dustPrice) 0).map
        (fun r => (r.2.bind crypto_fiat_rate).toOption.map fun p =>
          p.rates.all fun r => decide (10 ^ (2 * p.decimals_or_default) < 2 ^ 64 * r))
      = some (some false) := by
    decide +kernel
  rw [Option.map_eq_some_iff] at hlarge
  obtain ⟨⟨s', result⟩, hrun, hresult⟩ := hlarge
  rw [Option.map_eq_some_iff] at hresult
  obtain ⟨p, hp, hcast⟩ := hresult
  obtain ⟨operands, rfl, hcomposed⟩ := bind_eq_ok_iff.mp (toOption_eq_some_iff.mp hp)
  rw [List.all_eq_false] at hcast
  obtain ⟨r, hr, hnot⟩ := hcast
  exact ⟨s', operands, p, hrun, hcomposed, r, hr, mt decide_eq_true hnot⟩

/-- The reciprocal of this rate does not fit in 64 bits. -/
theorem dust_inverse_not_exact :
    letI := defaultBuild
    letI := asciiUnicode
    ∃ s' operands p, gathered_operands (Environment.ordinary 1_700_000_000) (dustRequest "KWD")
          (stateOf (ForexRateStore.oneDayStore "KWD" 3_250_000_000 1_699_833_600) (cacheOf []))
          (CallExchangesImpl.undisturbed 1_700_000_000 dustPrice) 0 = some (s', .ok operands)
      ∧ crypto_fiat_rate operands = .ok p
      ∧ InRange p.rates ∧ p.decimals_or_default ≤ 2 * DECIMALS ∧ ¬ p.InvertsExactly := by
  let _ := defaultBuild
  let _ := asciiUnicode
  obtain ⟨s', operands, p, hrun, hcomposed, r, hr, hlarge⟩ := dust_composed
  have hrate := composed_of_crypto_fiat_rate hcomposed
  refine ⟨s', operands, p, hrun, hcomposed, hrate.inRange, hrate.decimals_le, fun hexact => ?_⟩
  have hall := (inverts_exactly_iff hrate.inRange hrate.decimals_le).mp hexact
  exact hlarge (hall r hr)

end Xrc
