/-
A minority of faulty exchanges cannot move a price. When more than half of the values
the exchanges return lie in an interval no wider than a tenth of its lower end, the
constructor keeps all of them, the composition with the USDT unit rate keeps them too,
the window validation accepts, and the median it returns is in the interval, whatever
the other values are.
-/
import Xrc.ApiSpec

set_option autoImplicit false

namespace Xrc

open Async OrderStatistics QueriedExchangeRate CallExchangesImpl

/-! ## Intervals that hold a majority

The one hypothesis on the exchanges: more than half of what they return is in `[lo, hi]`, and
the interval is narrow. It survives each step on the way to the answer. The median is in the
interval, so the filter keeps all of the interval; a filter that keeps all of a majority keeps
it a majority; and a majority within a tenth is what the validation asks for. -/

/-- More than half of the values lie in `[lo, hi]`, a range of accepted rates no wider than a
tenth of `lo`. The tenth is that of `validate`, and the values are whatever the exchanges return,
zeros and absurd ones included. -/
structure MajorityIn (lo hi : ℕ) (values : List ℕ) : Prop where
  pos : 0 < lo
  le : lo ≤ hi
  le_max : hi ≤ MAX_RATE
  narrow : hi - lo ≤ lo / RATE_DEVIATION_DIVISOR
  majority : values.length < 2 * countIn lo hi values

namespace MajorityIn

variable {lo hi : ℕ} {values : List ℕ}

/-- A majority carries the median. -/
theorem median_mem (h : MajorityIn lo hi values) : lo ≤ median values ∧ median values ≤ hi :=
  median_mem_interval h.le (lt_of_le_of_lt h.le_max MAX_RATE_lt) h.majority

/-- The constructor keeps every value of the interval: it is close to the median. -/
theorem retains_of_mem (h : MajorityIn lo hi values) {r : ℕ} (hr : lo ≤ r ∧ r ≤ hi) :
    retains (median values) r = true := by
  obtain ⟨hlo, hhi⟩ := h.median_mem
  have hpos := h.pos
  have hmax := h.le_max
  -- the deviation allowed between exchanges is narrower than the one from the median
  have hnarrow : hi - lo ≤ median values / MAX_RELATIVE_DIFFERENCE_DIVISOR := by
    calc hi - lo ≤ lo / RATE_DEVIATION_DIVISOR := h.narrow
      _ ≤ median values / RATE_DEVIATION_DIVISOR := Nat.div_le_div_right hlo
      _ ≤ median values / MAX_RELATIVE_DIFFERENCE_DIVISOR :=
          Nat.div_le_div_left (by decide) (by decide)
  rw [retains_iff, Machine.abs_diff_le_iff]
  omega

/-- What the constructor keeps of the interval is all of it. -/
theorem countIn_filter (h : MajorityIn lo hi values) :
    countIn lo hi (values.filter (retains (median values))) = countIn lo hi values := by
  rw [countIn, countIn, List.countP_filter]
  apply List.countP_congr
  intro r _
  rw [Bool.and_eq_true, decide_eq_true_eq]
  exact ⟨fun hr => hr.1, fun hr => ⟨hr, h.retains_of_mem hr⟩⟩

/-- Every value of the interval is kept as often as it was returned. -/
theorem count_new_rates (h : MajorityIn lo hi values) {r : ℕ} (hr : lo ≤ r ∧ r ≤ hi)
    (base_asset quote_asset : Asset) (timestamp queried received : ℕ)
    (forex_timestamp : Option ℕ) :
    (new base_asset quote_asset timestamp values queried received forex_timestamp).rates.count r
      = values.count r := by
  rw [QueriedExchangeRate.new_rates, (sort_perm _).count_eq,
    List.count_filter (h.retains_of_mem hr)]

/-- **The outlier filter keeps the majority**, as a majority of what it keeps. The median is among
the majority, whose rates are close to each other, so the filter drops none of them; what it drops
of the rest only makes the majority larger in proportion. -/
theorem new_rates (h : MajorityIn lo hi values) (base_asset quote_asset : Asset)
    (timestamp queried received : ℕ) (forex_timestamp : Option ℕ) :
    MajorityIn lo hi (new base_asset quote_asset timestamp values queried received
      forex_timestamp).rates := by
  have hcount : countIn lo hi (new base_asset quote_asset timestamp values queried received
      forex_timestamp).rates = countIn lo hi values := by
    rw [QueriedExchangeRate.new_rates, countIn_perm (sort_perm _), h.countIn_filter]
  refine ⟨h.pos, h.le, h.le_max, h.narrow, ?_⟩
  have hlen : (new base_asset quote_asset timestamp values queried received
      forex_timestamp).rates.length ≤ values.length := by
    rw [QueriedExchangeRate.new_rates, length_sort]
    exact List.length_filter_le _ _
  rw [hcount]
  exact lt_of_le_of_lt hlen h.majority

theorem ne_nil (h : MajorityIn lo hi values) : values ≠ [] := by
  rintro rfl
  have := h.majority
  simp only [countIn, List.countP_nil, List.length_nil] at this
  omega

/-- The values of the interval are a majority within a tenth of each other. -/
theorem majorityWithinTenth (h : MajorityIn lo hi values) : MajorityWithinTenth values := by
  refine ⟨values.filter fun r => decide (lo ≤ r ∧ r ≤ hi), (List.filter_sublist).subperm, ?_, ?_⟩
  · rw [← List.countP_eq_length_filter]
    exact h.majority
  · intro x hx y hy
    have hx' := of_decide_eq_true (List.mem_filter.mp hx).2
    have hy' := of_decide_eq_true (List.mem_filter.mp hy).2
    calc x - y ≤ hi - lo := by omega
      _ ≤ lo / RATE_DEVIATION_DIVISOR := h.narrow
      _ ≤ y / RATE_DEVIATION_DIVISOR := Nat.div_le_div_right hy'.1

/-- Rates in range with such a majority are acceptable. -/
theorem acceptable (h : MajorityIn lo hi values) (hrange : InRange values) : Acceptable values :=
  ⟨(median_of_inRange hrange h.ne_nil).1, (median_of_inRange hrange h.ne_nil).2,
    h.majorityWithinTenth⟩

end MajorityIn

/-- **A rate against USDT with such a majority is answered as it is**, at `DECIMALS`
decimals. -/
theorem crypto_usdt_rate_ok {lo hi : ℕ} {values : List ℕ} (h : MajorityIn lo hi values)
    (asset : Asset) (timestamp queried received : ℕ) :
    let rate := new asset usdt_asset timestamp values queried received none
    ∃ q, crypto_crypto_rate ⟨rate, usdt_unit timestamp⟩ = .ok q ∧ q.rates = rate.rates
      ∧ q.decimals = some DECIMALS := by
  intro rate
  have hmajority := h.new_rates asset usdt_asset timestamp queried received none
  have hsorted : rate.rates.Pairwise (· ≤ ·) := new_rates_pairwise _ _ _ _ _ _ _
  have hrange : InRange rate.rates := new_rates_inRange _ _ _ _ _ _ _
  -- dividing by the unit rate changes neither the rates nor the decimals
  obtain ⟨hrates, hdecimals⟩ := div_usdt_unit hsorted hrange hmajority.ne_nil rfl timestamp
  refine ⟨rate / usdt_unit timestamp, ?_, hrates, hdecimals⟩
  refine (validate_ok_iff_acceptable ?_ ?_).mpr ?_
  · rw [hrates]
    exact hsorted
  · intro r hr
    rw [hrates] at hr
    exact lt_of_le_of_lt (hrange r hr).2 (by decide)
  · rw [hrates]
    exact hmajority.acceptable hrange

/-! ## A request that fetches

The steps are put together for a request against USDT that has to ask the exchanges. The quote
is the unit rate, so the composition is the identity on rates in range. -/

section Requests

variable [Features] [Unicode] {L : Type} [LruCache L CacheKey QueriedExchangeRate]

/-- The rates the exchanges return for the base asset of a request. -/
def returned_rates (env : Environment) (request : GetExchangeRateRequest) (s : State L)
    (now_secs : ℕ) (answers : ExchangeAnswers) : List ℕ :=
  received_rates ((queried s.listing_store now_secs get_available_exchanges
    request.base_asset).map fun exchange =>
      answers exchange ⟨(chosen_timestamp env request s).value, usdt_asset, request.base_asset⟩)

omit [Features] in
/-- A query whose results have a majority succeeds, with the rate `new` makes of them. -/
theorem query_of_majority {lo hi : ℕ} {listing_store : ListingStore} {now_secs : ℕ}
    {answers : ExchangeAnswers} {exchanges : List Exchange} {asset : Asset} {timestamp : ℕ}
    (h : MajorityIn lo hi (received_rates ((queried listing_store now_secs exchanges asset).map
      fun exchange => answers exchange ⟨timestamp, usdt_asset, asset⟩))) :
    ∃ response queried_sources received_sources,
      get_cryptocurrency_usdt_rate listing_store now_secs answers exchanges asset timestamp
          = .ok response
        ∧ response.queried_exchange_rate = QueriedExchangeRate.new asset usdt_asset timestamp
            (received_rates ((queried listing_store now_secs exchanges asset).map
              fun exchange => answers exchange ⟨timestamp, usdt_asset, asset⟩))
            queried_sources received_sources none := by
  -- a majority is not empty, neither before the filter nor after it
  have hreceived : ¬ (received_rates ((queried listing_store now_secs exchanges asset).map
      fun exchange => answers exchange ⟨timestamp, usdt_asset, asset⟩)).isEmpty = true := by
    rw [List.isEmpty_iff]
    exact h.ne_nil
  have hkept : ∀ queried_sources received_sources, ¬ (QueriedExchangeRate.new asset usdt_asset
      timestamp (received_rates ((queried listing_store now_secs exchanges asset).map
        fun exchange => answers exchange ⟨timestamp, usdt_asset, asset⟩))
      queried_sources received_sources none).rates.isEmpty = true := by
    intro queried_sources received_sources
    rw [List.isEmpty_iff]
    exact (h.new_rates _ _ _ _ _ _).ne_nil
  unfold get_cryptocurrency_usdt_rate
  dsimp only
  rw [if_neg hreceived, if_neg (hkept _ _)]
  exact ⟨_, _, _, rfl, rfl⟩

/-- What a crypto pair against USDT gathers: the fresh rate, and the unit rate. USDT itself is
never fetched: its rate is the unit, whoever asks for it. -/
theorem run_gather_against_usdt {env : Environment} {request : GetExchangeRateRequest}
    {s : State L} {w : World (State L) Call Answer} {n now_secs : ℕ} {answers : ExchangeAnswers}
    (hbase : request.base_asset.class' = .Cryptocurrency)
    (hquote : request.quote_asset.class' = .Cryptocurrency)
    (husdt : request.quote_asset.symbol = USDT)
    (hanswers : ∀ call s', (w.respond n call s').1
      = implement s'.listing_store now_secs answers call)
    (hfetches : (gather_cryptocurrency_pair env request s).calls w n ≠ [])
    {lo hi : ℕ} (hmajority : MajorityIn lo hi (returned_rates env request s now_secs answers)) :
    ∃ s' timestamp queried_sources received_sources,
      (gather_cryptocurrency_pair env request s).run w n
        = some (s', .ok ⟨QueriedExchangeRate.new request.base_asset usdt_asset timestamp
            (returned_rates env request s now_secs answers) queried_sources received_sources none,
          usdt_unit timestamp⟩) := by
  obtain ⟨-, hchosen⟩ := route_request_crypto_crypto hbase hquote env s
  rw [returned_rates, hchosen] at hmajority ⊢
  obtain ⟨fees, hcharged⟩ := charge_cycles_of_calls hfetches
  rw [gather_cryptocurrency_pair, hcharged] at hfetches ⊢
  obtain ⟨hmissing, hproceed⟩ := proceed_cryptocurrency_pair_of_calls hfetches
  -- the USDT rate is always there, so it is the base rate that is missing
  obtain ⟨-, hquote_read⟩ := read_cryptocurrency_pair_eq env request
    (get_normalized_timestamp env request s).value s.cache
  rw [usable_rate_usdt _ _ (by rw [husdt, to_uppercase_USDT])] at hquote_read
  rw [hquote_read] at hmissing hproceed ⊢
  have hbase_read := hmissing.resolve_right (by nofun)
  rw [hbase_read] at hproceed ⊢
  obtain ⟨response, queried_sources, received_sources, hquery, hresponse⟩ :=
    query_of_majority hmajority
  rw [hproceed, with_inflight_tracking, run_guarded, with_request_counter]
  rw [run_guarded, fetch_cryptocurrency_pair, fetch_rate]
  rw [run_await, hanswers, implement]
  -- the guards do not touch the listings, so the exchanges asked are those of `s`
  have hsame : (((s.charged (read_cryptocurrency_pair env request
      (get_normalized_timestamp env request s).value s.cache).2.2 fees).add_inflight
        [request.base_asset.symbol, request.quote_asset.symbol]
        (get_normalized_timestamp env request s).value).reserve
          (http_requests_needed (crypto_pair_rates_needed none
            (some (usdt_unit (get_normalized_timestamp env request s).value))))).listing_store
      = s.listing_store := rfl
  rw [hsame, hquery]
  dsimp only
  rw [hresponse]
  exact ⟨_, _, _, _, rfl⟩

/-- **A minority of faulty exchanges cannot move a price against USDT.** Take any request for a
cryptocurrency against USDT that makes an outcall, so that it was admitted and fetches its base
rate, in any world in which the exchanges answer `answers` to it. If more than half of the rates
they return lie in `[lo, hi]`, at most a tenth of `lo` wide, the request succeeds, keeps every one
of these, and returns a rate in `[lo, hi]` with `DECIMALS` decimals.

The argument is about order statistics: the median of values of which more than half lie in an
interval lies in it as well. As the interval is a tenth wide at most, and the filter keeps a fifth
around the median, no honest value is lost; dividing by the unit of USDT changes nothing, and an
honest majority passes `validate`. -/
theorem minority_cannot_move_price (env : Environment) (request : GetExchangeRateRequest)
    (s : State L) (w : World (State L) Call Answer) (n now_secs : ℕ) (answers : ExchangeAnswers)
    (hbase : request.base_asset.class' = .Cryptocurrency)
    (hquote : request.quote_asset.class' = .Cryptocurrency)
    (husdt : (sanitize_request request).quote_asset.symbol = USDT)
    (hanswers : ∀ call s', (w.respond n call s').1
      = implement s'.listing_store now_secs answers call)
    (hfetches : (get_exchange_rate_internal env request s).calls w n ≠ [])
    {lo hi : ℕ} (hmajority : MajorityIn lo hi
      (returned_rates env (sanitize_request request) s now_secs answers)) :
    ∃ s' q, (answer_request env request s).run w n = some (s', .ok q)
      ∧ (get_exchange_rate_internal env request s).run w n = some (s', .ok q.into)
      ∧ (∀ r, lo ≤ r → r ≤ hi → q.rates.count r
          = (returned_rates env (sanitize_request request) s now_secs answers).count r)
      ∧ lo ≤ q.into.rate ∧ q.into.rate ≤ hi ∧ q.into.metadata.decimals = DECIMALS := by
  have hbase' : (sanitize_request request).base_asset.class' = .Cryptocurrency := hbase
  have hquote' : (sanitize_request request).quote_asset.class' = .Cryptocurrency := hquote
  rw [get_exchange_rate_internal, calls_map] at hfetches
  have hroute := answer_request_of_calls hfetches
  obtain ⟨hhandler, -⟩ := route_request_crypto_crypto hbase' hquote' env s
  rw [hroute, hhandler, handle_cryptocurrency_pair, calls_map] at hfetches
  obtain ⟨s', timestamp, queried_sources, received_sources, hgathered⟩ :=
    run_gather_against_usdt hbase' hquote' husdt hanswers hfetches hmajority
  obtain ⟨q, hcomposed, hrates, hdecimals⟩ := crypto_usdt_rate_ok hmajority
    (sanitize_request request).base_asset timestamp queried_sources received_sources
  have hrun : (answer_request env request s).run w n = some (s', .ok q) := by
    rw [hroute, hhandler, handle_cryptocurrency_pair, run_map, hgathered, Option.map_some]
    exact congrArg (fun r => some (s', r)) hcomposed
  have hkept := hmajority.new_rates (sanitize_request request).base_asset usdt_asset timestamp
    queried_sources received_sources none
  refine ⟨s', q, hrun, ?_, ?_, ?_, ?_, ?_⟩
  · -- the response is the median of the rate, at its decimals
    rw [get_exchange_rate_internal, run_map, hrun]
    rfl
  · intro r hlo hhi
    rw [hrates, hmajority.count_new_rates ⟨hlo, hhi⟩]
  · show lo ≤ median q.rates
    rw [hrates]
    exact hkept.median_mem.1
  · show median q.rates ≤ hi
    rw [hrates]
    exact hkept.median_mem.2
  · show q.decimals_or_default = DECIMALS
    rw [decimals_or_default, hdecimals, Option.getD_some]

end Requests

/-- ICP against USDT for the current minute. -/
def icpUsdtRequest : GetExchangeRateRequest :=
  ⟨⟨"icp", .Cryptocurrency⟩, ⟨"usdt", .Cryptocurrency⟩, none⟩

/-- Two exchanges lie as they please; the others agree on about five. -/
def twoFaultyExchanges : ExchangeAnswers := fun exchange _ =>
  match exchange with
  | .Coinbase => .ok 0
  | .Mexc => .ok (2 ^ 64 - 1)
  | .Okx => .ok 5_100_000_000
  | _ => .ok 5_000_000_000

theorem two_faulty_exchanges_do_not_move_the_price :
    letI := defaultBuild
    letI := asciiUnicode
    ∃ s' q, (answer_request (Environment.ordinary 6000) icpUsdtRequest
          (State.new : State RecentRates)).run (undisturbed 6000 twoFaultyExchanges) 0
        = some (s', .ok q)
      ∧ (get_exchange_rate_internal (Environment.ordinary 6000) icpUsdtRequest
          (State.new : State RecentRates)).run (undisturbed 6000 twoFaultyExchanges) 0
        = some (s', .ok q.into)
      ∧ (∀ r, 5_000_000_000 ≤ r → r ≤ 5_100_000_000 → q.rates.count r
          = (returned_rates (Environment.ordinary 6000) (sanitize_request icpUsdtRequest)
              (State.new : State RecentRates) 6000 twoFaultyExchanges).count r)
      ∧ 5_000_000_000 ≤ q.into.rate ∧ q.into.rate ≤ 5_100_000_000
      ∧ q.into.metadata.decimals = DECIMALS := by
  let _ := defaultBuild
  let _ := asciiUnicode
  refine minority_cannot_move_price (Environment.ordinary 6000) icpUsdtRequest State.new
    (undisturbed 6000 twoFaultyExchanges) 0 6000 twoFaultyExchanges rfl rfl (by decide +kernel)
    (fun _ _ => rfl) ?_ ⟨by decide, by decide, by decide, by decide, by decide +kernel⟩
  decide +kernel

end Xrc
