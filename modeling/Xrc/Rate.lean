/-
`QueriedExchangeRate` of `lib.rs`: a list of rates for one pair of assets with the
metadata that travels with it, and the operations that compose such rates: the
constructor with its outlier filter, multiplication, inversion, division and the
validation every composed rate passes.

The loops of `mul` and `inverted` are definitions of their own, with the loop state as
arguments, so that each has one lemma.
-/
import Xrc.Utils

set_option autoImplicit false

namespace Xrc

open Machine OrderStatistics

/-- The received rates for a particular exchange rate request. All counts and time stamps of an
answer are in it, so that a composition of two rates is a composition of what is known about them,
too. -/
structure QueriedExchangeRate where
  base_asset : Asset
  quote_asset : Asset
  timestamp : ℕ
  /-- The received rates, scaled by `10 ^ decimals`. -/
  rates : List ℕ
  /-- The number of decimals of the rates, `DECIMALS` if it is not set. -/
  decimals : Option ℕ
  base_asset_num_queried_sources : ℕ
  base_asset_num_received_rates : ℕ
  quote_asset_num_queried_sources : ℕ
  quote_asset_num_received_rates : ℕ
  /-- The beginning of the day the forex rates are from, if any. -/
  forex_timestamp : Option ℕ
  deriving DecidableEq, Repr

/-- The largest rate that is still accepted: `RATE_UNIT * RATE_UNIT`. -/
def MAX_RATE : ℕ := RATE_UNIT * RATE_UNIT

namespace QueriedExchangeRate

/-- `self.decimals.unwrap_or(DECIMALS)`. -/
def decimals_or_default (self : QueriedExchangeRate) : ℕ := self.decimals.getD DECIMALS

/-! ## The constructor

The rates of one query pass a filter before they become a rate: those too far from their median
are dropped. Those that are left are kept sorted, which `validate` relies on. -/

/-- The condition under which `new` keeps a rate, given the median of all of them. -/
def retains (median_rate rate : ℕ) : Bool :=
  decide (0 < rate) && decide (rate ≤ MAX_RATE)
    && decide (abs_diff rate median_rate ≤ median_rate / MAX_RELATIVE_DIFFERENCE_DIVISOR)

/-- `QueriedExchangeRate::new`. -/
def new (base_asset quote_asset : Asset) (timestamp : ℕ) (rates : List ℕ)
    (num_queried_sources num_received_rates : ℕ) (forex_timestamp : Option ℕ) :
    QueriedExchangeRate :=
  let median_rate := median rates
  { base_asset := base_asset
    quote_asset := quote_asset
    timestamp := timestamp
    rates := sort (rates.filter (retains median_rate))
    decimals := none
    base_asset_num_queried_sources := num_queried_sources
    base_asset_num_received_rates := num_received_rates
    quote_asset_num_queried_sources := num_queried_sources
    quote_asset_num_received_rates := num_received_rates
    forex_timestamp := forex_timestamp }

/-! ## Multiplication

Every rate of one side is multiplied with every rate of the other, in 128 bits, and the products
are brought back to words by dividing twice: by the scale of the side with fewer decimals, or
less of it where the products would vanish, and by as many tens as their median has too many
digits. Both loops look at the median alone, so that single products may be cut to zero or stay
too large; these are dropped, and a product of which less than half is left is empty. -/

/-- The first loop of `mul`: increase `decimals` while the median is too small. The result is the
pair of `denominator` and `decimals`. With a median of zero it runs until the denominator is zero,
which the caller takes for a product without rates. -/
def raise_decimals (median_rate denominator decimals : ℕ) : ℕ × ℕ :=
  if median_rate < denominator then
    raise_decimals median_rate (denominator / 10) (saturating_add 32 decimals 1)
  else (denominator, decimals)
termination_by denominator
decreasing_by omega

/-- The second loop of `mul`: reduce `decimals` while the median is too large. The result is the
pair of `divisor` and `decimals`. It stops at no decimals, so that a very large median may be
left. -/
def reduce_decimals (median_rate max_value divisor : ℕ) : ℕ → ℕ × ℕ
  | 0 => (divisor, 0)
  | decimals + 1 =>
    if max_value < median_rate / divisor then
      reduce_decimals median_rate max_value (saturating_mul 128 divisor 10) decimals
    else (divisor, decimals + 1)

/-- The rates of every pair, still scaled by the decimals of both factors. -/
def all_products (own_rates other_rates : List ℕ) : List ℕ :=
  sort (own_rates.flatMap fun own_value =>
    other_rates.map fun other_value => saturating_mul 128 own_value other_value)

/-- The rates and the decimals of the product of two sets of rates. -/
def mul_rates (own_rates other_rates : List ℕ) (own_decimals other_decimals : ℕ) :
    List ℕ × ℕ :=
  let all_rates := all_products own_rates other_rates
  let all_rates_length := all_rates.length
  let median_rate := all_rates.getD (all_rates.length / 2) 0
  let raised := raise_decimals median_rate
    (wrapping_pow 128 10 (min own_decimals other_decimals)) (max own_decimals other_decimals)
  let denominator := raised.1
  let decimals := raised.2
  let all_rates :=
    if 0 < denominator ∧ decimals ≤ 2 * DECIMALS then all_rates.map (· / denominator) else []
  -- `checked_div(..).unwrap_or(0)`: dividing by zero is zero
  let median_rate := median_rate / denominator
  let reduced := reduce_decimals median_rate MAX_RATE 1 decimals
  let rates := (all_rates.map (· / reduced.1)).filter
    fun final_rate => decide (final_rate ≤ MAX_RATE) && decide (0 < final_rate)
  (if rates.length < (all_rates_length + 1) / 2 then [] else rates, reduced.2)

/-- The forex timestamp of a product. -/
def mul_forex_timestamp : Option ℕ → Option ℕ → Option ℕ
  | none, some timestamp => some timestamp
  | some timestamp, none => some timestamp
  | some self_timestamp, some other_timestamp =>
    if self_timestamp = other_timestamp then some self_timestamp else none
  | none, none => none

/-- `Mul::mul`. -/
def mul (self other_rate : QueriedExchangeRate) : QueriedExchangeRate :=
  let product := mul_rates self.rates other_rate.rates self.decimals_or_default
    other_rate.decimals_or_default
  { base_asset := self.base_asset
    quote_asset := other_rate.quote_asset
    timestamp := self.timestamp
    rates := product.1
    decimals := some product.2
    base_asset_num_queried_sources := self.base_asset_num_queried_sources
    base_asset_num_received_rates := self.base_asset_num_received_rates
    quote_asset_num_queried_sources := other_rate.quote_asset_num_queried_sources
    quote_asset_num_received_rates := other_rate.quote_asset_num_received_rates
    forex_timestamp := mul_forex_timestamp self.forex_timestamp other_rate.forex_timestamp }

instance : Mul QueriedExchangeRate := ⟨mul⟩

/-! ## Inversion and division

The same for the reciprocals, with one difference: a quotient is cast to 64 bits where `mul`
would drop it. The loop raises the decimals until the upper median is invertible and says
nothing of the rates below it, whose reciprocals are larger. -/

/-- The loop of `inverted`: raise the decimals until the median is invertible. The
result is the pair of `factor` and `used_decimals`. -/
def invert_scale (median_rate max_value factor used_decimals : ℕ) : ℕ × ℕ :=
  if wrapping_mul 128 max_value factor < median_rate ∧ used_decimals ≤ 2 * DECIMALS then
    invert_scale median_rate max_value (saturating_mul 128 factor 10)
      (saturating_add 32 used_decimals 1)
  else (factor, used_decimals)
termination_by 2 * DECIMALS + 1 - used_decimals
decreasing_by
  have hsat : saturating_add 32 used_decimals 1 = used_decimals + 1 := by
    apply saturating_add_eq
    simp only [DECIMALS, wordMax] at *
    omega
  omega

/-- The rates and the decimals of the inverse of a set of rates. -/
def inverted_rates (rates : List ℕ) (decimals : ℕ) : List ℕ × ℕ :=
  let all_rates := sort rates
  let median_rate := all_rates.getD (all_rates.length / 2) 0
  let max_value := wrapping_pow 128 10 (wrapping_mul 32 2 decimals)
  let scale := invert_scale median_rate max_value 1 decimals
  let factor := scale.1
  let used_decimals := scale.2
  let all_rates :=
    if used_decimals ≤ 2 * DECIMALS then
      all_rates.map fun rate => saturating_mul 128 rate factor
    else []
  (sort (all_rates.filterMap fun rate => checked_invert_rate rate used_decimals),
    used_decimals)

/-- The exchange rate with base asset and quote asset inverted. -/
def inverted (self : QueriedExchangeRate) : QueriedExchangeRate :=
  let inverse := inverted_rates self.rates self.decimals_or_default
  { base_asset := self.quote_asset
    quote_asset := self.base_asset
    timestamp := self.timestamp
    rates := inverse.1
    decimals := some inverse.2
    base_asset_num_queried_sources := self.quote_asset_num_queried_sources
    base_asset_num_received_rates := self.quote_asset_num_received_rates
    quote_asset_num_queried_sources := self.base_asset_num_queried_sources
    quote_asset_num_received_rates := self.base_asset_num_received_rates
    forex_timestamp := self.forex_timestamp }

/-- `Div::div`: multiplication with the inverse. The two roundings add up, the one of the
reciprocal and the one of the product. -/
def div (self other_rate : QueriedExchangeRate) : QueriedExchangeRate :=
  self * other_rate.inverted

instance : Div QueriedExchangeRate := ⟨div⟩

/-! ## Validation and conversion

A rate is served if its median is in range and some window of more than half of its sorted
values is narrow. `deviates` is about one window; it subtracts without a check, which is right
because the list is sorted. -/

/-- The test `validate` makes at the window ending at position `last`. -/
def deviates (rates : List ℕ) (diff last : ℕ) : Bool :=
  decide (rates.getD (last - diff) 0 / RATE_DEVIATION_DIVISOR
    < wrapping_sub 64 (rates.getD last 0) (rates.getD (last - diff) 0))

/-- `QueriedExchangeRate::validate`. An empty list has the median zero and is refused with the
first error; with one rate the only window is the rate itself. -/
def validate (self : QueriedExchangeRate) : Except ExchangeRateError QueriedExchangeRate :=
  let median_rate := median self.rates
  if median_rate = 0 ∨ MAX_RATE < median_rate then .error errors.invalid_rate_error
  else
    let num := self.rates.length
    let diff := num / 2
    if (List.range' diff (num - diff)).all (deviates self.rates diff) then
      .error .InconsistentRatesReceived
    else .ok self

/-- `From<QueriedExchangeRate> for ExchangeRate`. The answer carries the median of the rates and
their standard deviation, and the rates themselves are gone. -/
def into (rate : QueriedExchangeRate) : ExchangeRate :=
  { base_asset := rate.base_asset
    quote_asset := rate.quote_asset
    timestamp := rate.timestamp
    rate := median rate.rates
    metadata :=
      { decimals := rate.decimals_or_default
        base_asset_num_queried_sources := rate.base_asset_num_queried_sources
        base_asset_num_received_rates := rate.base_asset_num_received_rates
        quote_asset_num_queried_sources := rate.quote_asset_num_queried_sources
        quote_asset_num_received_rates := rate.quote_asset_num_received_rates
        standard_deviation := standard_deviation rate.rates
        forex_timestamp := rate.forex_timestamp } }

end QueriedExchangeRate

end Xrc
