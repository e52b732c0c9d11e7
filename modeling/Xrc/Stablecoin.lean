/-
`stablecoin.rs`: the choice of the stablecoin that stands in for its peg. Among rates
against one quote asset the middle one by median is taken, the first of them on a tie,
and inverted.
-/
import Xrc.RateSpec

set_option autoImplicit false

namespace Xrc

open QueriedExchangeRate

namespace stablecoin

/-- At least this many stablecoin rates are needed to tell that one is off. -/
def MIN_NUM_STABLECOIN_RATES : ℕ := 2

inductive StablecoinRateError where
  | TooFewRates (num_rates : ℕ)
  | DifferentQuoteAssets (expected found : Asset)
  | ZeroRate
  deriving DecidableEq, Repr

/-- `From<StablecoinRateError> for ExchangeRateError`. -/
def StablecoinRateError.into : StablecoinRateError → ExchangeRateError
  | TooFewRates _ => .StablecoinRateTooFewRates
  | DifferentQuoteAssets _ _ => .StablecoinRateNotFound
  | ZeroRate => .StablecoinRateZeroRate

/-- The stablecoin `get_stablecoin_rate` chooses: among rates for one quote asset, the
first whose median is the median of the medians. -/
def median_stablecoin_rate (stablecoin_rates : List QueriedExchangeRate) :
    Except StablecoinRateError QueriedExchangeRate :=
  if stablecoin_rates.length < MIN_NUM_STABLECOIN_RATES then
    .error (.TooFewRates stablecoin_rates.length)
  else
    match stablecoin_rates with
    | [] => .error (.TooFewRates 0)
    | first :: _ =>
      match stablecoin_rates.find? fun rate => decide (rate.quote_asset ≠ first.quote_asset) with
      | some rate => .error (.DifferentQuoteAssets first.quote_asset rate.quote_asset)
      | none =>
        let median_of_median := median_in_set (stablecoin_rates.map fun rate => median rate.rates)
        if median_of_median = 0 then .error .ZeroRate
        else
          match stablecoin_rates.find? fun rate => decide (median rate.rates = median_of_median)
            with
          -- `expect`: the median of the medians is one of them
          | none => .error .ZeroRate
          | some median_stablecoin_rate => .ok median_stablecoin_rate

/-- The estimate from the chosen stablecoin: its rates against the quote asset they all
share, for the target currency, inverted. -/
def estimate (median_stablecoin_rate : QueriedExchangeRate) (target : Asset)
    (timestamps : List ℕ) : QueriedExchangeRate :=
  let median_timestamp := median timestamps / 60 * 60
  let target_to_quote_rate := QueriedExchangeRate.new target median_stablecoin_rate.quote_asset
    median_timestamp median_stablecoin_rate.rates
    median_stablecoin_rate.base_asset_num_queried_sources
    median_stablecoin_rate.base_asset_num_received_rates none
  target_to_quote_rate.inverted

/-- `get_stablecoin_rate`. -/
def get_stablecoin_rate (stablecoin_rates : List QueriedExchangeRate) (target : Asset) :
    Except StablecoinRateError QueriedExchangeRate :=
  (median_stablecoin_rate stablecoin_rates).map fun chosen =>
    estimate chosen target (stablecoin_rates.map QueriedExchangeRate.timestamp)

/-! ### The choice between two

The canister knows two stablecoins, and of two values neither is the middle one. With an even
sum of the medians the mean is as far from one as from the other, and the scan keeps the first;
with an odd sum the mean is rounded down, towards the smaller one. -/

/-- **Two stablecoins**: on an even sum of their medians the first one stands in for the
peg, otherwise the one with the smaller median. -/
theorem median_stablecoin_rate_pair {first second : QueriedExchangeRate}
    (hquote : second.quote_asset = first.quote_asset)
    (hsum : median first.rates + median second.rates < 2 ^ 64) :
    median_stablecoin_rate [first, second]
      = if (median first.rates + median second.rates) % 2 = 0 then
          if median first.rates = 0 then .error .ZeroRate else .ok first
        else if median first.rates < median second.rates then
          if median first.rates = 0 then .error .ZeroRate else .ok first
        else if median second.rates = 0 then .error .ZeroRate else .ok second := by
  have hdiffers : [first, second].find? (fun rate => decide (rate.quote_asset ≠ first.quote_asset))
      = none := by
    simp only [List.find?_cons, List.find?_nil, hquote, ne_eq, not_true_eq_false, decide_false]
  have hmiddle : median_in_set ([first, second].map fun rate => median rate.rates)
      = if (median first.rates + median second.rates) % 2 = 0 then median first.rates
        else min (median first.rates) (median second.rates) := median_in_set_pair hsum
  have hlen : ¬ [first, second].length < MIN_NUM_STABLECOIN_RATES := by
    rw [List.length_cons, List.length_singleton]
    decide
  unfold median_stablecoin_rate
  dsimp only
  rw [if_neg hlen, hdiffers]
  dsimp only
  rw [hmiddle]
  by_cases heven : (median first.rates + median second.rates) % 2 = 0
  · -- both medians are equally far from their middle, and the first one stays
    rw [if_pos heven, if_pos heven, List.find?_cons, decide_eq_true rfl]
  · rw [if_neg heven, if_neg heven]
    by_cases hlt : median first.rates < median second.rates
    · rw [if_pos hlt, Nat.min_eq_left hlt.le, List.find?_cons, decide_eq_true rfl]
    · have hne : median first.rates ≠ median second.rates := by
        intro heq
        omega
      rw [if_neg hlt, Nat.min_eq_right (not_lt.mp hlt), List.find?_cons, decide_eq_false hne,
        List.find?_cons, decide_eq_true rfl]

/-- **The choice depends on the order** of two different stablecoins unless the sum of
their medians is odd, or both medians are zero and there is nothing to choose. -/
theorem median_stablecoin_rate_swap_iff {first second : QueriedExchangeRate}
    (hquote : second.quote_asset = first.quote_asset)
    (hsum : median first.rates + median second.rates < 2 ^ 64) (hne : first ≠ second) :
    median_stablecoin_rate [first, second] = median_stablecoin_rate [second, first]
      ↔ (median first.rates + median second.rates) % 2 = 1
        ∨ (median first.rates = 0 ∧ median second.rates = 0) := by
  rw [median_stablecoin_rate_pair hquote hsum,
    median_stablecoin_rate_pair hquote.symm (by omega),
    Nat.add_comm (median second.rates) (median first.rates)]
  by_cases heven : (median first.rates + median second.rates) % 2 = 0
  · -- each order chooses its own first one, and these differ unless both fail
    have hodd : ¬ (median first.rates + median second.rates) % 2 = 1 := by omega
    rw [if_pos heven, if_pos heven]
    by_cases hfirst : median first.rates = 0 <;> by_cases hsecond : median second.rates = 0 <;>
      simp [hfirst, hsecond, hne, hodd] <;> omega
  · -- both orders choose the smaller median; equal medians have an even sum
    have hodd : (median first.rates + median second.rates) % 2 = 1 := by omega
    rw [if_neg heven, if_neg heven]
    simp only [hodd, true_or, iff_true]
    rcases Nat.lt_trichotomy (median first.rates) (median second.rates) with hlt | heq | hgt
    · rw [if_pos hlt, if_neg (not_lt.mpr hlt.le)]
    · omega
    · rw [if_neg (not_lt.mpr hgt.le), if_pos hgt]

end stablecoin

end Xrc
