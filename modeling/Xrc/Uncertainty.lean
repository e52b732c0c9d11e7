/-
The uncertainty of the computed XDR rate. Its variance is put into the artificial set
`[x, x, x + difference]`, which passes the outlier filter like any other: the set keeps its
third rate, and with it the deviation, only while the difference is at most a fifth of `x`.
-/
import Xrc.Basket
import Xrc.Deviation

set_option autoImplicit false

namespace Xrc

open Machine OrderStatistics QueriedExchangeRate

/-! ## The deviation of the artificial rates

Two of the three rates are equal, which gives the variance in closed form. Its root is the root
of a third of the squared difference up to one, because the mean and the quotient are both
rounded down. -/

/-- The deviation of equal rates is zero. -/
theorem standard_deviation_pair {x : ℕ} (h : x < 2 ^ 64) : standard_deviation [x, x] = 0 := by
  have hmean : truncate 128 [x, x].sum / [x, x].length = x := by
    simp only [truncate, List.sum_cons, List.sum_nil, List.length_cons, List.length_nil]
    omega
  have hself : squared_deviation x x = 0 := by
    simp [squared_deviation, abs_diff]
  rw [standard_deviation_of_mean (by simp) hmean]
  have hzero : truncate 128 ([x, x].map (squared_deviation x)).sum / ([x, x].length - 1) = 0 := by
    simp [hself, truncate]
  rw [hzero, integer_sqrt_eq (by decide), Nat.sqrt_zero]

/-- The square of a deviation of less than 62 bits does not saturate. -/
theorem squared_deviation_eq {mean rate a : ℕ} (hdiff : abs_diff rate mean = a)
    (hword : a * a < 2 ^ 124) : squared_deviation mean rate = a * a := by
  rw [squared_deviation, hdiff, pow_two]
  omega

/-- The variance of `[x, x, x + d]`, over the mean rounded down to `x + d / 3`. -/
def repeated_variance (d : ℕ) : ℕ := (2 * (d / 3 * (d / 3)) + (d - d / 3) * (d - d / 3)) / 2

/-- **The deviation of `[x, x, x + d]`** is the root of their variance. The differences to the
rounded mean are a third of `d` and the rest of it, so everything is known by division with
remainder; the bounds keep the squares from saturating. -/
theorem standard_deviation_repeated {x d : ℕ} (hx : x < 2 ^ 62) (hd : d < 2 ^ 62) :
    standard_deviation [x, x, x + d] = Nat.sqrt (repeated_variance d) := by
  have hsquare : ∀ {a : ℕ}, a ≤ d → a * a < 2 ^ 124 := fun h =>
    lt_of_lt_of_le (Nat.mul_lt_mul'' (lt_of_le_of_lt h hd) (lt_of_le_of_lt h hd)) (by decide)
  have hthird := hsquare (Nat.div_le_self d 3)
  have hrest := hsquare (Nat.sub_le d (d / 3))
  -- two thirds of the difference are below the third rate, and one third above the others
  have hmean : truncate 128 [x, x, x + d].sum / [x, x, x + d].length = x + d / 3 := by
    simp only [truncate, List.sum_cons, List.sum_nil, List.length_cons, List.length_nil]
    omega
  have hfirst : squared_deviation (x + d / 3) x = d / 3 * (d / 3) := by
    refine squared_deviation_eq ?_ hthird
    unfold abs_diff
    split <;> omega
  have hlast : squared_deviation (x + d / 3) (x + d) = (d - d / 3) * (d - d / 3) := by
    refine squared_deviation_eq ?_ hrest
    unfold abs_diff
    split <;> omega
  have hvariance : truncate 128 ([x, x, x + d].map (squared_deviation (x + d / 3))).sum
      / ([x, x, x + d].length - 1) = repeated_variance d := by
    simp only [List.map_cons, List.map_nil, List.sum_cons, List.sum_nil, List.length_cons,
      List.length_nil, hfirst, hlast, truncate, repeated_variance]
    omega
  rw [standard_deviation_of_mean (by simp) hmean, hvariance]
  apply integer_sqrt_eq
  rw [repeated_variance]
  omega

/-- **The encoding loses at most one**: the deviation of rates that differ by the root of three
times a variance is the root of the variance, up to one. -/
theorem sqrt_near_of_difference {V d : ℕ} (hle : d * d ≤ 3 * V)
    (hlt : 3 * V < (d + 1) * (d + 1)) :
    Nat.sqrt (repeated_variance d) ≤ Nat.sqrt V
      ∧ Nat.sqrt V ≤ Nat.sqrt (repeated_variance d) + 1 := by
  -- three times the variance of the rates is the squared difference, up to the rounded mean
  have hbounds : repeated_variance d ≤ V ∧ d * d + 2 ≤ 3 * (repeated_variance d + 1) := by
    obtain ⟨q, r, hr, rfl⟩ : ∃ q r, r < 3 ∧ d = 3 * q + r :=
      ⟨d / 3, d % 3, Nat.mod_lt _ (by decide), (Nat.div_add_mod d 3).symm⟩
    have hthird : (3 * q + r) / 3 = q := by
      omega
    have hrest : 3 * q + r - q = 2 * q + r := by
      omega
    have hexpand : (2 * q + r) * (2 * q + r) = 4 * (q * q) + 4 * (q * r) + r * r := by
      ring
    have hexpand' : (3 * q + r) * (3 * q + r) = 9 * (q * q) + 6 * (q * r) + r * r := by
      ring
    rw [repeated_variance, hthird, hrest, hexpand, hexpand']
    rw [hexpand'] at hle
    obtain rfl | rfl | rfl : r = 0 ∨ r = 1 ∨ r = 2 := by omega
    all_goals omega
  refine ⟨Nat.sqrt_le_sqrt hbounds.1, ?_⟩
  -- two more than the root would put the difference past three times the root
  by_contra hfar
  have hroot : repeated_variance d
      < (Nat.sqrt (repeated_variance d) + 1) * (Nat.sqrt (repeated_variance d) + 1) :=
    Nat.lt_succ_sqrt _
  have hV : (Nat.sqrt (repeated_variance d) + 2) * (Nat.sqrt (repeated_variance d) + 2) ≤ V := by
    apply Nat.le_sqrt.mp
    omega
  have hsmall : d * d + 2 ≤ 3 * ((Nat.sqrt (repeated_variance d) + 1)
      * (Nat.sqrt (repeated_variance d) + 1)) := by
    omega
  have hlarge : 3 * Nat.sqrt (repeated_variance d) + 5 ≤ d := by
    nlinarith
  nlinarith

/-! ## The computed rate

The difference is chosen as the root of three times the variance, so the deviation of all three
rates is the wanted one. It is only reported while the constructor keeps the third rate, and
`SpreadFits` is the outlier filter solved for the variance. -/

namespace OneDayRatesCollector

/-- The variance of the weighted sum over the deviations of its rates, as far as the word
holds it. -/
def weighted_variance (eur cny jpy gbp : List ℕ) : ℕ :=
  min ((386_710 * standard_deviation eur) ^ 2 + (1_017_400 * standard_deviation cny) ^ 2
    + (11_900_000 * standard_deviation jpy) ^ 2 + (85_946 * standard_deviation gbp) ^ 2)
    (wordMax 128) / 10 ^ 12

/-- Saturating at every step is saturating once. -/
theorem xdr_variance_eq (eur cny jpy gbp : List ℕ) :
    xdr_variance eur cny jpy gbp = weighted_variance eur cny jpy gbp := by
  -- a square of a saturated product is saturated as well
  have hpow : ∀ a b : ℕ, saturating_pow 128 (saturating_mul 128 a b) 2
      = min ((a * b) ^ 2) (wordMax 128) := by
    intro a b
    rw [saturating_pow, saturating_mul]
    by_cases h : a * b ≤ wordMax 128
    · rw [Nat.min_eq_left h]
    · have hle : wordMax 128 ≤ a * b := le_of_lt (not_le.mp h)
      have hsquare : wordMax 128 ≤ wordMax 128 ^ 2 := Nat.le_self_pow (by decide) _
      have hlarge : wordMax 128 ≤ (a * b) ^ 2 := le_trans hsquare (Nat.pow_le_pow_left hle 2)
      rw [Nat.min_eq_right hle, Nat.min_eq_right hsquare, Nat.min_eq_right hlarge]
  have hadd : ∀ a b : ℕ, saturating_add 128 (min a (wordMax 128)) (min b (wordMax 128))
      = min (a + b) (wordMax 128) := by
    intro a b
    rw [saturating_add]
    omega
  simp only [xdr_variance, weighted_variance, hpow, hadd, EUR_XDR_WEIGHT_PER_MILLION,
    CNY_XDR_WEIGHT_PER_MILLION, JPY_XDR_WEIGHT_PER_MILLION, GBP_XDR_WEIGHT_PER_MILLION,
    Nat.reducePow]

/-- The spread fits the filter: a third rate that carries the variance lies within a fifth
of the other two, and within the largest rate. -/
def SpreadFits (x variance : ℕ) : Prop :=
  3 * variance < (x / MAX_RELATIVE_DIFFERENCE_DIVISOR + 1) ^ 2
    ∧ 3 * variance < (RATE_UNIT * RATE_UNIT - x + 1) ^ 2

section Reported

variable {self : OneDayRatesCollector} {eur cny jpy gbp : List ℕ}

/-- The third rate differs from the others by the root of three times the variance. -/
theorem third_rate_eq (eur cny jpy gbp : List ℕ) :
    third_rate eur cny jpy gbp = saturating_add 64 (weighted_rate eur cny jpy gbp)
      (Nat.sqrt (3 * weighted_variance eur cny jpy gbp)) := by
  have hword : 3 * weighted_variance eur cny jpy gbp < 2 ^ 128 := by
    rw [weighted_variance, wordMax]
    omega
  rw [third_rate, xdr_variance_eq, wrapping_mul_eq hword, integer_sqrt_eq hword]

/-- The filter keeps the third rate exactly when the spread fits. -/
theorem spreadFits_iff {x y V : ℕ} (hmax : x ≤ MAX_RATE)
    (hy : y = saturating_add 64 x (Nat.sqrt (3 * V))) :
    SpreadFits x V ↔ y ≤ MAX_RATE ∧ y - x ≤ x / MAX_RELATIVE_DIFFERENCE_DIVISOR := by
  have hvalue : MAX_RATE = 1_000_000_000_000_000_000 := by decide
  have hunit : RATE_UNIT * RATE_UNIT = 1_000_000_000_000_000_000 := by decide
  rw [SpreadFits, pow_two, pow_two, ← Nat.sqrt_lt, ← Nat.sqrt_lt, hunit]
  rw [hvalue] at hmax ⊢
  rw [saturating_add, wordMax] at hy
  simp only [MAX_RELATIVE_DIFFERENCE_DIVISOR]
  omega

/-- **The reported deviation**: that of all three rates when the spread fits the filter, and
none at all otherwise. -/
theorem HoldsBasket.deviation (h : HoldsBasket self eur cny jpy gbp)
    (hmax : weighted_rate eur cny jpy gbp ≤ RATE_UNIT * RATE_UNIT) :
    ∃ rate, self.get_computed_xdr_rate = some rate
      ∧ (SpreadFits (weighted_rate eur cny jpy gbp) (weighted_variance eur cny jpy gbp) →
          standard_deviation rate.rates
            = Nat.sqrt (repeated_variance (Nat.sqrt (3 * weighted_variance eur cny jpy gbp))))
      ∧ (¬ SpreadFits (weighted_rate eur cny jpy gbp) (weighted_variance eur cny jpy gbp) →
          standard_deviation rate.rates = 0) := by
  have hword : weighted_rate eur cny jpy gbp < 2 ^ 62 := lt_of_le_of_lt hmax (by decide)
  have hthird := third_rate_eq eur cny jpy gbp
  have hkept := spreadFits_iff hmax hthird
  refine ⟨_, h.computed, ?_⟩
  rw [new_repeated_rates _ _ _ (weighted_rate_pos eur cny jpy gbp) h.le_third_rate,
    if_neg (show ¬ MAX_RATE < weighted_rate eur cny jpy gbp from not_lt.mpr hmax)]
  constructor
  · intro hfits
    obtain ⟨hy, hdiff⟩ := hkept.mp hfits
    -- a third rate that fits is far below the largest word, so its sum did not saturate
    have hsum : third_rate eur cny jpy gbp = weighted_rate eur cny jpy gbp
        + Nat.sqrt (3 * weighted_variance eur cny jpy gbp) := by
      have hlarge : MAX_RATE < wordMax 64 := by decide
      rw [saturating_add] at hthird
      omega
    rw [if_pos (hkept.mp hfits), hsum]
    apply standard_deviation_repeated hword
    rw [hsum, Nat.add_sub_cancel_left, MAX_RELATIVE_DIFFERENCE_DIVISOR] at hdiff
    omega
  · -- without the third rate the two others are equal
    intro hunfit
    rw [if_neg (mt hkept.mpr hunfit)]
    apply standard_deviation_pair
    omega

/-- A root differs from zero by at most one when the number is below four. -/
theorem sqrt_le_one_iff {V : ℕ} : Nat.sqrt V ≤ 1 ↔ V < 4 := by
  have h : Nat.sqrt V < 2 ↔ V < 2 * 2 := Nat.sqrt_lt
  omega

/-- **When the uncertainty is reported.** For every collector that holds rates for the basket with
a weighted rate in range, the deviation of the computed rates is the integer square root of the
computed variance, up to one, exactly when the spread fits the outlier filter or the variance is
below four.

The deviation is encoded in the distance of the third rate and read off the set by the formula of
the sample variance, each with one rounding. While the spread fits, both roundings together cost
at most one; if the third rate is dropped, the deviation is zero, which is near enough to the root
of a variance below four. -/
theorem uncertainty_reported_iff (self : OneDayRatesCollector) (eur cny jpy gbp : List ℕ)
    (h : HoldsBasket self eur cny jpy gbp)
    (hmax : weighted_rate eur cny jpy gbp ≤ RATE_UNIT * RATE_UNIT) :
    (∃ rate, self.get_computed_xdr_rate = some rate
        ∧ abs_diff (standard_deviation rate.rates) (Nat.sqrt (xdr_variance eur cny jpy gbp)) ≤ 1)
      ↔ SpreadFits (weighted_rate eur cny jpy gbp) (weighted_variance eur cny jpy gbp)
        ∨ weighted_variance eur cny jpy gbp < 4 := by
  obtain ⟨rate, hrate, hfit, hunfit⟩ := h.deviation hmax
  simp only [hrate, Option.some.injEq, exists_eq_left', xdr_variance_eq, abs_diff_le_iff]
  by_cases hfits : SpreadFits (weighted_rate eur cny jpy gbp) (weighted_variance eur cny jpy gbp)
  · obtain ⟨hlower, hupper⟩ := sqrt_near_of_difference
      (Nat.sqrt_le (3 * weighted_variance eur cny jpy gbp)) (Nat.lt_succ_sqrt _)
    rw [hfit hfits]
    refine ⟨fun _ => Or.inl hfits, fun _ => ?_⟩
    omega
  · rw [hunfit hfits, ← sqrt_le_one_iff, or_iff_right hfits]
    omega

end Reported

/-- The deviation of the two yen sources spreads the artificial rates by twenty billionths. -/
theorem uncertainty_of_yen : ∃ rate, yenCollector.get_computed_xdr_rate = some rate
    ∧ abs_diff (standard_deviation rate.rates) (Nat.sqrt (xdr_variance [1_100_000_000]
      [140_000_000] [6_800_000, 6_800_001] [1_270_000_000])) ≤ 1 := by
  have hrate : weighted_rate [1_100_000_000] [140_000_000] [6_800_000, 6_800_001] [1_270_000_000]
      = 1_340_408_420 := by
    rw [weighted_rate, floor_exact_median, floor_exact_median, floor_exact_median,
      floor_exact_median]
    decide
  -- a single rate has no deviation, so only that of the yen counts
  have hvariance : weighted_variance [1_100_000_000] [140_000_000] [6_800_000, 6_800_001]
      [1_270_000_000] = 141 := by
    have hyen : standard_deviation [6_800_000, 6_800_001] = 1 := by
      have hmean : truncate 128 [6_800_000, 6_800_001].sum / [6_800_000, 6_800_001].length
          = 6_800_000 := by
        decide
      rw [standard_deviation_of_mean (by decide) hmean, integer_sqrt_eq (by decide)]
      decide
    have hone : ∀ r : ℕ, standard_deviation [r] = 0 := fun _ => rfl
    rw [weighted_variance, hyen, hone, hone, hone]
    decide
  refine (uncertainty_reported_iff _ _ _ _ _ holdsBasket_yenCollector ?_).mpr (Or.inl ?_)
  · rw [hrate]
    decide
  · rw [hrate, hvariance]
    constructor <;> decide

/-- Three sources, one of which quotes twice what the others do for the euro. -/
def euroCollector : OneDayRatesCollector :=
  basketCollector [1_100_000_000, 1_100_000_000, 1_100_000_000 + 1_100_000_000] [140_000_000]
    [6_800_000] [1_270_000_000]

theorem holdsBasket_euroCollector : HoldsBasket euroCollector
    [1_100_000_000, 1_100_000_000, 1_100_000_000 + 1_100_000_000] [140_000_000] [6_800_000]
    [1_270_000_000] :=
  ⟨rfl, rfl, rfl, rfl, by decide, by decide⟩

/-- **An uncertainty that is not reported**: the deviation of the weighted rate is a quarter of
a dollar, and that of the computed rates zero. -/
theorem large_uncertainty_dropped :
    ¬ ∀ (self : OneDayRatesCollector) (eur cny jpy gbp : List ℕ),
      HoldsBasket self eur cny jpy gbp → 0 < weighted_rate eur cny jpy gbp →
      weighted_rate eur cny jpy gbp ≤ RATE_UNIT * RATE_UNIT →
        ∃ rate, self.get_computed_xdr_rate = some rate
          ∧ abs_diff (standard_deviation rate.rates)
              (Nat.sqrt (xdr_variance eur cny jpy gbp)) ≤ 1 := by
  have hrate : weighted_rate [1_100_000_000, 1_100_000_000, 1_100_000_000 + 1_100_000_000]
      [140_000_000] [6_800_000] [1_270_000_000] = 1_340_408_420 := by
    rw [weighted_rate, floor_exact_median, floor_exact_median, floor_exact_median,
      floor_exact_median]
    decide
  have hvariance : weighted_variance [1_100_000_000, 1_100_000_000, 1_100_000_000 + 1_100_000_000]
      [140_000_000] [6_800_000] [1_270_000_000] = 60_316_331_699_707_283 := by
    have heuro : standard_deviation [1_100_000_000, 1_100_000_000, 1_100_000_000 + 1_100_000_000]
        = 635_085_296 := by
      rw [standard_deviation_repeated (by decide) (by decide)]
      exact (Nat.eq_sqrt.mpr (by decide)).symm
    have hone : ∀ r : ℕ, standard_deviation [r] = 0 := fun _ => rfl
    rw [weighted_variance, heuro, hone, hone, hone]
    decide
  have hroot : Nat.sqrt 60_316_331_699_707_283 = 245_593_834 :=
    (Nat.eq_sqrt.mpr (by decide)).symm
  have hunit : RATE_UNIT * RATE_UNIT = 1_000_000_000_000_000_000 := by decide
  intro hall
  obtain ⟨rate, hrate', hnear⟩ := hall _ _ _ _ _ holdsBasket_euroCollector (weighted_rate_pos _ _ _ _)
    (by rw [hrate, hunit]; decide)
  obtain ⟨rate', hcomputed, -, hunfit⟩ := holdsBasket_euroCollector.deviation
    (by rw [hrate, hunit]; decide)
  obtain rfl : rate = rate' := Option.some.inj (hrate'.symm.trans hcomputed)
  rw [hunfit ?_, xdr_variance_eq, hvariance, hroot] at hnear
  · exact absurd hnear (by decide)
  · rw [hrate, hvariance, SpreadFits, MAX_RELATIVE_DIFFERENCE_DIVISOR]
    decide

end OneDayRatesCollector

end Xrc
