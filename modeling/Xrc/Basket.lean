/-
The computed XDR rate against the definition of the basket. The weighted sum of the four
medians goes through saturating 128-bit arithmetic, a cast to 64 bits, an artificial set of
three rates and the outlier filter of the constructor; `computed_xdr_is_basket` says that the
median of what comes out is the weighted sum itself. The medians in it are rounded down, which
costs at most seven billionths of a dollar.
-/
import Xrc.ExactMedian
import Xrc.Collector
import Mathlib.Tactic.FieldSimp

set_option autoImplicit false

namespace Xrc

open Machine OrderStatistics QueriedExchangeRate

namespace OneDayRatesCollector

/-! ## The basket

The definition the code is compared with: the weights of `XDR` over the four medians, once with
every median rounded down and once with exact halves. `HoldsBasket` bounds the rates that are
collected, not the value that is computed from them. -/

/-- The weighted sum of the basket, from rates for its four currencies, rounded down. -/
def basket_value (eur cny jpy gbp : ℕ) : ℕ :=
  (582_520 * 10 ^ 9 + 386_710 * eur + 1_017_400 * cny + 11_900_000 * jpy + 85_946 * gbp) / 10 ^ 6

/-- The same, not rounded. -/
def exact_basket (eur cny jpy gbp : ℚ) : ℚ :=
  (582_520 * 10 ^ 9 + 386_710 * eur + 1_017_400 * cny + 11_900_000 * jpy + 85_946 * gbp) / 10 ^ 6

/-- The collector holds rates for all of the basket, and none is too large. The lists are never
empty when they are there at all, and the bound keeps the weighted sum of the four medians within
a word. -/
structure HoldsBasket (collector : OneDayRatesCollector) (eur cny jpy gbp : List ℕ) : Prop where
  eur_rates : collector.rates "EUR" = some eur
  cny_rates : collector.rates "CNY" = some cny
  jpy_rates : collector.rates "JPY" = some jpy
  gbp_rates : collector.rates "GBP" = some gbp
  nonempty : eur ≠ [] ∧ cny ≠ [] ∧ jpy ≠ [] ∧ gbp ≠ []
  le_max : ∀ rates ∈ [eur, cny, jpy, gbp], ∀ r ∈ rates, r ≤ RATE_UNIT * RATE_UNIT

/-- The basket over the exact medians, each rounded down. -/
def weighted_rate (eur cny jpy gbp : List ℕ) : ℕ :=
  basket_value ⌊exact_median eur⌋₊ ⌊exact_median cny⌋₊ ⌊exact_median jpy⌋₊ ⌊exact_median gbp⌋₊

/-! ## The medians

For rates in range nothing saturates and no cast loses a bit, so the sum is the basket value.
The code rounds each median down before it is weighted, which loses a half at most, and half of
the weights add up to less than seven. -/

/-- Rates that are not too large have an exact median, rounded down, that is not either. -/
theorem median_of_le_max {rates : List ℕ} (h : ∀ r ∈ rates, r ≤ RATE_UNIT * RATE_UNIT) :
    median rates = ⌊exact_median rates⌋₊ ∧ median rates ≤ MAX_RATE := by
  have hmax : RATE_UNIT * RATE_UNIT < 2 ^ 63 := by decide
  have hmedian := median_eq (not_medianOverflows fun v hv => lt_of_le_of_lt (h v hv) hmax)
  rw [floor_exact_median, hmedian]
  refine ⟨rfl, ?_⟩
  by_cases hne : rates = []
  · subst hne
    exact Nat.zero_le _
  · have hlower := h _ (isRanked_lower_median hne).mem
    have hupper := h _ (isRanked_upper_median hne).mem
    rw [show RATE_UNIT * RATE_UNIT = MAX_RATE from rfl] at hlower hupper
    omega

/-- **Nothing is lost on the way**: for medians in range the saturating sum and the cast are
the weighted sum itself. -/
theorem xdr_rate_eq {eur cny jpy gbp : ℕ} (heur : eur ≤ MAX_RATE) (hcny : cny ≤ MAX_RATE)
    (hjpy : jpy ≤ MAX_RATE) (hgbp : gbp ≤ MAX_RATE) :
    xdr_rate eur cny jpy gbp = basket_value eur cny jpy gbp := by
  have hmax : MAX_RATE = 1_000_000_000_000_000_000 := by decide
  rw [hmax] at heur hcny hjpy hgbp
  have hword : 100_000_000_000_000_000_000_000_000 + 100_000_000_000_000_000_000_000_000
      ≤ wordMax 128 := by decide
  have hmul : ∀ {weight rate : ℕ}, weight * rate ≤ 100_000_000_000_000_000_000_000_000 →
      saturating_mul 128 weight rate = weight * rate :=
    fun h => saturating_mul_eq (by omega)
  have hadd : ∀ {a b : ℕ}, a ≤ 100_000_000_000_000_000_000_000_000 →
      b ≤ 100_000_000_000_000_000_000_000_000 → saturating_add 128 a b = a + b :=
    fun ha hb => saturating_add_eq (by omega)
  -- every partial sum stays far below the largest word
  simp (disch := omega) only [xdr_rate, USD_XDR_WEIGHT_PER_MILLION, EUR_XDR_WEIGHT_PER_MILLION,
    CNY_XDR_WEIGHT_PER_MILLION, JPY_XDR_WEIGHT_PER_MILLION, GBP_XDR_WEIGHT_PER_MILLION, RATE_UNIT,
    hmul, hadd, basket_value]
  exact Nat.mod_eq_of_lt (by omega)

/-- The basket has a positive value: its dollars alone are worth more than half a dollar. -/
theorem basket_value_ge (eur cny jpy gbp : ℕ) : 582_520_000 ≤ basket_value eur cny jpy gbp := by
  unfold basket_value
  omega

theorem basket_value_mono {eur cny jpy gbp eur' cny' jpy' gbp' : ℕ} (heur : eur ≤ eur')
    (hcny : cny ≤ cny') (hjpy : jpy ≤ jpy') (hgbp : gbp ≤ gbp') :
    basket_value eur cny jpy gbp ≤ basket_value eur' cny' jpy' gbp' := by
  unfold basket_value
  omega

/-- Raising rates raises the weighted rate. -/
theorem weighted_rate_mono {eur cny jpy gbp eur' cny' jpy' gbp' : List ℕ}
    (heur : List.Forall₂ (· ≤ ·) eur eur') (hcny : List.Forall₂ (· ≤ ·) cny cny')
    (hjpy : List.Forall₂ (· ≤ ·) jpy jpy') (hgbp : List.Forall₂ (· ≤ ·) gbp gbp') :
    weighted_rate eur cny jpy gbp ≤ weighted_rate eur' cny' jpy' gbp' := by
  have hfloor : ∀ {l l' : List ℕ}, List.Forall₂ (· ≤ ·) l l' →
      ⌊exact_median l⌋₊ ≤ ⌊exact_median l'⌋₊ := by
    intro l l' h
    obtain ⟨hlower, hupper⟩ := middle_mono h
    rw [floor_exact_median, floor_exact_median]
    omega
  exact basket_value_mono (hfloor heur) (hfloor hcny) (hfloor hjpy) (hfloor hgbp)

/-- The exact basket as one quotient, over the sums of the middle rates. -/
theorem floor_exact_basket (eur cny jpy gbp : List ℕ) :
    ⌊exact_basket (exact_median eur) (exact_median cny) (exact_median jpy) (exact_median gbp)⌋₊
      = (2 * (582_520 * 10 ^ 9) + 386_710 * (lower_median eur + upper_median eur)
          + 1_017_400 * (lower_median cny + upper_median cny)
          + 11_900_000 * (lower_median jpy + upper_median jpy)
          + 85_946 * (lower_median gbp + upper_median gbp)) / (2 * 10 ^ 6) := by
  rw [← Nat.floor_div_eq_div (K := ℚ)]
  congr 1
  simp only [exact_basket, exact_median]
  push_cast
  field_simp
  ring

/-- Rounding the medians costs at most seven. -/
theorem weighted_rate_near (eur cny jpy gbp : List ℕ) :
    weighted_rate eur cny jpy gbp
        ≤ ⌊exact_basket (exact_median eur) (exact_median cny) (exact_median jpy) (exact_median gbp)⌋₊
      ∧ ⌊exact_basket (exact_median eur) (exact_median cny) (exact_median jpy)
          (exact_median gbp)⌋₊ ≤ weighted_rate eur cny jpy gbp + 7 := by
  rw [floor_exact_basket, weighted_rate, floor_exact_median, floor_exact_median, floor_exact_median,
    floor_exact_median, basket_value]
  omega

/-! ## The artificial set of rates

The constructor receives the weighted sum twice, and once more with the spread of the computed
uncertainty on top. The filter may drop the third rate or, above the largest rate, all of them;
in no case does it leave another median than the repeated value. -/

/-- The median of a value that is there twice and one that is not smaller. -/
theorem median_repeated {x y : ℕ} (h : x ≤ y) : median [x, x, y] = x := by
  have hsorted : [x, x, y].Pairwise (· ≤ ·) := by
    simp [h]
  rw [median_odd (by simp), sort_eq_self hsorted]
  simp

/-- **What the filter leaves of `[x, x, y]`**: all of it, the first two rates, or nothing. The
median of the three is `x`, so the repeated rate is its own measure: it is dropped only for being
too large, and then the larger one goes with it. -/
theorem new_repeated_rates (base_asset quote_asset : Asset) (timestamp : ℕ) {x y : ℕ} (hx : 0 < x)
    (h : x ≤ y) (queried received : ℕ) (forex_timestamp : Option ℕ) :
    (QueriedExchangeRate.new base_asset quote_asset timestamp [x, x, y] queried received
        forex_timestamp).rates
      = if MAX_RATE < x then []
        else if y ≤ MAX_RATE ∧ y - x ≤ x / MAX_RELATIVE_DIFFERENCE_DIVISOR then [x, x, y]
        else [x, x] := by
  have hself : retains x x = true ↔ x ≤ MAX_RATE := by
    rw [retains_iff, abs_diff_le_iff]
    simp only [MAX_RELATIVE_DIFFERENCE_DIVISOR]
    omega
  have hother : retains x y = true
      ↔ y ≤ MAX_RATE ∧ y - x ≤ x / MAX_RELATIVE_DIFFERENCE_DIVISOR := by
    rw [retains_iff, abs_diff_le_iff]
    simp only [MAX_RELATIVE_DIFFERENCE_DIVISOR]
    omega
  rw [new_rates, median_repeated h, List.filter_cons, List.filter_cons, List.filter_cons,
    List.filter_nil]
  by_cases hmax : MAX_RATE < x
  · -- the larger value is out of range as well
    have hnone : ¬ retains x x = true := by
      rw [hself]
      omega
    have hnone' : ¬ retains x y = true := by
      rw [hother]
      omega
    rw [if_neg hnone, if_neg hnone, if_neg hnone', if_pos hmax]
    rfl
  · rw [if_pos (hself.mpr (not_lt.mp hmax)), if_pos (hself.mpr (not_lt.mp hmax)), if_neg hmax]
    by_cases hkept : y ≤ MAX_RATE ∧ y - x ≤ x / MAX_RELATIVE_DIFFERENCE_DIVISOR
    · rw [if_pos (hother.mpr hkept), if_pos hkept]
      exact sort_eq_self (by simp [h])
    · rw [if_neg (mt hother.mp hkept), if_neg hkept]
      exact sort_eq_self (by simp)

/-- Whatever the filter leaves has the repeated value as its median. A third rate that is kept is
the largest, so the middle one is still the value that stands twice. -/
theorem median_new_repeated (base_asset quote_asset : Asset) (timestamp : ℕ) {x y : ℕ} (hx : 0 < x)
    (h : x ≤ y) (hmax : x ≤ MAX_RATE) (queried received : ℕ) (forex_timestamp : Option ℕ) :
    median (QueriedExchangeRate.new base_asset quote_asset timestamp [x, x, y] queried received
      forex_timestamp).rates = x := by
  rw [new_repeated_rates _ _ _ hx h, if_neg (not_lt.mpr hmax)]
  split
  · exact median_repeated h
  · -- the median of an even number of rates goes through their sum
    have hnot : ¬ MedianOverflows [x, x] := by
      apply not_medianOverflows
      intro v hv
      have hv' : v = x := by simpa using hv
      rw [hv']
      exact lt_of_le_of_lt hmax MAX_RATE_lt
    have hmiddle : lower_median [x, x] = x ∧ upper_median [x, x] = x := by
      rw [lower_median, upper_median_eq, sort_eq_self (by simp)]
      constructor
      · simp
      · simp
    rw [median_eq hnot]
    omega

/-- The third of the artificial rates. -/
def third_rate (eur cny jpy gbp : List ℕ) : ℕ :=
  saturating_add 64 (weighted_rate eur cny jpy gbp)
    (integer_sqrt (wrapping_mul 128 3 (xdr_variance eur cny jpy gbp)))

section Computed

variable {self : OneDayRatesCollector} {eur cny jpy gbp : List ℕ}

/-- The medians of a basket, and their weighted sum, which is a word. -/
theorem HoldsBasket.xdr_rate_medians (h : HoldsBasket self eur cny jpy gbp) :
    xdr_rate (median eur) (median cny) (median jpy) (median gbp) = weighted_rate eur cny jpy gbp
      ∧ weighted_rate eur cny jpy gbp < 2 ^ 64 := by
  obtain ⟨heur, heur_le⟩ := median_of_le_max (h.le_max eur (by simp))
  obtain ⟨hcny, hcny_le⟩ := median_of_le_max (h.le_max cny (by simp))
  obtain ⟨hjpy, hjpy_le⟩ := median_of_le_max (h.le_max jpy (by simp))
  obtain ⟨hgbp, hgbp_le⟩ := median_of_le_max (h.le_max gbp (by simp))
  have hvalue := xdr_rate_eq heur_le hcny_le hjpy_le hgbp_le
  rw [heur, hcny, hjpy, hgbp] at hvalue ⊢
  refine ⟨hvalue, ?_⟩
  rw [weighted_rate, ← hvalue]
  exact Nat.mod_lt _ (by decide)

/-- **The computed XDR rate** is built from its artificial set of rates. The set repeats the
weighted rate and adds it once more with the uncertainty on top, which is how the code makes a
deviation out of one number. -/
theorem HoldsBasket.computed (h : HoldsBasket self eur cny jpy gbp) :
    self.get_computed_xdr_rate = some (QueriedExchangeRate.new
      ⟨COMPUTED_XDR_SYMBOL, .FiatCurrency⟩ usd_asset self.timestamp
      [weighted_rate eur cny jpy gbp, weighted_rate eur cny jpy gbp, third_rate eur cny jpy gbp]
      FOREX_SOURCES.length (min (min (min eur.length cny.length) jpy.length) gbp.length)
      (some self.timestamp)) := by
  unfold get_computed_xdr_rate third_rate
  rw [h.eur_rates, h.cny_rates, h.jpy_rates, h.gbp_rates]
  dsimp only
  rw [h.xdr_rate_medians.1]

/-- The third rate is no smaller than the other two. -/
theorem HoldsBasket.le_third_rate (h : HoldsBasket self eur cny jpy gbp) :
    weighted_rate eur cny jpy gbp ≤ third_rate eur cny jpy gbp := by
  have hword := h.xdr_rate_medians.2
  rw [third_rate, saturating_add, wordMax]
  omega

theorem weighted_rate_pos (eur cny jpy gbp : List ℕ) : 0 < weighted_rate eur cny jpy gbp :=
  lt_of_lt_of_le (by decide) (basket_value_ge _ _ _ _)

/-- **The computed XDR rate is the basket.** Whenever a collector holds rates for all four
currencies, none above `RATE_UNIT * RATE_UNIT`, the rate is computed; its received count is the
smallest of the four counts, and its median the weighted sum over the exact medians, each rounded
down, unless that exceeds `RATE_UNIT * RATE_UNIT`, when there are no rates. Nothing is truncated,
the weighted sum is at most seven below the one over the medians themselves, and it never
decreases when collected rates increase.

The constructor gets the weighted sum twice and a third rate that is no smaller. The first two are
a majority of equal values, so the median is theirs whatever the filter makes of the third; the
other clauses are about the sum and its four medians. -/
theorem computed_xdr_is_basket (self : OneDayRatesCollector) (eur cny jpy gbp : List ℕ)
    (h : HoldsBasket self eur cny jpy gbp) :
    (∃ rate, self.get_computed_xdr_rate = some rate
        ∧ rate.base_asset_num_received_rates
            = min (min (min eur.length cny.length) jpy.length) gbp.length
        ∧ (weighted_rate eur cny jpy gbp ≤ RATE_UNIT * RATE_UNIT →
            median rate.rates = weighted_rate eur cny jpy gbp)
        ∧ (RATE_UNIT * RATE_UNIT < weighted_rate eur cny jpy gbp → rate.rates = []))
      ∧ xdr_rate (median eur) (median cny) (median jpy) (median gbp)
          = weighted_rate eur cny jpy gbp
      ∧ (weighted_rate eur cny jpy gbp ≤ ⌊exact_basket (exact_median eur) (exact_median cny)
            (exact_median jpy) (exact_median gbp)⌋₊
          ∧ ⌊exact_basket (exact_median eur) (exact_median cny) (exact_median jpy)
              (exact_median gbp)⌋₊ ≤ weighted_rate eur cny jpy gbp + 7)
      ∧ ∀ eur' cny' jpy' gbp', List.Forall₂ (· ≤ ·) eur eur' → List.Forall₂ (· ≤ ·) cny cny' →
          List.Forall₂ (· ≤ ·) jpy jpy' → List.Forall₂ (· ≤ ·) gbp gbp' →
            weighted_rate eur cny jpy gbp ≤ weighted_rate eur' cny' jpy' gbp' := by
  have hpos := weighted_rate_pos eur cny jpy gbp
  have hle := h.le_third_rate
  -- the first two rates are equal, so they decide the median of what the filter leaves
  refine ⟨⟨_, h.computed, rfl, ?_, ?_⟩, h.xdr_rate_medians.1, weighted_rate_near eur cny jpy gbp,
    fun _ _ _ _ => weighted_rate_mono⟩
  · exact fun hmax => median_new_repeated _ _ _ hpos hle hmax _ _ _
  · intro hmax
    rw [new_repeated_rates _ _ _ hpos hle]
    exact if_pos hmax

end Computed

/-- A collector with rates for the basket only. -/
def basketCollector (eur cny jpy gbp : List ℕ) : OneDayRatesCollector :=
  { rates := fun symbol =>
      if symbol = "EUR" then some eur
      else if symbol = "CNY" then some cny
      else if symbol = "JPY" then some jpy
      else if symbol = "GBP" then some gbp
      else none
    sources := ∅
    timestamp := 0 }

/-- Two sources that differ by a billionth of a dollar on the yen. -/
def yenCollector : OneDayRatesCollector :=
  basketCollector [1_100_000_000] [140_000_000] [6_800_000, 6_800_001] [1_270_000_000]

theorem holdsBasket_yenCollector : HoldsBasket yenCollector [1_100_000_000] [140_000_000]
    [6_800_000, 6_800_001] [1_270_000_000] :=
  ⟨rfl, rfl, rfl, rfl, by decide, by decide⟩

/-- They give a computed rate with the count of the others. -/
theorem computed_yen : ∃ rate, yenCollector.get_computed_xdr_rate = some rate
    ∧ rate.base_asset_num_received_rates = 1 := by
  obtain ⟨⟨rate, hrate, hcount, -⟩, -⟩ := computed_xdr_is_basket _ _ _ _ _ holdsBasket_yenCollector
  exact ⟨rate, hrate, hcount⟩

/-- Half a billionth more on the yen would raise the basket from 1.340408420 to 1.340408425. The
median of two yen rates is rounded down before it is weighted, so the computed rate has the lower
of these. -/
theorem rounded_median_in_basket :
    ¬ ∀ (self : OneDayRatesCollector) (eur cny jpy gbp : List ℕ),
      HoldsBasket self eur cny jpy gbp →
      ∀ rate, self.get_computed_xdr_rate = some rate →
        ⌊exact_basket (exact_median eur) (exact_median cny) (exact_median jpy)
            (exact_median gbp)⌋₊ ≤ RATE_UNIT * RATE_UNIT →
          median rate.rates = ⌊exact_basket (exact_median eur) (exact_median cny)
            (exact_median jpy) (exact_median gbp)⌋₊ := by
  intro h
  have hfloor : ⌊exact_basket (exact_median [1_100_000_000]) (exact_median [140_000_000])
      (exact_median [6_800_000, 6_800_001]) (exact_median [1_270_000_000])⌋₊ = 1_340_408_425 := by
    rw [floor_exact_basket]
    decide +kernel
  have hrate := h _ _ _ _ _ holdsBasket_yenCollector _ holdsBasket_yenCollector.computed
  rw [hfloor] at hrate
  exact absurd (hrate (by decide)) (by decide +kernel)

end OneDayRatesCollector

end Xrc
