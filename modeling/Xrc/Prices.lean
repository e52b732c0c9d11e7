/-
Prices in fixed point, in closed form: what multiplying and inverting rates does to the
numbers themselves, for any rates and any number of decimals.

`mul_is_exact` explains a product by some exponent, and `inverted_rates_spec` an inverse by
some number of decimals, both on rates in range. Here the exponents are given outright, as
logarithms of the upper median, so that the outcome of a whole composition is arithmetic on
the rates it starts from. The range is not assumed: a rate that no composed rate has, and
that only a cache or a store made up by hand could hold, is dropped, cast or saturated by the
source, and the closed form says so.

Two sets of prices without rates are the same whatever their decimals are, since the source
leaves the decimals wherever its loops happened to stop when it gives up on the rates. The
relation `Same` is equality up to that, and both operations respect it.
-/
import Xrc.Products

set_option autoImplicit false

namespace Xrc

open Machine OrderStatistics QueriedExchangeRate

/-- The numbers `r / 10 ^ decimals`. They are what the operands of a composition come to when none
of its arithmetic is cut off, and so what a statement about an answer can be made on without
mentioning the code. -/
structure Prices where
  rates : List ℕ
  decimals : ℕ
  deriving DecidableEq, Repr

/-- The prices a rate stands for. -/
def QueriedExchangeRate.prices (self : QueriedExchangeRate) : Prices :=
  ⟨self.rates, self.decimals_or_default⟩

namespace Prices

/-! ## The operations

Both rescale by a power of ten that depends on the upper median alone, and give up on all
rates when they would need more than `2 * DECIMALS` decimals. -/

/-- The power of ten whose quotients are the reciprocals: twice the number of decimals, or as
many as the upper median has digits. -/
def reciprocal_exponent (p : Prices) : ℕ :=
  max (2 * p.decimals) (Nat.clog 10 (upper_median p.rates))

/-- The reciprocals of the positive prices, cast to 64 bits. -/
def inverse (p : Prices) : Prices :=
  let decimals := p.reciprocal_exponent - p.decimals
  { rates :=
      if decimals ≤ 2 * DECIMALS then
        sort ((p.rates.filter (0 < ·)).map fun r => 10 ^ p.reciprocal_exponent / r % 2 ^ 64)
      else []
    decimals := decimals }

/-- The products of all pairs, in 128 bits. -/
def products (p q : Prices) : List ℕ :=
  (p.rates ×ˢ q.rates).map fun pair => min (pair.1 * pair.2) (2 ^ 128 - 1)

/-- How many of the decimals of both factors are divided away: as many as the smaller factor
has, or as many as the median product can lose without becoming zero. -/
def dropped_decimals (p q : Prices) : ℕ :=
  min (min p.decimals q.decimals) (Nat.log 10 (upper_median (p.products q)))

/-- How many more are divided away to bring the median product down to `MAX_RATE`. -/
def reduced_decimals (p q : Prices) : ℕ :=
  min (p.decimals + q.decimals - p.dropped_decimals q) (Nat.clog 10
    (upper_median (p.products q) / 10 ^ p.dropped_decimals q / (MAX_RATE + 1) + 1))

/-- The products at a common scale, without those that are out of range there. They are kept
when at least half of them are in range. -/
def times (p q : Prices) : Prices :=
  let exponent := p.dropped_decimals q + p.reduced_decimals q
  let kept := ((p.products q).map (· / 10 ^ exponent)).filter
    fun rate => decide (rate ≤ MAX_RATE) && decide (0 < rate)
  { rates :=
      if upper_median (p.products q) ≠ 0
          ∧ p.decimals + q.decimals - p.dropped_decimals q ≤ 2 * DECIMALS
          ∧ ((p.products q).length + 1) / 2 ≤ kept.length then
        sort kept
      else []
    decimals := p.decimals + q.decimals - exponent }

/-! ## Equality up to the decimals of nothing

A list without rates has decimals, too, and the operations leave different ones on it depending
on where they gave up. No answer is made of such a list, so the laws hold up to these decimals. -/

/-- The same rates, and, if there are any, the same decimals. An empty list of rates has no
decimals to speak of, since no price is scaled by them. -/
structure Same (p q : Prices) : Prop where
  rates : p.rates = q.rates
  decimals : p.rates ≠ [] → p.decimals = q.decimals

theorem Same.refl (p : Prices) : Same p p := ⟨rfl, fun _ => rfl⟩

theorem Same.trans {p q r : Prices} (h₁ : Same p q) (h₂ : Same q r) : Same p r where
  rates := h₁.rates.trans h₂.rates
  decimals hne := (h₁.decimals hne).trans (h₂.decimals (h₁.rates ▸ hne))

theorem Same.eq {p q : Prices} (h : Same p q) (hne : p.rates ≠ []) : p = q := by
  cases p
  cases q
  exact Prices.mk.injEq _ _ _ _ ▸ ⟨h.rates, h.decimals hne⟩

/-- Without rates there are no products. -/
theorem rates_times_of_nil {p q : Prices} (h : p.rates = [] ∨ q.rates = []) :
    (p.times q).rates = [] := by
  have hproducts : p.products q = [] := by
    unfold products
    rcases h with h | h
    · rw [h]
      rfl
    · rw [h, List.product_nil]
      rfl
  have hmedian : upper_median (p.products q) = 0 := by
    rw [hproducts]
    rfl
  unfold times
  dsimp only
  rw [if_neg]
  rintro ⟨hne, -⟩
  exact hne hmedian

/-- Products of the same prices are the same. -/
theorem Same.times {p p' q q' : Prices} (hp : Same p p') (hq : Same q q') :
    Same (p.times q) (p'.times q') := by
  by_cases hempty : p.rates = [] ∨ q.rates = []
  · have hempty' : p'.rates = [] ∨ q'.rates = [] := by
      rw [← hp.rates, ← hq.rates]
      exact hempty
    have hleft := rates_times_of_nil hempty
    exact ⟨hleft.trans (rates_times_of_nil hempty').symm, fun hne => absurd hleft hne⟩
  · rw [not_or] at hempty
    rw [hp.eq hempty.1, hq.eq hempty.2]
    exact ⟨rfl, fun _ => rfl⟩

end Prices

/-! ## Inversion in closed form

The loop stops at the first exponent whose power of ten is no less than the upper median, which
is a logarithm. A rate that is too large for the scaling saturates, but then its quotient is
zero either way, so that the closed form needs no case for it. -/

namespace QueriedExchangeRate

/-- The loop of `inverted`, from any of its states: it adds the decimals that the median
needs, but gives up past `2 * DECIMALS` of them. -/
theorem invert_scale_eq (median_rate d : ℕ) :
    ∀ n j, n + (d + j) = 2 * DECIMALS + 1 →
      invert_scale median_rate (10 ^ (2 * d)) (10 ^ j) (d + j)
        = (10 ^ max j (min (2 * DECIMALS + 1 - d) (Nat.clog 10 median_rate - 2 * d)),
            d + max j (min (2 * DECIMALS + 1 - d) (Nat.clog 10 median_rate - 2 * d))) := by
  intro n
  induction n with
  | zero =>
      intro j hj
      have hlast : max j (min (2 * DECIMALS + 1 - d) (Nat.clog 10 median_rate - 2 * d)) = j := by
        omega
      rw [hlast, invert_scale, if_neg]
      rintro ⟨-, hle⟩
      omega
  | succ n ih =>
      intro j hj
      have hwrap : wrapping_mul 128 (10 ^ (2 * d)) (10 ^ j) = 10 ^ (2 * d + j) := by
        rw [wrapping_mul, ← pow_add, Nat.mod_eq_of_lt (pow10_lt_word (by omega))]
      have hround : 10 ^ (2 * d + j) < median_rate ↔ 2 * d + j < Nat.clog 10 median_rate :=
        (Nat.lt_clog_iff_pow_lt (by decide)).symm
      by_cases hlt : 10 ^ (2 * d + j) < median_rate
      · -- one more round
        have hneeded := hround.mp hlt
        have hfactor : saturating_mul 128 (10 ^ j) 10 = 10 ^ (j + 1) := by
          rw [pow_succ]
          apply saturating_mul_eq
          rw [← pow_succ, wordMax]
          have hpow := pow10_lt_word (e := j + 1) (by
            simp only [DECIMALS] at hj ⊢
            omega)
          omega
        have hdec : saturating_add 32 (d + j) 1 = d + (j + 1) := by
          apply saturating_add_eq
          simp only [DECIMALS, wordMax] at *
          omega
        have hmax : max (j + 1) (min (2 * DECIMALS + 1 - d) (Nat.clog 10 median_rate - 2 * d))
            = max j (min (2 * DECIMALS + 1 - d) (Nat.clog 10 median_rate - 2 * d)) := by
          omega
        rw [invert_scale, if_pos ⟨by rw [hwrap]; exact hlt, by omega⟩, hfactor, hdec,
          ih (j + 1) (by omega), hmax]
      · -- the loop stops here
        have henough := hround.not.mp hlt
        have hlast : max j (min (2 * DECIMALS + 1 - d) (Nat.clog 10 median_rate - 2 * d)) = j := by
          omega
        rw [hlast, invert_scale, if_neg]
        rintro ⟨hlt', -⟩
        rw [hwrap] at hlt'
        exact hlt hlt'

/-- One rate of the inverse, however large: where the scaled rate saturates, both quotients
are zero. -/
theorem checked_invert_scaled_eq {rate d k : ℕ} (hdk : d + k ≤ 2 * DECIMALS) :
    checked_invert_rate (saturating_mul 128 rate (10 ^ k)) (d + k)
      = if rate = 0 then none else some (10 ^ (2 * d + k) / rate % 2 ^ 64) := by
  have hpos : 0 < 10 ^ k := Nat.pow_pos (by decide)
  -- the inverse of zero is dropped
  by_cases hzero : rate = 0
  · subst hzero
    rw [if_pos rfl, saturating_mul, Nat.zero_mul, Nat.zero_min]
    rfl
  have hscaled : 0 < rate * 10 ^ k := Nat.mul_pos (Nat.pos_of_ne_zero hzero) hpos
  have hsplit : 10 ^ (2 * (d + k)) = 10 ^ (2 * d + k) * 10 ^ k := by
    rw [← pow_add]
    congr 1
    omega
  have hword : 10 ^ (2 * (d + k)) < 2 ^ 128 - 1 :=
    lt_of_le_of_lt (Nat.pow_le_pow_right (by decide) (by omega : 2 * (d + k) ≤ 4 * DECIMALS))
      (by decide)
  have hquotient : 10 ^ (2 * (d + k)) / saturating_mul 128 rate (10 ^ k)
      = 10 ^ (2 * d + k) / rate := by
    rw [← Nat.mul_div_mul_right (10 ^ (2 * d + k)) rate hpos, ← hsplit, saturating_mul, wordMax]
    -- if the scaled rate saturates, both quotients are zero
    rcases Nat.le_total (rate * 10 ^ k) (2 ^ 128 - 1) with hle | hge
    · rw [Nat.min_eq_left hle]
    · rw [Nat.min_eq_right hge, Nat.div_eq_of_lt hword,
        Nat.div_eq_of_lt (lt_of_lt_of_le hword hge)]
  have hne : ¬ saturating_mul 128 rate (10 ^ k) = 0 := by
    rw [saturating_mul, wordMax]
    omega
  simp only [checked_invert_rate, if_neg hne, if_neg hzero, pow_max_value hdk, hquotient, truncate]

/-- **What `inverted` does to prices**, whatever they are. For a number of decimals the code
allows, the loop ends at the logarithm of the median, and the rates are the quotients there.
Beyond that the loop does not run, and both sides have no rates. -/
theorem prices_inverted (self : QueriedExchangeRate) :
    self.inverted.prices.Same self.prices.inverse := by
  set d := self.decimals_or_default with hd
  set needed := Nat.clog 10 (upper_median self.rates) - 2 * d with hneeded
  have hexponent : self.prices.reciprocal_exponent = 2 * d + needed := by
    show max (2 * d) (Nat.clog 10 (upper_median self.rates)) = _
    omega
  have hmedian : (sort self.rates).getD ((sort self.rates).length / 2) 0 = upper_median self.rates :=
    rfl
  have hinverse : self.prices.inverse
      = ⟨if d + needed ≤ 2 * DECIMALS then
          sort ((self.rates.filter (0 < ·)).map fun r => 10 ^ (2 * d + needed) / r % 2 ^ 64)
        else [], d + needed⟩ := by
    have hdecimals : 2 * d + needed - d = d + needed := by omega
    unfold Prices.inverse
    rw [hexponent]
    show Prices.mk (if 2 * d + needed - d ≤ 2 * DECIMALS then _ else []) (2 * d + needed - d) = _
    rw [hdecimals]
    rfl
  have hinverted : self.inverted.prices
      = ⟨(inverted_rates self.rates d).1, (inverted_rates self.rates d).2⟩ := rfl
  by_cases hfew : d ≤ 2 * DECIMALS
  · -- the loop runs at most to the first number of decimals that is too large
    have hloop : invert_scale (upper_median self.rates) (10 ^ (2 * d)) 1 d
        = (10 ^ min (2 * DECIMALS + 1 - d) needed, d + min (2 * DECIMALS + 1 - d) needed) := by
      have h := invert_scale_eq (upper_median self.rates) d (2 * DECIMALS + 1 - d) 0 (by omega)
      rw [pow_zero, Nat.add_zero, Nat.zero_max] at h
      exact h
    by_cases hkept : d + needed ≤ 2 * DECIMALS
    · have hmin : min (2 * DECIMALS + 1 - d) needed = needed := by omega
      have hrates : inverted_rates self.rates d
          = (sort ((self.rates.filter (0 < ·)).map fun r => 10 ^ (2 * d + needed) / r % 2 ^ 64),
            d + needed) := by
        unfold inverted_rates
        dsimp only
        rw [hmedian, pow_max_value hfew, hloop, hmin]
        simp only [if_pos hkept, List.filterMap_map, Function.comp_def,
          checked_invert_scaled_eq hkept, Prod.mk.injEq, and_true]
        have hmap : ∀ rates : List ℕ, rates.filterMap (fun r =>
              if r = 0 then none else some (10 ^ (2 * d + needed) / r % 2 ^ 64))
            = (rates.filter (0 < ·)).map fun r => 10 ^ (2 * d + needed) / r % 2 ^ 64 := by
          intro rates
          rw [← List.filterMap_eq_map, List.filterMap_filter]
          apply List.filterMap_congr
          intro r _
          by_cases hr : r = 0
          · subst hr
            rfl
          · rw [if_neg hr, if_pos (decide_eq_true (Nat.pos_of_ne_zero hr))]
            rfl
        rw [hmap]
        exact sort_congr (((sort_perm self.rates).filter _).map _)
      rw [hinverted, hinverse, hrates, if_pos hkept]
      exact ⟨rfl, fun _ => rfl⟩
    · -- too many decimals: no rate is left
      have hgiven : ¬ d + min (2 * DECIMALS + 1 - d) needed ≤ 2 * DECIMALS := by omega
      have hrates : (inverted_rates self.rates d).1 = [] := by
        unfold inverted_rates
        dsimp only
        rw [hmedian, pow_max_value hfew, hloop, if_neg hgiven]
        rfl
      rw [hinverted, hinverse, hrates, if_neg hkept]
      exact ⟨rfl, fun hne => absurd rfl hne⟩
  · -- more decimals than that to begin with
    have hrates : (inverted_rates self.rates d).1 = [] := by
      unfold inverted_rates
      dsimp only
      rw [invert_scale, if_neg (fun h => hfew h.2), if_neg hfew]
      rfl
    have hkept : ¬ d + needed ≤ 2 * DECIMALS := by omega
    rw [hinverted, hinverse, hrates, if_neg hkept]
    exact ⟨rfl, fun hne => absurd rfl hne⟩

/-! ## Multiplication in closed form

The first loop divides by the largest power of ten not above the median, or by the whole scale
of the smaller factor, whichever is less; the second by the least power that brings the median
down. Both are logarithms of the median. What the closed form must not assume is that the rates
are in range, since the other factor may come from an inversion. -/

/-- The first loop ends at the scale of the median, however that came about. -/
theorem unbounded_raise_decimals_eq {median_rate : ℕ} (hpos : median_rate ≠ 0) :
    ∀ m decimals, unbounded_raise_decimals median_rate (10 ^ m) decimals
      = (10 ^ min m (Nat.log 10 median_rate), decimals + (m - min m (Nat.log 10 median_rate))) := by
  intro m
  induction m with
  | zero =>
      intro decimals
      rw [unbounded_raise_decimals, if_neg (by omega), Nat.zero_min]
      rfl
  | succ m ih =>
      intro decimals
      have hstep : 10 ^ (m + 1) / 10 = 10 ^ m := by
        rw [pow_succ, Nat.mul_div_cancel _ (by decide)]
      rw [unbounded_raise_decimals, hstep]
      by_cases hlt : median_rate < 10 ^ (m + 1)
      · -- the median has fewer digits than the denominator
        have hlog : Nat.log 10 median_rate < m + 1 := Nat.log_lt_of_lt_pow hpos hlt
        rw [if_pos hlt, ih (decimals + 1), Nat.min_eq_right (by omega : _ ≤ m + 1),
          Nat.min_eq_right (by omega : _ ≤ m)]
        exact Prod.ext rfl (by dsimp only; omega)
      · have hlog : m + 1 ≤ Nat.log 10 median_rate := Nat.le_log_of_pow_le (by decide) (not_lt.mp hlt)
        rw [if_neg hlt, Nat.min_eq_left hlog, Nat.sub_self]
        rfl

/-- The second loop removes the least number of digits that brings the median down, as far
as there are decimals. -/
theorem unbounded_reduce_decimals_eq (median_rate max_value : ℕ) :
    ∀ decimals i, unbounded_reduce_decimals median_rate max_value (10 ^ i) decimals
      = (10 ^ (i + min decimals (Nat.clog 10 (median_rate / 10 ^ i / (max_value + 1) + 1))),
          decimals - min decimals (Nat.clog 10 (median_rate / 10 ^ i / (max_value + 1) + 1))) := by
  intro decimals
  induction decimals with
  | zero =>
      intro i
      rw [unbounded_reduce_decimals, Nat.zero_min]
      rfl
  | succ decimals ih =>
      intro i
      set x := median_rate / 10 ^ i / (max_value + 1) with hx
      rw [unbounded_reduce_decimals]
      by_cases hlt : max_value < median_rate / 10 ^ i
      · -- one digit less, of the median and of what it has too many of
        have hpos : 1 ≤ x := (Nat.one_le_div_iff (Nat.succ_pos _)).mpr hlt
        have hdigit : median_rate / 10 ^ (i + 1) / (max_value + 1) = x / 10 := by
          rw [hx, pow_succ, ← Nat.div_div_eq_div_mul, Nat.div_right_comm]
        have hclog : Nat.clog 10 (x + 1) = Nat.clog 10 (x / 10 + 1) + 1 := by
          rw [Nat.clog_of_two_le (by decide) (by omega)]
          congr 2
          omega
        rw [if_pos hlt, ← pow_succ, ih (i + 1), hdigit, hclog]
        exact Prod.ext (congrArg (10 ^ ·) (by omega)) (by dsimp only; omega)
      · have hzero : x = 0 := Nat.div_eq_of_lt (by omega)
        rw [if_neg hlt, hzero]
        rfl

/-- The first loop never lowers the decimals, except that it saturates. -/
theorem le_raise_decimals (median_rate denominator decimals : ℕ) :
    min decimals (wordMax 32) ≤ (raise_decimals median_rate denominator decimals).2 := by
  fun_induction raise_decimals median_rate denominator decimals with
  | case1 denominator decimals hlt ih =>
      refine le_trans ?_ ih
      rw [saturating_add]
      omega
  | case2 denominator decimals hge => exact Nat.min_le_left _ _

/-- The products of the source are those of the prices, ascending. -/
theorem all_products_prices (self other_rate : QueriedExchangeRate) :
    all_products self.rates other_rate.rates
      = sort (self.prices.products other_rate.prices) := by
  unfold all_products Prices.products
  congr 1
  show _ = (self.rates.flatMap fun x => other_rate.rates.map (Prod.mk x)).map _
  rw [List.map_flatMap]
  apply List.flatMap_congr
  intro x _
  rw [List.map_map]
  rfl

section Mul

variable {self other_rate : QueriedExchangeRate}

/-- With more than `2 * DECIMALS` decimals on one side a product is empty. -/
theorem rates_mul_of_decimals
    (hmany : 2 * DECIMALS < max self.decimals_or_default other_rate.decimals_or_default) :
    (self * other_rate).rates = [] := by
  have hword : wordMax 32 = 4294967295 := by decide
  have hcleared : ∀ median_rate denominator,
      ¬ (0 < (raise_decimals median_rate denominator
          (max self.decimals_or_default other_rate.decimals_or_default)).1
        ∧ (raise_decimals median_rate denominator
          (max self.decimals_or_default other_rate.decimals_or_default)).2 ≤ 2 * DECIMALS) := by
    rintro median_rate denominator ⟨-, hle⟩
    have hraised := le_raise_decimals median_rate denominator
      (max self.decimals_or_default other_rate.decimals_or_default)
    simp only [DECIMALS] at hmany hle
    omega
  show (mul_rates _ _ _ _).1 = []
  unfold mul_rates
  simp only [if_neg (hcleared _ _), List.map_nil, List.filter_nil, ite_self]

/-- With a median product of zero a product is empty, too. -/
theorem rates_mul_of_median_zero (hfew : max self.decimals_or_default
      other_rate.decimals_or_default ≤ 2 * DECIMALS)
    (hmedian : upper_median (self.prices.products other_rate.prices) = 0) :
    (self * other_rate).rates = [] := by
  have hword : wordMax 32 = 4294967295 := by decide
  simp only [DECIMALS] at hfew
  have hupper : (all_products self.rates other_rate.rates).getD
      ((all_products self.rates other_rate.rates).length / 2) 0 = 0 := by
    rw [all_products_prices]
    exact hmedian
  have hpow : wrapping_pow 128 10 (min self.decimals_or_default other_rate.decimals_or_default)
      = 10 ^ min self.decimals_or_default other_rate.decimals_or_default :=
    wrapping_pow_eq (pow10_lt_word (by simp only [DECIMALS]; omega))
  -- a denominator of zero is not divided by
  have hdenominator : (raise_decimals 0
      (wrapping_pow 128 10 (min self.decimals_or_default other_rate.decimals_or_default))
      (max self.decimals_or_default other_rate.decimals_or_default)).1 = 0 := by
    rw [hpow, raise_decimals_eq _ _ _ (by omega)]
    rcases unbounded_raise_decimals_spec 0
      (min self.decimals_or_default other_rate.decimals_or_default)
      (max self.decimals_or_default other_rate.decimals_or_default) with ⟨-, hloop⟩ | ⟨j, -, hle, -⟩
    · rw [hloop]
    · exact absurd (Nat.pow_pos (by decide)) (not_lt.mpr hle)
  show (mul_rates _ _ _ _).1 = []
  unfold mul_rates
  simp only [hupper, hdenominator, Nat.lt_irrefl, false_and, if_false, List.map_nil,
    List.filter_nil, ite_self]

/-- The two loops of a product, and what is left of its rates. -/
theorem mul_rates_of_median (hfew : max self.decimals_or_default other_rate.decimals_or_default
      ≤ 2 * DECIMALS)
    (hmedian : upper_median (self.prices.products other_rate.prices) ≠ 0) :
    mul_rates self.rates other_rate.rates self.decimals_or_default other_rate.decimals_or_default
      = ((self.prices.times other_rate.prices).rates,
          (self.prices.times other_rate.prices).decimals) := by
  set d₁ := self.decimals_or_default
  set d₂ := other_rate.decimals_or_default
  set P := self.prices.products other_rate.prices
  set e := self.prices.dropped_decimals other_rate.prices with he
  set n := self.prices.reduced_decimals other_rate.prices with hn
  have hdropped : e = min (min d₁ d₂) (Nat.log 10 (upper_median P)) := rfl
  have hreduced : n = min (d₁ + d₂ - e)
      (Nat.clog 10 (upper_median P / 10 ^ e / (MAX_RATE + 1) + 1)) := rfl
  have htimes : self.prices.times other_rate.prices
      = ⟨if upper_median P ≠ 0 ∧ d₁ + d₂ - e ≤ 2 * DECIMALS ∧ (P.length + 1) / 2
            ≤ ((P.map (· / 10 ^ (e + n))).filter
              fun rate => decide (rate ≤ MAX_RATE) && decide (0 < rate)).length then
          sort ((P.map (· / 10 ^ (e + n))).filter
            fun rate => decide (rate ≤ MAX_RATE) && decide (0 < rate))
        else [], d₁ + d₂ - (e + n)⟩ := rfl
  -- the first loop ends at `10 ^ e`, the second one takes another `10 ^ n`
  simp only [DECIMALS] at hfew
  have hword : wordMax 32 = 4294967295 := by decide
  have hpow : wrapping_pow 128 10 (min d₁ d₂) = 10 ^ min d₁ d₂ :=
    wrapping_pow_eq (pow10_lt_word (by simp only [DECIMALS]; omega))
  have hraise : raise_decimals (upper_median P) (wrapping_pow 128 10 (min d₁ d₂)) (max d₁ d₂)
      = (10 ^ e, d₁ + d₂ - e) := by
    rw [hpow, raise_decimals_eq _ _ _ (by omega), unbounded_raise_decimals_eq hmedian, ← hdropped]
    exact Prod.ext rfl (by dsimp only; omega)
  have hreduce : reduce_decimals (upper_median P / 10 ^ e) MAX_RATE 1 (d₁ + d₂ - e)
      = (10 ^ n, d₁ + d₂ - (e + n)) := by
    have h := reduce_decimals_eq (upper_median P / 10 ^ e) MAX_RATE (d₁ + d₂ - e) 0 (by omega)
    rw [unbounded_reduce_decimals_eq, pow_zero, Nat.div_one, Nat.zero_add, ← hreduced] at h
    rw [h, Nat.sub_sub]
  have hpos : 0 < 10 ^ e := Nat.pow_pos (by decide)
  have hall : all_products self.rates other_rate.rates = sort P := all_products_prices self other_rate
  have hupper : (sort P).getD ((sort P).length / 2) 0 = upper_median P := rfl
  rw [htimes]
  unfold mul_rates
  simp only [hall, hupper, hraise, hreduce]
  refine Prod.ext ?_ rfl
  dsimp only
  by_cases hkept : d₁ + d₂ - e ≤ 2 * DECIMALS
  · have hdivided : 0 < 10 ^ e ∧ d₁ + d₂ - e ≤ 2 * DECIMALS := ⟨hpos, hkept⟩
    simp only [if_pos hdivided, filter_divided_sort, length_sort]
    by_cases hhalf : (P.length + 1) / 2 ≤ ((P.map (· / 10 ^ (e + n))).filter
        fun rate => decide (rate ≤ MAX_RATE) && decide (0 < rate)).length
    · rw [if_neg (not_lt.mpr hhalf), if_pos ⟨hmedian, hkept, hhalf⟩]
    · rw [if_pos (not_le.mp hhalf), if_neg (fun h => hhalf h.2.2)]
  · have hcleared : ¬ (0 < 10 ^ e ∧ d₁ + d₂ - e ≤ 2 * DECIMALS) := fun h => hkept h.2
    simp only [if_neg hcleared, List.map_nil, List.filter_nil, ite_self]
    rw [if_neg (fun h => hkept h.2.1)]

end Mul

/-- **What multiplication does to prices**, whatever they are. The code gives up for too many
decimals or a median product of zero, which are the first two cases, and the closed form has no
rates there either. Otherwise both loops end at the logarithms of the closed form. -/
theorem prices_mul (self other_rate : QueriedExchangeRate) :
    (self * other_rate).prices.Same (self.prices.times other_rate.prices) := by
  by_cases hmany : 2 * DECIMALS < max self.decimals_or_default other_rate.decimals_or_default
  · -- both sides are empty
    have hempty : (self.prices.times other_rate.prices).rates = [] := by
      unfold Prices.times
      dsimp only
      rw [if_neg]
      rintro ⟨-, hle, -⟩
      have hdropped : self.prices.dropped_decimals other_rate.prices
          ≤ min self.decimals_or_default other_rate.decimals_or_default := Nat.min_le_left _ _
      have hle' : self.decimals_or_default + other_rate.decimals_or_default
        - self.prices.dropped_decimals other_rate.prices ≤ 2 * DECIMALS := hle
      omega
    have hleft := rates_mul_of_decimals hmany
    exact ⟨hleft.trans hempty.symm, fun hne => absurd hleft hne⟩
  by_cases hmedian : upper_median (self.prices.products other_rate.prices) = 0
  · -- the first loop runs off the end
    have hempty : (self.prices.times other_rate.prices).rates = [] := by
      unfold Prices.times
      dsimp only
      rw [if_neg]
      rintro ⟨hne, -⟩
      exact hne hmedian
    have hleft := rates_mul_of_median_zero (not_lt.mp hmany) hmedian
    exact ⟨hleft.trans hempty.symm, fun hne => absurd hleft hne⟩
  · have hmul := mul_rates_of_median (not_lt.mp hmany) hmedian
    have hprices : (self * other_rate).prices
        = ⟨(mul_rates self.rates other_rate.rates self.decimals_or_default
            other_rate.decimals_or_default).1,
          (mul_rates self.rates other_rate.rates self.decimals_or_default
            other_rate.decimals_or_default).2⟩ := rfl
    rw [hprices, hmul]
    exact ⟨rfl, fun _ => rfl⟩

/-- A price of a billionth has a product with one digit only if a decimal more is kept. -/
example : Prices.times ⟨[1], 9⟩ ⟨[909_090_909], 9⟩ = ⟨[9], 10⟩ := by decide +kernel

end QueriedExchangeRate

end Xrc
