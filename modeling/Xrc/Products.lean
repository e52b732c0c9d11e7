/-
Multiplication of rates, exactly. The two loops of `mul` change the scale in opposite
directions, and each division truncates on its own; together they divide every product
by one power of ten. `mul_is_exact` gives the product in closed form, with the single
exponent that explains both its decimals and its rates.

Nothing overflows on the way: `unbounded_mul_rates` is the same computation without word
sizes, and agrees with `mul_rates` on all rates in range.
-/
import Xrc.RateSpec

set_option autoImplicit false

namespace Xrc

open Machine OrderStatistics

namespace QueriedExchangeRate

/-! ## The computation without word sizes

The same text as in `Rate`, over `ℕ`: division, comparison and the two loops, without saturation
and without wrapping. It is a stepping stone, and no result is stated about it. -/

/-- `raise_decimals` in unbounded arithmetic. -/
def unbounded_raise_decimals (median_rate denominator decimals : ℕ) : ℕ × ℕ :=
  if median_rate < denominator then
    unbounded_raise_decimals median_rate (denominator / 10) (decimals + 1)
  else (denominator, decimals)
termination_by denominator
decreasing_by omega

/-- `reduce_decimals` in unbounded arithmetic. -/
def unbounded_reduce_decimals (median_rate max_value divisor : ℕ) : ℕ → ℕ × ℕ
  | 0 => (divisor, 0)
  | decimals + 1 =>
    if max_value < median_rate / divisor then
      unbounded_reduce_decimals median_rate max_value (divisor * 10) decimals
    else (divisor, decimals + 1)

/-- The products of all pairs of rates, ascending. -/
def unbounded_products (own_rates other_rates : List ℕ) : List ℕ :=
  sort ((own_rates ×ˢ other_rates).map fun pair => pair.1 * pair.2)

/-- `mul_rates` in unbounded arithmetic. -/
def unbounded_mul_rates (own_rates other_rates : List ℕ) (own_decimals other_decimals : ℕ) :
    List ℕ × ℕ :=
  let all_rates := unbounded_products own_rates other_rates
  let median_rate := all_rates.getD (all_rates.length / 2) 0
  let raised := unbounded_raise_decimals median_rate (10 ^ min own_decimals other_decimals)
    (max own_decimals other_decimals)
  let scaled := if 0 < raised.1 ∧ raised.2 ≤ 2 * DECIMALS then all_rates.map (· / raised.1) else []
  let reduced := unbounded_reduce_decimals (median_rate / raised.1) MAX_RATE 1 raised.2
  let rates := (scaled.map (· / reduced.1)).filter
    fun final_rate => decide (final_rate ≤ MAX_RATE) && decide (0 < final_rate)
  (if rates.length < (all_rates.length + 1) / 2 then [] else rates, reduced.2)

/-! ## No intermediate overflows

Rates in range have at most 60 bits and powers of ten at most 60 more, so a product with its
scale fits in 128. Loop by loop the two computations then do the same; on the way each loop gets
its specification, as a power of ten. -/

theorem raise_decimals_eq (median_rate : ℕ) :
    ∀ m decimals, decimals + m + 1 ≤ wordMax 32 →
      raise_decimals median_rate (10 ^ m) decimals
        = unbounded_raise_decimals median_rate (10 ^ m) decimals := by
  intro m
  induction m with
  | zero =>
      intro decimals hdecimals
      rw [raise_decimals, unbounded_raise_decimals, saturating_add_eq (by omega)]
      -- one step further the denominator is zero, and the loop stops
      have hzero : 10 ^ 0 / 10 = 0 := by decide
      rw [hzero, raise_decimals, unbounded_raise_decimals, if_neg (Nat.not_lt_zero _),
        if_neg (Nat.not_lt_zero _)]
  | succ m ih =>
      intro decimals hdecimals
      have hstep : 10 ^ (m + 1) / 10 = 10 ^ m := by
        rw [pow_succ, Nat.mul_div_cancel _ (by decide)]
      rw [raise_decimals, unbounded_raise_decimals, saturating_add_eq (by omega), hstep,
        ih (decimals + 1) (by omega)]

theorem reduce_decimals_eq (median_rate max_value : ℕ) :
    ∀ decimals i, i + decimals ≤ 38 →
      reduce_decimals median_rate max_value (10 ^ i) decimals
        = unbounded_reduce_decimals median_rate max_value (10 ^ i) decimals := by
  intro decimals
  induction decimals with
  | zero =>
      intro i _
      rfl
  | succ decimals ih =>
      intro i hi
      have hdivisor : saturating_mul 128 (10 ^ i) 10 = 10 ^ (i + 1) := by
        rw [pow_succ]
        apply saturating_mul_eq
        calc 10 ^ i * 10 = 10 ^ (i + 1) := (pow_succ _ _).symm
          _ ≤ 10 ^ 38 := Nat.pow_le_pow_right (by decide) (by omega)
          _ ≤ wordMax 128 := by decide
      rw [reduce_decimals, unbounded_reduce_decimals, hdivisor, ← pow_succ, ih (i + 1) (by omega)]

theorem all_products_eq {own_rates other_rates : List ℕ} (hown : InRange own_rates)
    (hother : InRange other_rates) :
    all_products own_rates other_rates = unbounded_products own_rates other_rates := by
  have hflat : (own_rates.flatMap fun own_value =>
        other_rates.map fun other_value => saturating_mul 128 own_value other_value)
      = (own_rates ×ˢ other_rates).map fun pair => pair.1 * pair.2 := by
    rw [show own_rates ×ˢ other_rates = own_rates.flatMap fun x => other_rates.map (Prod.mk x) from rfl,
      List.map_flatMap]
    apply List.flatMap_congr
    intro x hx
    rw [List.map_map]
    apply List.map_congr_left
    intro y hy
    apply saturating_mul_eq
    calc x * y ≤ MAX_RATE * MAX_RATE := Nat.mul_le_mul (hown x hx).2 (hother y hy).2
      _ ≤ wordMax 128 := by decide
  rw [all_products, unbounded_products, hflat]

/-- The first loop, on a power of ten: it lowers the scale to the median, or, when the
median is zero, runs off the end. -/
theorem unbounded_raise_decimals_spec (median_rate : ℕ) :
    ∀ m decimals,
      (median_rate = 0 ∧ unbounded_raise_decimals median_rate (10 ^ m) decimals
          = (0, decimals + m + 1))
        ∨ ∃ j ≤ m, 10 ^ (m - j) ≤ median_rate
          ∧ unbounded_raise_decimals median_rate (10 ^ m) decimals
            = (10 ^ (m - j), decimals + j) := by
  intro m
  -- on the exponent of the denominator, which falls by one with every decimal
  induction m with
  | zero =>
      intro decimals
      rw [unbounded_raise_decimals]
      -- below one the middle product is zero, and the denominator becomes zero, too
      by_cases hlt : median_rate < 10 ^ 0
      · refine Or.inl ⟨by omega, ?_⟩
        rw [if_pos hlt, show 10 ^ 0 / 10 = 0 by decide, unbounded_raise_decimals,
          if_neg (Nat.not_lt_zero _)]
      · refine Or.inr ⟨0, le_rfl, not_lt.mp hlt, ?_⟩
        rw [if_neg hlt]
        rfl
  | succ m ih =>
      intro decimals
      have hstep : 10 ^ (m + 1) / 10 = 10 ^ m := by
        rw [pow_succ, Nat.mul_div_cancel _ (by decide)]
      rw [unbounded_raise_decimals, hstep]
      by_cases hlt : median_rate < 10 ^ (m + 1)
      · rw [if_pos hlt]
        rcases ih (decimals + 1) with ⟨hzero, hloop⟩ | ⟨j, hj, hle, hloop⟩
        · refine Or.inl ⟨hzero, ?_⟩
          rw [hloop]
          exact Prod.ext rfl (by dsimp only; omega)
        · refine Or.inr ⟨j + 1, by omega, ?_, ?_⟩
          · rw [Nat.add_sub_add_right]
            exact hle
          · rw [hloop, Nat.add_sub_add_right]
            exact Prod.ext rfl (by dsimp only; omega)
      · refine Or.inr ⟨0, Nat.zero_le _, not_lt.mp hlt, ?_⟩
        rw [if_neg hlt]
        rfl

/-- The second loop, on a power of ten: what it takes from the decimals it adds to the
scale. -/
theorem unbounded_reduce_decimals_spec (median_rate max_value : ℕ) :
    ∀ decimals i, ∃ n ≤ decimals,
      unbounded_reduce_decimals median_rate max_value (10 ^ i) decimals
        = (10 ^ (i + n), decimals - n) := by
  intro decimals
  induction decimals with
  | zero =>
      intro i
      exact ⟨0, le_rfl, rfl⟩
  | succ decimals ih =>
      intro i
      rw [unbounded_reduce_decimals]
      -- one more division, or the end
      by_cases hlt : max_value < median_rate / 10 ^ i
      · obtain ⟨n, hn, hloop⟩ := ih (i + 1)
        refine ⟨n + 1, by omega, ?_⟩
        rw [if_pos hlt, ← pow_succ, hloop, Nat.add_sub_add_right]
        exact Prod.ext (congrArg (10 ^ ·) (by omega)) rfl
      · refine ⟨0, Nat.zero_le _, ?_⟩
        rw [if_neg hlt]
        rfl

/-- **No intermediate of a product overflows**, for rates in range with at most
`2 * DECIMALS` decimals. -/
theorem mul_rates_eq {own_rates other_rates : List ℕ} {own_decimals other_decimals : ℕ}
    (hown : InRange own_rates) (hother : InRange other_rates)
    (hd₁ : own_decimals ≤ 2 * DECIMALS) (hd₂ : other_decimals ≤ 2 * DECIMALS) :
    mul_rates own_rates other_rates own_decimals other_decimals
      = unbounded_mul_rates own_rates other_rates own_decimals other_decimals := by
  have hword : wordMax 32 = 4294967295 := by decide
  simp only [DECIMALS] at hd₁ hd₂
  -- the scale is at most 10 ^ 18, and the loops stay below 10 ^ 38
  have hpow : wrapping_pow 128 10 (min own_decimals other_decimals)
      = 10 ^ min own_decimals other_decimals :=
    wrapping_pow_eq (pow10_lt_word (by simp only [DECIMALS]; omega))
  unfold mul_rates unbounded_mul_rates
  dsimp only
  rw [all_products_eq hown hother, hpow, raise_decimals_eq _ _ _ (by omega)]
  have hraised : ∀ median_rate, (unbounded_raise_decimals median_rate
      (10 ^ min own_decimals other_decimals) (max own_decimals other_decimals)).2 ≤ 38 := by
    intro median_rate
    rcases unbounded_raise_decimals_spec median_rate (min own_decimals other_decimals)
      (max own_decimals other_decimals) with ⟨-, hloop⟩ | ⟨j, hj, -, hloop⟩
    · rw [hloop]
      dsimp only
      omega
    · rw [hloop]
      dsimp only
      omega
  have hreduce := fun median_rate max_value decimals (h : decimals ≤ 38) =>
    reduce_decimals_eq median_rate max_value decimals 0 (by omega)
  simp only [pow_zero] at hreduce
  rw [hreduce _ _ _ (hraised _)]

/-! ## The product in closed form

Each loop divides, and truncates, on its own. `⌊⌊n / a⌋ / b⌋ = ⌊n / (a * b)⌋` makes one division
of the two, so that a single exponent explains both the decimals and the rates. -/

/-- The product of every pair of rates divided by `10 ^ k`, where that is in range,
ascending. -/
def scaled_products (own_rates other_rates : List ℕ) (k : ℕ) : List ℕ :=
  sort (((own_rates ×ˢ other_rates).map fun pair => pair.1 * pair.2 / 10 ^ k).filter
    fun rate => decide (rate ≤ MAX_RATE) && decide (0 < rate))

/-- Two truncating divisions of sorted numbers are one of the numbers. Division keeps the order,
so it does not matter whether the numbers are sorted before or after it. -/
theorem filter_divided_sort (rates : List ℕ) (i j : ℕ) :
    (((sort rates).map (· / 10 ^ i)).map (· / 10 ^ j)).filter
        (fun rate => decide (rate ≤ MAX_RATE) && decide (0 < rate))
      = sort ((rates.map (· / 10 ^ (i + j))).filter
          fun rate => decide (rate ≤ MAX_RATE) && decide (0 < rate)) := by
  have hmap : ((sort rates).map (· / 10 ^ i)).map (· / 10 ^ j)
      = (sort rates).map (· / 10 ^ (i + j)) := by
    rw [List.map_map]
    apply List.map_congr_left
    intro r _
    rw [Function.comp_apply, Nat.div_div_eq_div_mul, pow_add]
  have hsorted : ((sort rates).map (· / 10 ^ (i + j))).Pairwise (· ≤ ·) :=
    pairwise_map_of_monotone (monotone_div _) (sort_pairwise _)
  rw [hmap]
  -- both sides are sorted, and hold the same quotients
  refine (sort_eq_self (hsorted.filter _)).symm.trans (sort_congr (List.Perm.filter _ ?_))
  exact (sort_perm rates).map _

/-- Two truncating divisions of the sorted products are one of the products. -/
theorem filter_divided_products (own_rates other_rates : List ℕ) (i j : ℕ) :
    (((unbounded_products own_rates other_rates).map (· / 10 ^ i)).map (· / 10 ^ j)).filter
        (fun rate => decide (rate ≤ MAX_RATE) && decide (0 < rate))
      = scaled_products own_rates other_rates (i + j) := by
  rw [unbounded_products, filter_divided_sort, List.map_map]
  rfl

/-- What is left of a product, up to one exponent. The two exponents of the loops add up to it,
and all products and the number of decimals are scaled alike. -/
theorem mul_scaled (self other_rate : QueriedExchangeRate) (hself : InRange self.rates)
    (hother : InRange other_rate.rates) (hd₁ : self.decimals_or_default ≤ 2 * DECIMALS)
    (hd₂ : other_rate.decimals_or_default ≤ 2 * DECIMALS) :
    (self * other_rate).rates = []
      ∨ ∃ k ≤ self.decimals_or_default + other_rate.decimals_or_default,
        (self * other_rate).decimals
            = some (self.decimals_or_default + other_rate.decimals_or_default - k)
          ∧ self.decimals_or_default + other_rate.decimals_or_default - k ≤ 2 * DECIMALS
          ∧ (self * other_rate).rates = scaled_products self.rates other_rate.rates k
          ∧ (self.rates.length * other_rate.rates.length + 1) / 2
            ≤ (self * other_rate).rates.length := by
  have hexact := mul_rates_eq hself hother hd₁ hd₂
  have hmul : (self * other_rate).rates = (unbounded_mul_rates self.rates other_rate.rates
        self.decimals_or_default other_rate.decimals_or_default).1
      ∧ (self * other_rate).decimals = some (unbounded_mul_rates self.rates other_rate.rates
        self.decimals_or_default other_rate.decimals_or_default).2 := by
    rw [← hexact]
    exact ⟨rfl, rfl⟩
  rw [hmul.1, hmul.2]
  generalize self.decimals_or_default = d₁ at *
  generalize other_rate.decimals_or_default = d₂ at *
  have hlength : (unbounded_products self.rates other_rate.rates).length
      = self.rates.length * other_rate.rates.length := by
    rw [unbounded_products, length_sort, List.length_map, List.length_product]
  unfold unbounded_mul_rates
  dsimp only
  rw [hlength]
  generalize (unbounded_products self.rates other_rate.rates).getD
    (self.rates.length * other_rate.rates.length / 2) 0 = median_rate
  rcases unbounded_raise_decimals_spec median_rate (min d₁ d₂) (max d₁ d₂) with
    ⟨-, hraise⟩ | ⟨j, hj, -, hraise⟩
  · -- the clearing branch: the scale has run off the end
    left
    rw [hraise]
    dsimp only
    have hzero : ¬(0 < 0 ∧ max d₁ d₂ + min d₁ d₂ + 1 ≤ 2 * DECIMALS) :=
      fun h => absurd h.1 (Nat.lt_irrefl 0)
    simp only [if_neg hzero]
    simp only [List.map_nil, List.filter_nil, ite_self]
  · rw [hraise]
    dsimp only
    by_cases hdecimals : max d₁ d₂ + j ≤ 2 * DECIMALS
    · have hkept : 0 < 10 ^ (min d₁ d₂ - j) ∧ max d₁ d₂ + j ≤ 2 * DECIMALS :=
        ⟨Nat.pow_pos (by decide), hdecimals⟩
      simp only [if_pos hkept]
      obtain ⟨n, hn, hreduce⟩ := unbounded_reduce_decimals_spec
        (median_rate / 10 ^ (min d₁ d₂ - j)) MAX_RATE (max d₁ d₂ + j) 0
      rw [pow_zero, Nat.zero_add] at hreduce
      rw [hreduce]
      dsimp only
      rw [filter_divided_products]
      split
      · exact Or.inl rfl
      · -- the exponent is what the first loop has left of the scale, and the second added
        rename_i hretained
        refine Or.inr ⟨min d₁ d₂ - j + n, by omega, ?_, by omega, rfl, by omega⟩
        exact congrArg some (by omega)
    · -- too many decimals to stay invertible
      left
      have hcleared : ¬(0 < 10 ^ (min d₁ d₂ - j) ∧ max d₁ d₂ + j ≤ 2 * DECIMALS) :=
        fun h => hdecimals h.2
      simp only [if_neg hcleared]
      simp only [List.map_nil, List.filter_nil, ite_self]

/-- **Multiplication is exact up to one floor.** For rates in range with at most `2 * DECIMALS`
decimals no intermediate overflows, and the product is empty, or one exponent `k` explains it: it
has `d₁ + d₂ - k` decimals, at most `2 * DECIMALS` of them, and its rates are the products of all
pairs divided by `10 ^ k`, as far as these are in range, which at least half of them are.

The exponent is found from the middle product alone, and all products are divided by it in two
steps that amount to one. When fewer than half of them stay in range the result has no rates at
all, which is the first case. -/
theorem mul_is_exact (self other_rate : QueriedExchangeRate) (hself : InRange self.rates)
    (hother : InRange other_rate.rates) (hd₁ : self.decimals_or_default ≤ 2 * DECIMALS)
    (hd₂ : other_rate.decimals_or_default ≤ 2 * DECIMALS) :
    mul_rates self.rates other_rate.rates self.decimals_or_default other_rate.decimals_or_default
        = unbounded_mul_rates self.rates other_rate.rates self.decimals_or_default
          other_rate.decimals_or_default
      ∧ ((self * other_rate).rates = []
        ∨ ∃ k ≤ self.decimals_or_default + other_rate.decimals_or_default,
          (self * other_rate).decimals
              = some (self.decimals_or_default + other_rate.decimals_or_default - k)
            ∧ self.decimals_or_default + other_rate.decimals_or_default - k ≤ 2 * DECIMALS
            ∧ (self * other_rate).rates = scaled_products self.rates other_rate.rates k
            ∧ (self.rates.length * other_rate.rates.length + 1) / 2
              ≤ (self * other_rate).rates.length) := by
  refine ⟨mul_rates_eq hself hother hd₁ hd₂, ?_⟩
  exact mul_scaled self other_rate hself hother hd₁ hd₂

/-- The largest and the smallest rate that are kept, next to the unit. -/
def rateAtTheLimits : QueriedExchangeRate :=
  { new ⟨"BTC", .Cryptocurrency⟩ usdt_asset 0 [] 3 3 none with
    rates := [1, RATE_UNIT, MAX_RATE], decimals := some (2 * DECIMALS) }

/-- The square of the extremes: of nine products the three below `10 ^ 18` are dropped. -/
theorem mul_is_exact_at_the_limits :
    mul_rates rateAtTheLimits.rates rateAtTheLimits.rates 18 18
        = unbounded_mul_rates rateAtTheLimits.rates rateAtTheLimits.rates 18 18
      ∧ ((rateAtTheLimits * rateAtTheLimits).rates = []
        ∨ ∃ k ≤ 36, (rateAtTheLimits * rateAtTheLimits).decimals = some (36 - k)
          ∧ 36 - k ≤ 2 * DECIMALS
          ∧ (rateAtTheLimits * rateAtTheLimits).rates
            = scaled_products rateAtTheLimits.rates rateAtTheLimits.rates k
          ∧ (3 * 3 + 1) / 2 ≤ (rateAtTheLimits * rateAtTheLimits).rates.length) :=
  mul_is_exact rateAtTheLimits rateAtTheLimits (by decide) (by decide) (by decide) (by decide)

end QueriedExchangeRate

end Xrc
