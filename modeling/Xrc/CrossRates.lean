/-
How far a minority of faulty exchanges of each asset can move a cross rate. The rates of
`base / quote` are the quotients of all pairs of a base rate and a quote rate, so that
two honest majorities make an honest majority of the pairs only when they are large
enough: with two honest rates of three on each side, only four of the nine pairs are
honest.

What holds always is that the pairs with two faulty rates are few. With the outlier
filter, which leaves a faulty rate within a fifth of an honest one, this bounds the
median as if one of the two assets were off by that fifth.
-/
import Xrc.Products
import Xrc.MinorityTolerance

set_option autoImplicit false

namespace Xrc

open Machine OrderStatistics

/-- Whether a rate is outside of `[lo, hi]`. -/
def outside (lo hi : ℕ) (r : ℕ) : Bool := !decide (lo ≤ r ∧ r ≤ hi)

theorem countP_outside_add_countIn (lo hi : ℕ) (rates : List ℕ) :
    rates.countP (outside lo hi) + countIn lo hi rates = rates.length := by
  have hsplit := List.length_eq_countP_add_countP
    (fun r => decide (lo ≤ r ∧ r ≤ hi)) (l := rates)
  have hflip : rates.countP (outside lo hi)
      = rates.countP fun r => decide ¬decide (lo ≤ r ∧ r ≤ hi) = true := by
    apply List.countP_congr
    intro r _
    simp only [outside, Bool.not_eq_true', decide_eq_false_iff_not, decide_eq_true_eq]
  rw [hflip, countIn]
  omega

/-- When fewer than half of the rates are outside of an interval, the median is inside. The rates
need not be in order, since only counts are compared. -/
theorem median_mem_of_outside {rates : List ℕ} (hrange : InRange rates) {lo hi : ℕ}
    (hfew : 2 * rates.countP (outside lo hi) < rates.length) :
    lo ≤ median rates ∧ median rates ≤ hi := by
  have hsplit := countP_outside_add_countIn lo hi rates
  -- the rates themselves bound the interval from above
  have hcap : countIn lo (min hi MAX_RATE) rates = countIn lo hi rates := by
    apply List.countP_congr
    intro r hr
    have hle := (hrange r hr).2
    rw [decide_eq_true_eq, decide_eq_true_eq, le_min_iff]
    exact ⟨fun h => ⟨h.1, h.2.1⟩, fun h => ⟨h.1, h.2, hle⟩⟩
  obtain ⟨r, hr, hin⟩ : ∃ r ∈ rates, decide (lo ≤ r ∧ r ≤ hi) = true :=
    List.countP_pos_iff.mp (show 0 < countIn lo hi rates by omega)
  have hin' := of_decide_eq_true hin
  have hle := (hrange r hr).2
  have hmajority : rates.length < 2 * countIn lo (min hi MAX_RATE) rates := by
    rw [hcap]
    omega
  have hne : lo ≤ min hi MAX_RATE := by
    rw [le_min_iff]
    omega
  obtain ⟨hlo, hhi⟩ := median_mem_interval hne (lt_of_le_of_lt (min_le_right _ _) MAX_RATE_lt)
    hmajority
  exact ⟨hlo, le_trans hhi (min_le_left _ _)⟩

namespace QueriedExchangeRate

/-! ## Medians of products

A median is in an interval when fewer than half of the elements are outside. The products
outside are counted through the pairs they come from, and those through the rates of each side. -/

theorem scaled_products_inRange (own_rates other_rates : List ℕ) (k : ℕ) :
    InRange (scaled_products own_rates other_rates k) := by
  intro r hr
  rw [scaled_products, mem_sort, List.mem_filter, Bool.and_eq_true, decide_eq_true_eq,
    decide_eq_true_eq] at hr
  exact ⟨hr.2.2, hr.2.1⟩

/-- When the pairs that can leave an interval are fewer than half of the products kept,
the median of these is in the interval. -/
theorem median_scaled_products_mem {own_rates other_rates : List ℕ} {k lo hi : ℕ}
    (spoiled : ℕ × ℕ → Bool)
    (hsound : ∀ x ∈ own_rates, ∀ y ∈ other_rates, spoiled (x, y) = false →
      lo ≤ x * y / 10 ^ k ∧ x * y / 10 ^ k ≤ hi)
    (hfew : 2 * (own_rates ×ˢ other_rates).countP spoiled
      < (scaled_products own_rates other_rates k).length) :
    lo ≤ median (scaled_products own_rates other_rates k)
      ∧ median (scaled_products own_rates other_rates k) ≤ hi := by
  refine median_mem_of_outside (scaled_products_inRange _ _ _) (lt_of_le_of_lt ?_ hfew)
  apply Nat.mul_le_mul_left 2
  -- a product outside of the interval comes from a spoiled pair
  have hpairs : ((own_rates ×ˢ other_rates).map fun pair => pair.1 * pair.2 / 10 ^ k).countP
      (outside lo hi) ≤ (own_rates ×ˢ other_rates).countP spoiled := by
    rw [List.countP_map]
    apply List.countP_mono_left
    intro pair hpair hout
    obtain ⟨hx, hy⟩ := List.pair_mem_product.mp hpair
    by_contra hspoiled
    have hin := hsound pair.1 hx pair.2 hy (Bool.eq_false_of_not_eq_true hspoiled)
    rw [Function.comp_apply, outside, decide_eq_true hin] at hout
    exact absurd hout (by decide)
  refine le_trans ?_ hpairs
  rw [scaled_products, (sort_perm _).countP_eq]
  exact List.filter_sublist.countP_le

/-! ## Rates with an honest majority

The faulty rates of each side are fewer than half, so the pairs with two faulty rates are fewer
than a quarter. What is left depends on how many products `mul` keeps: at least half of them
always, and all of them unless some are out of range. The four `median_*` lemmas are the four
counts. -/

/-- Every rate lies in `[wide_lo, wide_hi]`, and more than half of them in `[lo, hi]`. The wider
interval is what a filter by the median leaves of the others. -/
structure HonestMajority (lo hi wide_lo wide_hi : ℕ) (rates : List ℕ) : Prop where
  wide : ∀ r ∈ rates, wide_lo ≤ r ∧ r ≤ wide_hi
  majority : rates.length < 2 * countIn lo hi rates

namespace HonestMajority

variable {lo hi wide_lo wide_hi : ℕ} {rates : List ℕ}

/-- The faulty rates are fewer than half. -/
theorem faulty_lt (h : HonestMajority lo hi wide_lo wide_hi rates) :
    2 * rates.countP (outside lo hi) < rates.length := by
  have hsplit := countP_outside_add_countIn lo hi rates
  have hmajority := h.majority
  omega

/-- A rate that is not faulty. -/
theorem mem_of_not_outside {r : ℕ} (h : outside lo hi r = false) : lo ≤ r ∧ r ≤ hi := by
  rw [outside, Bool.not_eq_false', decide_eq_true_eq] at h
  exact h

end HonestMajority

/-- Scaled products are monotone in both factors. -/
theorem scaled_product_between {k x y lo₁ hi₁ lo₂ hi₂ : ℕ} (hx : lo₁ ≤ x ∧ x ≤ hi₁)
    (hy : lo₂ ≤ y ∧ y ≤ hi₂) :
    lo₁ * lo₂ / 10 ^ k ≤ x * y / 10 ^ k ∧ x * y / 10 ^ k ≤ hi₁ * hi₂ / 10 ^ k :=
  ⟨Nat.div_le_div_right (Nat.mul_le_mul hx.1 hy.1),
    Nat.div_le_div_right (Nat.mul_le_mul hx.2 hy.2)⟩

section Products

variable {own_rates other_rates : List ℕ} {k lo₁ hi₁ wide_lo₁ wide_hi₁ lo₂ hi₂ wide_lo₂
  wide_hi₂ : ℕ} (h₁ : HonestMajority lo₁ hi₁ wide_lo₁ wide_hi₁ own_rates)
  (h₂ : HonestMajority lo₂ hi₂ wide_lo₂ wide_hi₂ other_rates)

include h₁ h₂

/-- The pairs with two faulty rates are fewer than a quarter, so that where half of the
products are kept the median has one honest factor. -/
theorem median_one_honest (hkept : (own_rates.length * other_rates.length + 1) / 2
      ≤ (scaled_products own_rates other_rates k).length) :
    min (lo₁ * wide_lo₂ / 10 ^ k) (wide_lo₁ * lo₂ / 10 ^ k)
        ≤ median (scaled_products own_rates other_rates k)
      ∧ median (scaled_products own_rates other_rates k)
        ≤ max (hi₁ * wide_hi₂ / 10 ^ k) (wide_hi₁ * hi₂ / 10 ^ k) := by
  refine median_scaled_products_mem
    (fun pair => outside lo₁ hi₁ pair.1 && outside lo₂ hi₂ pair.2) ?_ ?_
  · -- one factor is honest, the other within its wide bounds
    intro x hx y hy hspoiled
    rcases Bool.and_eq_false_iff.mp hspoiled with hfirst | hsecond
    · have hbetween := scaled_product_between (k := k) (HonestMajority.mem_of_not_outside hfirst)
        (h₂.wide y hy)
      exact ⟨le_trans (min_le_left _ _) hbetween.1, le_trans hbetween.2 (le_max_left _ _)⟩
    · have hbetween := scaled_product_between (k := k) (h₁.wide x hx)
        (HonestMajority.mem_of_not_outside hsecond)
      exact ⟨le_trans (min_le_right _ _) hbetween.1, le_trans hbetween.2 (le_max_right _ _)⟩
  · rw [countP_product]
    have hquarter := Nat.mul_lt_mul'' h₁.faulty_lt h₂.faulty_lt
    -- `omega` takes each product of two variables for an atom
    have hfour : ∀ f g : ℕ, 2 * f * (2 * g) = 4 * (f * g) := fun f g => by ring
    rw [hfour] at hquarter
    omega

/-- The pairs whose first rate is faulty are fewer than half, so that where every product
is kept the median has an honest first factor. -/
theorem median_first_honest (hkept : (scaled_products own_rates other_rates k).length
      = own_rates.length * other_rates.length) :
    lo₁ * wide_lo₂ / 10 ^ k ≤ median (scaled_products own_rates other_rates k)
      ∧ median (scaled_products own_rates other_rates k) ≤ hi₁ * wide_hi₂ / 10 ^ k := by
  refine median_scaled_products_mem (fun pair => outside lo₁ hi₁ pair.1 && true) ?_ ?_
  · intro x _ y hy hspoiled
    rw [Bool.and_true] at hspoiled
    exact scaled_product_between (HonestMajority.mem_of_not_outside hspoiled) (h₂.wide y hy)
  · rw [countP_product _ (fun _ => true), List.countP_true, hkept, ← Nat.mul_assoc]
    have hpos : 0 < other_rates.length := by
      have := h₂.faulty_lt
      omega
    exact Nat.mul_lt_mul_of_pos_right h₁.faulty_lt hpos

/-- Likewise for the second factor. -/
theorem median_second_honest (hkept : (scaled_products own_rates other_rates k).length
      = own_rates.length * other_rates.length) :
    wide_lo₁ * lo₂ / 10 ^ k ≤ median (scaled_products own_rates other_rates k)
      ∧ median (scaled_products own_rates other_rates k) ≤ wide_hi₁ * hi₂ / 10 ^ k := by
  refine median_scaled_products_mem (fun pair => true && outside lo₂ hi₂ pair.2) ?_ ?_
  · intro x hx y _ hspoiled
    rw [Bool.true_and] at hspoiled
    exact scaled_product_between (h₁.wide x hx) (HonestMajority.mem_of_not_outside hspoiled)
  · rw [countP_product (fun _ => true), List.countP_true, hkept, Nat.mul_left_comm]
    have hpos : 0 < own_rates.length := by
      have := h₁.faulty_lt
      omega
    exact Nat.mul_lt_mul_of_pos_left h₂.faulty_lt hpos

omit h₁ h₂ in
/-- Where the honest pairs are a majority of the products kept, the median is between
honest products. -/
theorem median_both_honest (hmajority : 2 * (own_rates.length * other_rates.length
        - countIn lo₁ hi₁ own_rates * countIn lo₂ hi₂ other_rates)
      < (scaled_products own_rates other_rates k).length) :
    lo₁ * lo₂ / 10 ^ k ≤ median (scaled_products own_rates other_rates k)
      ∧ median (scaled_products own_rates other_rates k) ≤ hi₁ * hi₂ / 10 ^ k := by
  refine median_scaled_products_mem (fun pair => !(decide (lo₁ ≤ pair.1 ∧ pair.1 ≤ hi₁)
    && decide (lo₂ ≤ pair.2 ∧ pair.2 ≤ hi₂))) ?_ (lt_of_le_of_lt ?_ hmajority)
  · intro x _ y _ hspoiled
    rw [Bool.not_eq_false', Bool.and_eq_true, decide_eq_true_eq, decide_eq_true_eq] at hspoiled
    exact scaled_product_between hspoiled.1 hspoiled.2
  · apply Nat.mul_le_mul_left 2
    -- the spoiled pairs are all but the product of the two honest counts
    have hsplit := List.length_eq_countP_add_countP (l := own_rates ×ˢ other_rates)
      (fun pair : ℕ × ℕ => decide (lo₁ ≤ pair.1 ∧ pair.1 ≤ hi₁)
        && decide (lo₂ ≤ pair.2 ∧ pair.2 ≤ hi₂))
    rw [List.length_product, countP_product (fun x => decide (lo₁ ≤ x ∧ x ≤ hi₁))
      (fun y => decide (lo₂ ≤ y ∧ y ≤ hi₂))] at hsplit
    simp only [Bool.not_eq_true, Bool.decide_eq_false] at hsplit
    rw [countIn, countIn]
    omega

end Products

/-- A value within a fifth of some value of `[lo, hi]`. -/
theorem within_fifth {lo hi m r : ℕ} (hlo : lo ≤ m) (hhi : m ≤ hi)
    (h : abs_diff r m ≤ m / MAX_RELATIVE_DIFFERENCE_DIVISOR) :
    lo - lo / MAX_RELATIVE_DIFFERENCE_DIVISOR ≤ r
      ∧ r ≤ hi + hi / MAX_RELATIVE_DIFFERENCE_DIVISOR := by
  rw [abs_diff_le_iff] at h
  simp only [MAX_RELATIVE_DIFFERENCE_DIVISOR] at *
  omega

/-- What `new` keeps of values with a majority in `[lo, hi]`: that majority, and faulty
rates up to a fifth away. -/
theorem new_honestMajority {lo hi : ℕ} {values : List ℕ} (h : MajorityIn lo hi values)
    (base_asset quote_asset : Asset) (timestamp queried received : ℕ)
    (forex_timestamp : Option ℕ) :
    HonestMajority lo hi (lo - lo / MAX_RELATIVE_DIFFERENCE_DIVISOR)
      (hi + hi / MAX_RELATIVE_DIFFERENCE_DIVISOR)
      (new base_asset quote_asset timestamp values queried received forex_timestamp).rates := by
  refine ⟨?_, (h.new_rates _ _ _ _ _ _).majority⟩
  intro r hr
  rw [new_rates, mem_sort, List.mem_filter, retains_iff] at hr
  exact within_fifth h.median_mem.1 h.median_mem.2 hr.2.2.2

/-- Rates with `DECIMALS` decimals are inverted exactly, at the same number of decimals. The loop
stops at once for them, and the quotients are small enough not to be cut off. -/
theorem inverted_of_decimals {self : QueriedExchangeRate} (hrange : InRange self.rates)
    (hdecimals : self.decimals_or_default = DECIMALS) :
    self.inverted.decimals = some DECIMALS
      ∧ self.inverted.rates = sort (self.rates.map fun r => MAX_RATE / r) := by
  obtain ⟨d', hle, -, -, hraised, hinverse⟩ := inverted_rates_spec
    (d := self.decimals_or_default) hrange (by rw [hdecimals]; decide)
  have hmedian := upper_median_le hrange
  rw [hdecimals] at hle hraised hinverse
  -- no rate in range needs more decimals
  have hsame : d' = DECIMALS := by
    by_contra hne
    have hpow : 10 ^ (2 * DECIMALS) ≤ 10 ^ (DECIMALS + d' - 1) :=
      Nat.pow_le_pow_right (by decide) (by omega)
    have hlt := hraised (by omega)
    rw [MAX_RATE_eq] at hmedian
    omega
  subst hsame
  have hscale : 10 ^ (DECIMALS + DECIMALS) = MAX_RATE := by decide
  have hrates : (inverted_rates self.rates self.decimals_or_default).1
      = sort (self.rates.map fun r => MAX_RATE / r) := by
    rw [hdecimals, hinverse, hscale]
    refine congrArg sort (List.map_congr_left fun r _ => ?_)
    exact Nat.mod_eq_of_lt (lt_of_le_of_lt (Nat.div_le_self _ _) (by decide))
  refine ⟨?_, hrates⟩
  show some (inverted_rates self.rates self.decimals_or_default).2 = _
  rw [hdecimals, hinverse]

/-- The inverses of rates in range are in range. -/
theorem inverses_inRange {rates : List ℕ} (hrange : InRange rates) :
    InRange (sort (rates.map fun r => MAX_RATE / r)) := by
  intro z hz
  rw [mem_sort, List.mem_map] at hz
  obtain ⟨r, hr, rfl⟩ := hz
  have hr' := hrange r hr
  exact ⟨Nat.div_pos hr'.2 hr'.1, Nat.div_le_self _ _⟩

/-- Inverting turns the intervals around. What lies inside of an interval is inside of the
inverted one afterwards, rounded down at both ends. -/
theorem inverses_honestMajority {lo hi wide_lo wide_hi : ℕ} {rates : List ℕ}
    (h : HonestMajority lo hi wide_lo wide_hi rates) (hlo : 0 < lo) (hwide : 0 < wide_lo) :
    HonestMajority (MAX_RATE / hi) (MAX_RATE / lo) (MAX_RATE / wide_hi) (MAX_RATE / wide_lo)
        (sort (rates.map fun r => MAX_RATE / r))
      ∧ countIn lo hi rates ≤ countIn (MAX_RATE / hi) (MAX_RATE / lo)
        (sort (rates.map fun r => MAX_RATE / r)) := by
  -- an honest rate has an honest inverse
  have hcount : countIn lo hi rates ≤ countIn (MAX_RATE / hi) (MAX_RATE / lo)
      (sort (rates.map fun r => MAX_RATE / r)) := by
    rw [countIn_perm (sort_perm _), countIn, countIn, List.countP_map]
    apply List.countP_mono_left
    intro r _ hr
    have hr' := of_decide_eq_true hr
    refine decide_eq_true ⟨?_, ?_⟩
    · exact Nat.div_le_div_left hr'.2 (by omega)
    · exact Nat.div_le_div_left hr'.1 hlo
  refine ⟨⟨?_, ?_⟩, hcount⟩
  · intro z hz
    rw [mem_sort, List.mem_map] at hz
    obtain ⟨r, hr, rfl⟩ := hz
    have hr' := h.wide r hr
    exact ⟨Nat.div_le_div_left hr'.2 (by omega), Nat.div_le_div_left hr'.1 hwide⟩
  · rw [length_sort, List.length_map]
    have hmajority := h.majority
    omega

/-! ## Cross rates

The honest ranges and the wide ones that the filter allows are carried through the inversion of
the quote and through the product, and the median is between the products of their ends. -/

/-- The cross rate of a base rate `x` and a quote rate `y` against USDT, at
`2 * DECIMALS - k` decimals. -/
def cross_rate (k x y : ℕ) : ℕ := x * (RATE_UNIT * RATE_UNIT / y) / 10 ^ k

/-- **How far faulty minorities move a cross rate.** Let more than half of the values of each
asset lie in ranges `[a, b]` and `[c, e]` at most a tenth wide. If `base / quote` is valid with
`D` decimals, its median is a cross rate in which at most one of the two assets is off, by at most
the fifth the filter leaves; where no product is dropped this holds whichever of the two is taken
to be the faulty one; and where the honest pairs are a majority of the products kept, no asset is
off.

The division is a multiplication with the inverse, whose honest rates are a majority again, and a
product of two majorities need not be one: three quarters of the products may hold a faulty
factor. What the filter leaves of a faulty rate is within a fifth of an honest one, which gives
the bounds; the last clause is the case in which the honest products prevail. -/
theorem faulty_minorities_move_cross_rate {a b c e : ℕ} {base_values quote_values : List ℕ}
    (hbase : MajorityIn a b base_values) (hquote : MajorityIn c e quote_values)
    (base_asset quote_asset : Asset) (base_timestamp base_queried base_received
      quote_timestamp quote_queried quote_received : ℕ)
    (base_forex_timestamp quote_forex_timestamp : Option ℕ) {q : QueriedExchangeRate}
    (hvalid : (new base_asset usdt_asset base_timestamp base_values base_queried base_received
        base_forex_timestamp / new quote_asset usdt_asset quote_timestamp quote_values
        quote_queried quote_received quote_forex_timestamp).validate = .ok q) :
    let base_rates := (new base_asset usdt_asset base_timestamp base_values base_queried
      base_received base_forex_timestamp).rates
    let quote_rates := (new quote_asset usdt_asset quote_timestamp quote_values quote_queried
      quote_received quote_forex_timestamp).rates
    let fifth := fun r => r / MAX_RELATIVE_DIFFERENCE_DIVISOR
    ∃ D ≤ 2 * DECIMALS, q.decimals = some D ∧
      let cross := cross_rate (2 * DECIMALS - D)
      (min (cross a (e + fifth e)) (cross (a - fifth a) e) ≤ median q.rates
          ∧ median q.rates ≤ max (cross b (c - fifth c)) (cross (b + fifth b) c))
        ∧ (q.rates.length = base_rates.length * quote_rates.length →
          max (cross a (e + fifth e)) (cross (a - fifth a) e) ≤ median q.rates
            ∧ median q.rates ≤ min (cross b (c - fifth c)) (cross (b + fifth b) c))
        ∧ (2 * (base_rates.length * quote_rates.length
              - countIn a b base_rates * countIn c e quote_rates) < q.rates.length →
          cross a e ≤ median q.rates ∧ median q.rates ≤ cross b c) := by
  intro base_rates quote_rates fifth
  have hq := eq_of_validate_ok hvalid
  subst hq
  set base := new base_asset usdt_asset base_timestamp base_values base_queried base_received
    base_forex_timestamp
  set quote := new quote_asset usdt_asset quote_timestamp quote_values quote_queried
    quote_received quote_forex_timestamp
  have hbase_range : InRange base_rates := new_rates_inRange _ _ _ _ _ _ _
  have hquote_range : InRange quote_rates := new_rates_inRange _ _ _ _ _ _ _
  have hbase_honest := new_honestMajority hbase base_asset usdt_asset base_timestamp base_queried
    base_received base_forex_timestamp
  have hquote_honest := new_honestMajority hquote quote_asset usdt_asset quote_timestamp
    quote_queried quote_received quote_forex_timestamp
  -- the inverse of the quote rate is exact, and has an honest majority of its own
  obtain ⟨hinverse_decimals, hinverse_rates⟩ := @inverted_of_decimals quote hquote_range
    rfl
  have hpos : 0 < c - fifth c := by
    have : c / MAX_RELATIVE_DIFFERENCE_DIVISOR < c := Nat.div_lt_self hquote.pos (by decide)
    show 0 < c - c / MAX_RELATIVE_DIFFERENCE_DIVISOR
    omega
  obtain ⟨hinverse_honest, hcount⟩ := inverses_honestMajority hquote_honest hquote.pos hpos
  set inverse := sort (quote.rates.map fun r => MAX_RATE / r)
  have hinverse_length : inverse.length = quote_rates.length := by
    rw [length_sort, List.length_map]
  have hdefault : quote.inverted.decimals_or_default = DECIMALS := by
    rw [decimals_or_default, hinverse_decimals, Option.getD_some]
  have hdivision : base / quote = base * quote.inverted := rfl
  rw [hdivision] at hvalid ⊢
  -- the median of a valid rate is positive, so the product is not empty
  have hne : (base * quote.inverted).rates ≠ [] := by
    intro hempty
    have hmedian := ((validate_ok_iff _).mp hvalid).1
    rw [hempty, median_nil] at hmedian
    omega
  obtain ⟨k, hk, hdecimals, -, hrates, hkept⟩ := (mul_scaled base quote.inverted hbase_range
    (by rw [hinverse_rates]; exact inverses_inRange hquote_range)
    (show DECIMALS ≤ 2 * DECIMALS by decide) (by rw [hdefault]; decide)).resolve_left hne
  have hsum : base.decimals_or_default + quote.inverted.decimals_or_default = 2 * DECIMALS := by
    rw [hdefault]
    rfl
  rw [hsum] at hk hdecimals
  rw [hinverse_rates] at hrates hkept
  have hscale : 2 * DECIMALS - (2 * DECIMALS - k) = k := by omega
  refine ⟨2 * DECIMALS - k, Nat.sub_le _ _, hdecimals, ?_⟩
  intro cross
  have hcross : cross = cross_rate k := by
    show cross_rate (2 * DECIMALS - (2 * DECIMALS - k)) = _
    rw [hscale]
  rw [hcross, hrates]
  rw [hrates] at hkept
  refine ⟨?_, ?_, ?_⟩
  · exact median_one_honest hbase_honest hinverse_honest hkept
  · intro hall
    rw [← hinverse_length] at hall
    have hfirst := median_first_honest hbase_honest hinverse_honest hall
    have hsecond := median_second_honest hbase_honest hinverse_honest hall
    exact ⟨max_le hfirst.1 hsecond.1, le_min hfirst.2 hsecond.2⟩
  · intro hmajority
    refine median_both_honest (lt_of_le_of_lt ?_ hmajority)
    rw [hinverse_length]
    exact Nat.mul_le_mul_left 2 (Nat.sub_le_sub_left (Nat.mul_le_mul_left _ hcount) _)

/-- ICP from three exchanges, one of which is a hundredth too low. -/
def icpOneLow : QueriedExchangeRate :=
  new ⟨"ICP", .Cryptocurrency⟩ usdt_asset 0 [1_000_000_000, 1_000_000_000, 990_000_000] 3 3 none

/-- BTC from three exchanges, one of which is a hundredth too high. -/
def btcOneHigh : QueriedExchangeRate :=
  new ⟨"BTC", .Cryptocurrency⟩ usdt_asset 0 [1_000_000_000, 1_000_000_000, 1_010_000_000] 3 3 none

/-- Two honest rates of three on each side agree on `1` exactly, and the median of the
nine quotients, four of them honest, is below. -/
theorem honest_majorities_moved :
    MajorityIn 1_000_000_000 1_000_000_000 [1_000_000_000, 1_000_000_000, 990_000_000]
      ∧ MajorityIn 1_000_000_000 1_000_000_000 [1_000_000_000, 1_000_000_000, 1_010_000_000]
      ∧ (icpOneLow / btcOneHigh).validate = .ok (icpOneLow / btcOneHigh)
      ∧ (icpOneLow / btcOneHigh).decimals = some 9
      ∧ ¬cross_rate (18 - 9) 1_000_000_000 1_000_000_000 ≤ median (icpOneLow / btcOneHigh).rates :=
  ⟨⟨by decide, by decide, by decide, by decide, by decide⟩,
    ⟨by decide, by decide, by decide, by decide, by decide⟩,
    by decide +kernel, by decide +kernel, by decide +kernel⟩

theorem honest_majorities_moved_within_bounds :
    ∃ D ≤ 2 * DECIMALS, (icpOneLow / btcOneHigh).decimals = some D ∧
      let cross := cross_rate (2 * DECIMALS - D)
      (min (cross 1_000_000_000 1_200_000_000) (cross 800_000_000 1_000_000_000)
            ≤ median (icpOneLow / btcOneHigh).rates
          ∧ median (icpOneLow / btcOneHigh).rates
            ≤ max (cross 1_000_000_000 800_000_000) (cross 1_200_000_000 1_000_000_000))
        ∧ ((icpOneLow / btcOneHigh).rates.length = icpOneLow.rates.length * btcOneHigh.rates.length →
          max (cross 1_000_000_000 1_200_000_000) (cross 800_000_000 1_000_000_000)
              ≤ median (icpOneLow / btcOneHigh).rates
            ∧ median (icpOneLow / btcOneHigh).rates
              ≤ min (cross 1_000_000_000 800_000_000) (cross 1_200_000_000 1_000_000_000))
        ∧ (2 * (icpOneLow.rates.length * btcOneHigh.rates.length
              - countIn 1_000_000_000 1_000_000_000 icpOneLow.rates
                * countIn 1_000_000_000 1_000_000_000 btcOneHigh.rates)
            < (icpOneLow / btcOneHigh).rates.length →
          cross 1_000_000_000 1_000_000_000 ≤ median (icpOneLow / btcOneHigh).rates
            ∧ median (icpOneLow / btcOneHigh).rates ≤ cross 1_000_000_000 1_000_000_000) := by
  have hlow : MajorityIn 1_000_000_000 1_000_000_000
      [1_000_000_000, 1_000_000_000, 990_000_000] :=
    ⟨by decide, by decide, by decide, by decide, by decide⟩
  have hhigh : MajorityIn 1_000_000_000 1_000_000_000
      [1_000_000_000, 1_000_000_000, 1_010_000_000] :=
    ⟨by decide, by decide, by decide, by decide, by decide⟩
  have hvalid : (icpOneLow / btcOneHigh).validate = .ok (icpOneLow / btcOneHigh) := by
    decide +kernel
  exact faulty_minorities_move_cross_rate hlow hhigh ⟨"ICP", .Cryptocurrency⟩
    ⟨"BTC", .Cryptocurrency⟩ 0 3 3 0 3 3 none none hvalid

end QueriedExchangeRate

end Xrc
