/-
What the operations of `Xrc.Rate` compute: one specification lemma per operation, which
every later module cites instead of unfolding the operation.

The abstract notion is `Acceptable`: what `validate` is for, said of a bag of rates
without positions. On sorted rates `validate` decides exactly that
(`validate_ok_iff_acceptable`), and every constructor sorts.
-/
import Xrc.Rate
import Mathlib.Data.Nat.Log
import Mathlib.Tactic.Ring

set_option autoImplicit false

namespace Xrc

open Machine OrderStatistics

/-! ## What an acceptable set of rates is

Three words for what the code checks by position: a group that agrees up to a tenth, a list with
a majority of this kind, and a list whose median is in range besides. None of them depends on
the order of the rates. -/

/-- No two rates of the group differ by more than one tenth of the smaller one. The difference is
one of natural numbers, so that only the larger one of a pair is compared with the smaller one. -/
def WithinTenth (group : List ℕ) : Prop :=
  ∀ x ∈ group, ∀ y ∈ group, x - y ≤ y / RATE_DEVIATION_DIVISOR

/-- More than half of the rates lie within one tenth of each other. The group may be any of the
rates and not only neighbours in ascending order, which is what the code looks at. -/
def MajorityWithinTenth (rates : List ℕ) : Prop :=
  ∃ group : List ℕ, group.Subperm rates ∧ rates.length < 2 * group.length
    ∧ WithinTenth group

/-- The median is positive and at most `MAX_RATE`, and a majority of the rates agrees up to one
tenth. This is what `validate` should check, in terms of the rates alone; that it does is
`validate_ok_iff_acceptable`. -/
structure Acceptable (rates : List ℕ) : Prop where
  median_pos : 0 < median rates
  median_le : median rates ≤ MAX_RATE
  majority : MajorityWithinTenth rates

/-- Every rate is positive and at most `MAX_RATE`. `new` and `mul` drop what is not, while an
inverse can be out of range. -/
def InRange (rates : List ℕ) : Prop := ∀ r ∈ rates, 0 < r ∧ r ≤ MAX_RATE

instance (rates : List ℕ) : Decidable (InRange rates) :=
  inferInstanceAs (Decidable (∀ r ∈ rates, 0 < r ∧ r ≤ MAX_RATE))

theorem MAX_RATE_lt : MAX_RATE < 2 ^ 63 := by decide

theorem MAX_RATE_eq : MAX_RATE = 10 ^ (2 * DECIMALS) := by decide

theorem MAX_RATE_mul_RATE_UNIT_le : MAX_RATE * RATE_UNIT ≤ wordMax 128 := by decide

/-- A list of rates in range has a median in range. -/
theorem median_of_inRange {rates : List ℕ} (h : InRange rates) (hne : rates ≠ []) :
    0 < median rates ∧ median rates ≤ MAX_RATE := by
  have hcount : countIn 1 MAX_RATE rates = rates.length := by
    apply List.countP_eq_length.mpr
    intro r hr
    have := h r hr
    rw [decide_eq_true_eq]
    omega
  have hpos : 0 < rates.length := List.length_pos_iff.mpr hne
  have hmed := @median_mem_interval rates 1 MAX_RATE (by decide)
    MAX_RATE_lt (by omega)
  omega

namespace QueriedExchangeRate

/-! ## The constructor

`new` takes any words at all. That its rates are positive, at most `MAX_RATE` and sorted is what
all later operations rely on, and it holds whatever the sources answered. -/

/-- Which rates `new` keeps. -/
theorem retains_iff {median_rate rate : ℕ} :
    retains median_rate rate = true ↔ 0 < rate ∧ rate ≤ MAX_RATE
      ∧ abs_diff rate median_rate ≤ median_rate / MAX_RELATIVE_DIFFERENCE_DIVISOR := by
  simp only [retains, Bool.and_eq_true, decide_eq_true_eq, and_assoc]

section New

variable (base_asset quote_asset : Asset) (timestamp : ℕ) (rates : List ℕ)
  (queried received : ℕ) (forex_timestamp : Option ℕ)

theorem new_rates : (new base_asset quote_asset timestamp rates queried received
    forex_timestamp).rates = sort (rates.filter (retains (median rates))) := rfl

theorem new_rates_pairwise : (new base_asset quote_asset timestamp rates queried received
    forex_timestamp).rates.Pairwise (· ≤ ·) := sort_pairwise _

/-- Whatever the raw rates are, what `new` keeps is in range. -/
theorem new_rates_inRange : InRange (new base_asset quote_asset timestamp rates queried
    received forex_timestamp).rates := by
  intro r hr
  rw [new_rates, mem_sort, List.mem_filter, retains_iff] at hr
  exact ⟨hr.2.1, hr.2.2.1⟩

end New

/-! ## Validation

The code tests windows of `n / 2 + 1` consecutive positions. A window is a group, and the other
way round a group lies between its extremes, which more than half of the rates do, so that they
fill a window (`exists_window`). Hence the positions drop out. -/

/-- `validate` returns its argument or an error. -/
theorem eq_of_validate_ok {self q : QueriedExchangeRate} (h : self.validate = .ok q) :
    q = self := by
  unfold validate at h
  dsimp only at h
  split at h
  · cases h
  · split at h
    · cases h
    · cases h
      rfl

/-- `validate` accepts when the median is in range and some window does not deviate. It answers
with the rate unchanged, so that this is all there is to know about it. -/
theorem validate_ok_iff (self : QueriedExchangeRate) :
    self.validate = .ok self ↔ 0 < median self.rates ∧ median self.rates ≤ MAX_RATE
      ∧ ∃ last, self.rates.length / 2 ≤ last ∧ last < self.rates.length
          ∧ deviates self.rates (self.rates.length / 2) last = false := by
  unfold validate
  dsimp only
  by_cases hmed : median self.rates = 0 ∨ MAX_RATE < median self.rates
  · -- both sides fail
    rw [if_pos hmed]
    simp only [reduceCtorEq, false_iff]
    omega
  · rw [if_neg hmed]
    have hrange : 0 < median self.rates ∧ median self.rates ≤ MAX_RATE := by omega
    simp only [hrange, true_and]
    by_cases hall : (List.range' (self.rates.length / 2)
        (self.rates.length - self.rates.length / 2)).all
        (deviates self.rates (self.rates.length / 2)) = true
    · -- every window deviates
      rw [if_pos hall]
      simp only [reduceCtorEq, false_iff, not_exists, not_and]
      intro last hlo hhi
      have := List.all_eq_true.mp hall last (by rw [List.mem_range'_1]; omega)
      simp only [this, Bool.true_eq_false, not_false_eq_true]
    · rw [if_neg hall]
      simp only [true_iff]
      rw [List.all_eq_true] at hall
      push Not at hall
      obtain ⟨last, hmem, hdev⟩ := hall
      rw [List.mem_range'_1] at hmem
      exact ⟨last, by omega, by omega, by simpa using hdev⟩

/-- On sorted words the test of a window is the subtraction of its ends. -/
theorem deviates_eq_false_iff {rates : List ℕ} (hsorted : rates.Pairwise (· ≤ ·))
    (hword : ∀ r ∈ rates, r < 2 ^ 64) {i d : ℕ} (hid : i + d < rates.length) :
    deviates rates d (i + d) = false
      ↔ rates[i + d] - rates[i] ≤ rates[i] / RATE_DEVIATION_DIVISOR := by
  have hmono : rates[i] ≤ rates[i + d] := getElem_mono hsorted (by omega) hid
  rw [deviates, Nat.add_sub_cancel, List.getD_eq_getElem _ _ hid,
    List.getD_eq_getElem _ _ (show i < rates.length by omega),
    wrapping_sub_eq hmono (hword _ (List.getElem_mem hid)), decide_eq_false_iff_not, not_lt]

/-- The elements of a window of sorted rates whose ends are within one tenth. What lies between
two rates in ascending order is no further from either than these are from each other. -/
theorem withinTenth_window {rates : List ℕ} (hsorted : rates.Pairwise (· ≤ ·)) {i d : ℕ}
    (hid : i + d < rates.length)
    (hends : rates[i + d] - rates[i] ≤ rates[i] / RATE_DEVIATION_DIVISOR) :
    WithinTenth ((rates.drop i).take (d + 1)) := by
  have hbetween : ∀ x ∈ (rates.drop i).take (d + 1), rates[i] ≤ x ∧ x ≤ rates[i + d] := by
    intro x hx
    obtain ⟨j, hj, rfl⟩ := List.getElem_of_mem hx
    rw [List.length_take, List.length_drop] at hj
    rw [List.getElem_take, List.getElem_drop]
    exact ⟨getElem_mono hsorted (by omega) (by omega),
      getElem_mono hsorted (by omega) hid⟩
  intro x hx y hy
  obtain ⟨-, hxle⟩ := hbetween x hx
  obtain ⟨hyge, -⟩ := hbetween y hy
  calc x - y ≤ rates[i + d] - rates[i] := by omega
    _ ≤ rates[i] / RATE_DEVIATION_DIVISOR := hends
    _ ≤ y / RATE_DEVIATION_DIVISOR := Nat.div_le_div_right hyge

/-- A group of rates lies between its extremes, which agree up to one tenth. -/
theorem exists_interval_of_withinTenth {group : List ℕ} (hne : group ≠ [])
    (h : WithinTenth group) :
    ∃ lo hi, lo ≤ hi ∧ hi - lo ≤ lo / RATE_DEVIATION_DIVISOR
      ∧ ∀ x ∈ group, lo ≤ x ∧ x ≤ hi := by
  have hpos : 0 < (sort group).length := by
    rw [length_sort]
    exact List.length_pos_iff.mpr hne
  refine ⟨(sort group)[0], (sort group)[(sort group).length - 1], ?_, ?_, ?_⟩
  · exact getElem_mono (sort_pairwise group) (by omega) (by omega)
  · exact h _ (mem_sort.mp (List.getElem_mem (by omega))) _
      (mem_sort.mp (List.getElem_mem hpos))
  · intro x hx
    obtain ⟨j, hj, rfl⟩ := List.getElem_of_mem (mem_sort.mpr hx)
    exact ⟨getElem_mono (sort_pairwise group) (by omega) hj,
      getElem_mono (sort_pairwise group) (by omega) (by omega)⟩

/-- **What `validate` decides.** On sorted words it accepts exactly the acceptable sets
of rates: a window of the code is a majority group, and the members of a majority group
fill a window. -/
theorem validate_ok_iff_acceptable {self : QueriedExchangeRate}
    (hsorted : self.rates.Pairwise (· ≤ ·)) (hword : ∀ r ∈ self.rates, r < 2 ^ 64) :
    self.validate = .ok self ↔ Acceptable self.rates := by
  rw [validate_ok_iff]
  constructor
  · -- the window from `i` is the group
    rintro ⟨hpos, hle, last, hlo, hhi, hdev⟩
    obtain ⟨i, rfl⟩ : ∃ i, last = i + self.rates.length / 2 :=
      ⟨last - self.rates.length / 2, by omega⟩
    rw [deviates_eq_false_iff hsorted hword hhi] at hdev
    refine ⟨hpos, hle, (self.rates.drop i).take (self.rates.length / 2 + 1), ?_, ?_, ?_⟩
    · exact ((List.take_sublist _ _).trans (List.drop_sublist _ _)).subperm
    · rw [List.length_take, List.length_drop]
      omega
    · exact withinTenth_window hsorted hhi hdev
  · -- the group spans an interval that holds a majority, and a majority fills a window
    rintro ⟨hpos, hle, group, hsub, hlen, htenth⟩
    refine ⟨hpos, hle, ?_⟩
    have hne : group ≠ [] := by
      rintro rfl
      simp only [List.length_nil] at hlen
      omega
    obtain ⟨lo, hi, hlohi, hspread, hmem⟩ := exists_interval_of_withinTenth hne htenth
    have hcount : group.length ≤ countIn lo hi self.rates := by
      have hall : countIn lo hi group = group.length :=
        List.countP_eq_length.mpr fun x hx => by simpa using hmem x hx
      exact hall ▸ hsub.countP_le _
    obtain ⟨i, hid, hge, hle'⟩ := exists_window hsorted hlohi
      (show self.rates.length / 2 < countIn lo hi self.rates by omega)
    refine ⟨i + self.rates.length / 2, by omega, hid, ?_⟩
    rw [deviates_eq_false_iff hsorted hword hid]
    calc self.rates[i + self.rates.length / 2] - self.rates[i] ≤ hi - lo := by omega
      _ ≤ lo / RATE_DEVIATION_DIVISOR := hspread
      _ ≤ self.rates[i] / RATE_DEVIATION_DIVISOR := Nat.div_le_div_right hge

/-! ## Multiplication

Only what holds of every product, whatever its factors: it is sorted, in range and of at most `2
* DECIMALS` decimals. The two guards at the end of `mul` see to it. What the rates are is the
subject of `Products`. -/

theorem monotone_mul (k : ℕ) : Monotone fun r : ℕ => r * k :=
  fun _ _ h => Nat.mul_le_mul_right _ h

theorem monotone_div (k : ℕ) : Monotone fun r : ℕ => r / k :=
  fun _ _ h => Nat.div_le_div_right h

theorem reduce_decimals_le (median_rate max_value : ℕ) :
    ∀ decimals divisor, (reduce_decimals median_rate max_value divisor decimals).2 ≤ decimals
  | 0, divisor => by simp only [reduce_decimals, le_refl]
  | decimals + 1, divisor => by
    rw [reduce_decimals]
    split
    · exact le_trans (reduce_decimals_le median_rate max_value decimals _) (by omega)
    · exact le_rfl

theorem all_products_pairwise (own_rates other_rates : List ℕ) :
    (all_products own_rates other_rates).Pairwise (· ≤ ·) := sort_pairwise _

/-- **What every product guarantees**, for any factors: its rates are sorted and in
range, and it has at most `2 * DECIMALS` decimals unless it is empty. -/
theorem mul_rates_spec (own_rates other_rates : List ℕ) (own_decimals other_decimals : ℕ) :
    (mul_rates own_rates other_rates own_decimals other_decimals).1.Pairwise (· ≤ ·)
      ∧ InRange (mul_rates own_rates other_rates own_decimals other_decimals).1
      ∧ ((mul_rates own_rates other_rates own_decimals other_decimals).1 ≠ [] →
          (mul_rates own_rates other_rates own_decimals other_decimals).2 ≤ 2 * DECIMALS) := by
  unfold mul_rates
  dsimp only
  set raised := raise_decimals _ _ _
  set median_rate := _ / raised.1
  set reduced := reduce_decimals median_rate MAX_RATE 1 raised.2
  by_cases hkept : 0 < raised.1 ∧ raised.2 ≤ 2 * DECIMALS
  · -- what is left is a filtered image of the sorted products under two monotone divisions
    simp only [if_pos hkept]
    have hdec : reduced.2 ≤ 2 * DECIMALS :=
      le_trans (reduce_decimals_le _ _ _ _) hkept.2
    have hsorted := pairwise_map_of_monotone (monotone_div reduced.1)
      (pairwise_map_of_monotone (monotone_div raised.1)
        (all_products_pairwise own_rates other_rates))
    split
    · exact ⟨List.Pairwise.nil, fun r hr => absurd hr List.not_mem_nil, fun h => absurd rfl h⟩
    · refine ⟨hsorted.filter _, fun r hr => ?_, fun _ => hdec⟩
      have := (List.mem_filter.mp hr).2
      rw [Bool.and_eq_true, decide_eq_true_eq, decide_eq_true_eq] at this
      exact ⟨this.2, this.1⟩
  · -- the clearing branch: no rate is left
    simp only [if_neg hkept, List.map_nil, List.filter_nil, ite_self]
    exact ⟨List.Pairwise.nil, fun r hr => absurd hr List.not_mem_nil, fun h => absurd rfl h⟩

theorem mul_rates_pairwise (self other_rate : QueriedExchangeRate) :
    (self * other_rate).rates.Pairwise (· ≤ ·) := (mul_rates_spec _ _ _ _).1

theorem mul_rates_inRange (self other_rate : QueriedExchangeRate) :
    InRange (self * other_rate).rates := (mul_rates_spec _ _ _ _).2.1

theorem mul_decimals_le {self other_rate : QueriedExchangeRate}
    (hne : (self * other_rate).rates ≠ []) :
    (self * other_rate).decimals_or_default ≤ 2 * DECIMALS := (mul_rates_spec _ _ _ _).2.2 hne

/-! ## Inversion

Unlike a product an inverse has no filter, so its closed form has the 64-bit cast in it. The
loop counts the decimals up from `d`; `invert_scale_spec` is its invariant, and says where it
stops. The condition under which no quotient is cut off comes out the same before and after the
loop, since the loop runs only where all quotients are small. -/

/-- The upper median `inverted` scales by: position `n / 2` of the sorted rates. -/
def upper_median (rates : List ℕ) : ℕ := (sort rates).getD ((sort rates).length / 2) 0

theorem upper_median_le {rates : List ℕ} (h : InRange rates) : upper_median rates ≤ MAX_RATE := by
  unfold upper_median
  by_cases hlt : (sort rates).length / 2 < (sort rates).length
  · rw [List.getD_eq_getElem _ _ hlt]
    exact (h _ (mem_sort.mp (List.getElem_mem hlt))).2
  · rw [List.getD_eq_default _ _ (by omega)]
    exact Nat.zero_le _

theorem pow10_lt_word {e : ℕ} (h : e ≤ 4 * DECIMALS) : 10 ^ e < 2 ^ 128 :=
  lt_of_le_of_lt (Nat.pow_le_pow_right (by decide) h) (by decide)

/-- `10u128.pow(2 * decimals)` is exact up to `2 * DECIMALS` decimals. -/
theorem pow_max_value {decimals : ℕ} (h : decimals ≤ 2 * DECIMALS) :
    wrapping_pow 128 10 (wrapping_mul 32 2 decimals) = 10 ^ (2 * decimals) := by
  have hdec : decimals ≤ 18 := h
  rw [wrapping_mul_eq (by omega), wrapping_pow_eq (pow10_lt_word (by
    simp only [DECIMALS]
    omega))]

/-- The loop of `inverted`, from any of its states: it stops at the first number of
decimals at which the scaled median is invertible, and never needs more than
`2 * DECIMALS` of them for a median of at most `MAX_RATE`. -/
theorem invert_scale_spec (median_rate d : ℕ) (hm : median_rate ≤ MAX_RATE) :
    ∀ n j, n + (d + j) = 2 * DECIMALS →
      ∃ k, j ≤ k ∧ d + k ≤ 2 * DECIMALS ∧ median_rate ≤ 10 ^ (2 * d + k)
        ∧ (j < k → 10 ^ (2 * d + k - 1) < median_rate)
        ∧ invert_scale median_rate (10 ^ (2 * d)) (10 ^ j) (d + j) = (10 ^ k, d + k) := by
  intro n
  induction n with
  | zero =>
      intro j hj
      -- at `2 * DECIMALS` decimals even `MAX_RATE` is invertible
      have hle : median_rate ≤ 10 ^ (2 * d + j) := by
        apply le_trans hm
        rw [MAX_RATE_eq]
        exact Nat.pow_le_pow_right (by decide) (by omega)
      refine ⟨j, le_rfl, by omega, hle, fun h => absurd h (by omega), ?_⟩
      rw [invert_scale, if_neg]
      rintro ⟨hlt, -⟩
      rw [wrapping_mul, ← pow_add, Nat.mod_eq_of_lt (pow10_lt_word (by omega))] at hlt
      omega
  | succ n ih =>
      intro j hj
      have hwrap : wrapping_mul 128 (10 ^ (2 * d)) (10 ^ j) = 10 ^ (2 * d + j) := by
        rw [wrapping_mul, ← pow_add, Nat.mod_eq_of_lt (pow10_lt_word (by omega))]
      by_cases hlt : 10 ^ (2 * d + j) < median_rate
      · -- one more round
        obtain ⟨k, hjk, hdk, hmk, hstrict, hloop⟩ := ih (j + 1) (by omega)
        refine ⟨k, by omega, hdk, hmk, fun _ => ?_, ?_⟩
        · rcases Nat.eq_or_lt_of_le hjk with heq | hlt'
          · subst heq
            simpa using hlt
          · exact hstrict hlt'
        · have hfactor : saturating_mul 128 (10 ^ j) 10 = 10 ^ (j + 1) := by
            rw [pow_succ]
            apply saturating_mul_eq
            rw [← pow_succ, wordMax]
            have := pow10_lt_word (e := j + 1) (by omega)
            omega
          have hdec : saturating_add 32 (d + j) 1 = d + (j + 1) := by
            apply saturating_add_eq
            simp only [DECIMALS, wordMax] at *
            omega
          rw [invert_scale, if_pos ⟨by rw [hwrap]; exact hlt, by omega⟩, hfactor, hdec]
          exact hloop
      · -- the loop stops here
        refine ⟨j, le_rfl, by omega, by omega, fun h => absurd h (by omega), ?_⟩
        rw [invert_scale, if_neg]
        rintro ⟨hlt', -⟩
        rw [hwrap] at hlt'
        exact hlt hlt'

/-- One rate of the inverse: scaling by `10 ^ k` and dividing `10 ^ (2 * (d + k))` is
dividing `10 ^ (2 * d + k)`, and only the final cast reduces. -/
theorem checked_invert_scaled {rate d k : ℕ} (hr : 0 < rate) (hmax : rate ≤ MAX_RATE)
    (hdk : d + k ≤ 2 * DECIMALS) :
    checked_invert_rate (saturating_mul 128 rate (10 ^ k)) (d + k)
      = some (10 ^ (2 * d + k) / rate % 2 ^ 64) := by
  have hpos : 0 < 10 ^ k := Nat.pow_pos (by decide)
  -- a rate in range has at most as many digits as are left
  have hscaled : saturating_mul 128 rate (10 ^ k) = rate * 10 ^ k := by
    apply saturating_mul_eq
    have hle : rate * 10 ^ k ≤ 10 ^ (4 * DECIMALS) := by
      calc rate * 10 ^ k ≤ 10 ^ (2 * DECIMALS) * 10 ^ (2 * DECIMALS) :=
            Nat.mul_le_mul (MAX_RATE_eq ▸ hmax) (Nat.pow_le_pow_right (by decide) (by omega))
        _ = 10 ^ (4 * DECIMALS) := by
            rw [← pow_add, show 2 * DECIMALS + 2 * DECIMALS = 4 * DECIMALS by decide]
    have := pow10_lt_word (e := 4 * DECIMALS) le_rfl
    rw [wordMax]
    omega
  have hsplit : 10 ^ (2 * (d + k)) = 10 ^ (2 * d + k) * 10 ^ k := by
    rw [← pow_add]
    congr 1
    omega
  have hne : ¬ rate * 10 ^ k = 0 := (Nat.mul_pos hr hpos).ne'
  simp only [checked_invert_rate, hscaled, if_neg hne, pow_max_value hdk, hsplit,
    Nat.mul_div_mul_right _ _ hpos, truncate]

/-- **What `inverted` computes.** For rates in range and at most `2 * DECIMALS` decimals
there is a number of decimals `d'` such that every rate `r` becomes the 64-bit cast of
`10 ^ (d + d') / r`; `d'` exceeds `d` only when the upper median forces it. -/
theorem inverted_rates_spec {rates : List ℕ} {d : ℕ} (h : InRange rates)
    (hd : d ≤ 2 * DECIMALS) :
    ∃ d', d ≤ d' ∧ d' ≤ 2 * DECIMALS ∧ upper_median rates ≤ 10 ^ (d + d')
      ∧ (d < d' → 10 ^ (d + d' - 1) < upper_median rates)
      ∧ inverted_rates rates d = (sort (rates.map fun r => 10 ^ (d + d') / r % 2 ^ 64), d') := by
  obtain ⟨k, -, hdk, hmk, hstrict, hloop⟩ := invert_scale_spec (upper_median rates) d
    (upper_median_le h) (2 * DECIMALS - d) 0 (by omega)
  rw [pow_zero, Nat.add_zero] at hloop
  have hexp : d + (d + k) = 2 * d + k := by omega
  refine ⟨d + k, by omega, hdk, by rw [hexp]; exact hmk, ?_, ?_⟩
  · intro hlt
    rw [hexp]
    exact hstrict (by omega)
  · -- the loop has found the scale; rate by rate it cancels against the larger square
    have hmedian : (sort rates).getD ((sort rates).length / 2) 0 = upper_median rates := rfl
    unfold inverted_rates
    dsimp only
    rw [hmedian, pow_max_value hd, hloop]
    simp only [if_pos hdk, List.filterMap_map, Function.comp_def, hexp, Prod.mk.injEq, and_true]
    have hmap : (sort rates).filterMap
          (fun r => checked_invert_rate (saturating_mul 128 r (10 ^ k)) (d + k))
        = (sort rates).map fun r => 10 ^ (2 * d + k) / r % 2 ^ 64 := by
      rw [← List.filterMap_eq_map]
      apply List.filterMap_congr
      intro r hr
      obtain ⟨hpos, hmax⟩ := h r (mem_sort.mp hr)
      exact checked_invert_scaled hpos hmax hdk
    rw [hmap]
    exact sort_congr ((sort_perm rates).map _)

/-- Every rate of the inverse is the quotient itself, not its 64-bit cast, at one common
number of decimals. -/
def InvertsExactly (self : QueriedExchangeRate) : Prop :=
  ∃ d', self.decimals_or_default ≤ d' ∧ d' ≤ 2 * DECIMALS ∧ self.inverted.decimals = some d'
    ∧ self.inverted.rates = sort (self.rates.map fun r => 10 ^ (self.decimals_or_default + d') / r)

/-- Whether a quotient fits in a word is decided at the original number of decimals: where
there are more of them, every quotient fits. -/
theorem quotient_fits_iff {d d' r : ℕ} (hdd' : d ≤ d')
    (hraised : d < d' → d + d' ≤ 2 * DECIMALS) (hpos : 0 < r) :
    10 ^ (d + d') / r < 2 ^ 64 ↔ 10 ^ (2 * d) < 2 ^ 64 * r := by
  rcases Nat.eq_or_lt_of_le hdd' with heq | hlt
  · rw [← heq, ← Nat.two_mul, Nat.div_lt_iff_lt_mul hpos]
  · -- both sides hold: no power involved exceeds `10 ^ 18`
    have hbig : (10 : ℕ) ^ (d + d') ≤ 10 ^ (2 * DECIMALS) :=
      Nat.pow_le_pow_right (by decide) (hraised hlt)
    have hsmall : (10 : ℕ) ^ (2 * d) ≤ 10 ^ (2 * DECIMALS) :=
      Nat.pow_le_pow_right (by decide) (by have := hraised hlt; omega)
    have hword : (10 : ℕ) ^ (2 * DECIMALS) < 2 ^ 64 := by decide
    have hdiv : 10 ^ (d + d') / r ≤ 10 ^ (d + d') := Nat.div_le_self _ _
    have hmul : 2 ^ 64 ≤ 2 ^ 64 * r := Nat.le_mul_of_pos_right _ hpos
    exact ⟨fun _ => by omega, fun _ => by omega⟩

/-- **When an inversion is exact.** Where the inversion needs more decimals the quotients
fit anyway, so only the square of the scale against the rates themselves decides. -/
theorem inverts_exactly_iff {self : QueriedExchangeRate} (h : InRange self.rates)
    (hd : self.decimals_or_default ≤ 2 * DECIMALS) :
    self.InvertsExactly
      ↔ ∀ r ∈ self.rates, 10 ^ (2 * self.decimals_or_default) < 2 ^ 64 * r := by
  obtain ⟨d', hdd', hd', -, hstrict, hinv⟩ := inverted_rates_spec h hd
  set d := self.decimals_or_default with hddef
  have hrates : self.inverted.rates = sort (self.rates.map fun r => 10 ^ (d + d') / r % 2 ^ 64) := by
    show (inverted_rates self.rates d).1 = _
    rw [hinv]
  have hdec : self.inverted.decimals = some d' := by
    show some (inverted_rates self.rates d).2 = _
    rw [hinv]
  have hum := upper_median_le h
  -- more decimals than before means a large median, and then no quotient is large
  have hraised : d < d' → d + d' ≤ 2 * DECIMALS := by
    intro hlt
    by_contra hgt
    have hle : 10 ^ (2 * DECIMALS) ≤ 10 ^ (d + d' - 1) :=
      Nat.pow_le_pow_right (by decide) (by omega)
    have := hstrict hlt
    rw [MAX_RATE_eq] at hum
    omega
  have hfits : ∀ r ∈ self.rates, 10 ^ (d + d') / r < 2 ^ 64 ↔ 10 ^ (2 * d) < 2 ^ 64 * r :=
    fun r hr => quotient_fits_iff hdd' hraised (h r hr).1
  constructor
  · -- an exact inverse consists of casts, which are below `2 ^ 64`
    rintro ⟨e, -, -, hedec, herates⟩
    have hee : e = d' := Option.some.inj (hedec.symm.trans hdec)
    subst hee
    intro r hr
    rw [← hfits r hr]
    have hmem : 10 ^ (d + e) / r ∈ self.inverted.rates := by
      rw [herates, mem_sort]
      exact List.mem_map_of_mem hr
    rw [hrates, mem_sort, List.mem_map] at hmem
    obtain ⟨r', -, heq⟩ := hmem
    rw [← heq]
    exact Nat.mod_lt _ (by decide)
  · -- no cast reduces
    intro hall
    refine ⟨d', hdd', hd', hdec, ?_⟩
    rw [hrates]
    refine congrArg sort (List.map_congr_left fun r hr => ?_)
    exact Nat.mod_eq_of_lt ((hfits r hr).mpr (hall r hr))

/-! ## Division by the USDT unit rate

USDT is in the cache as the rate `1`. A pair with USDT is composed by the same division as any
other, and these lemmas say that the division then changes nothing. -/

/-- `USDT/USDT`: the rate the cache answers for USDT. -/
def usdt_unit (timestamp : ℕ) : QueriedExchangeRate :=
  new usdt_asset usdt_asset timestamp [RATE_UNIT] 0 0 none

theorem usdt_unit_rates (timestamp : ℕ) : (usdt_unit timestamp).rates = [RATE_UNIT] := by
  show sort ([RATE_UNIT].filter (retains (median [RATE_UNIT]))) = [RATE_UNIT]
  decide +kernel

theorem usdt_unit_inverted (timestamp : ℕ) :
    (usdt_unit timestamp).inverted.rates = [RATE_UNIT]
      ∧ (usdt_unit timestamp).inverted.decimals_or_default = DECIMALS := by
  constructor
  · show (inverted_rates (sort ([RATE_UNIT].filter (retains (median [RATE_UNIT]))))
      DECIMALS).1 = _
    decide +kernel
  · show (inverted_rates (sort ([RATE_UNIT].filter (retains (median [RATE_UNIT]))))
      DECIMALS).2 = _
    decide +kernel

/-- The products with one rate are the rates themselves, scaled. -/
theorem all_products_singleton {rates : List ℕ} {u : ℕ} (hsorted : rates.Pairwise (· ≤ ·))
    (hword : ∀ r ∈ rates, r * u ≤ wordMax 128) :
    all_products rates [u] = rates.map (· * u) := by
  have hflat : (rates.flatMap fun own_value =>
        [u].map fun other_value => saturating_mul 128 own_value other_value)
      = rates.map (· * u) := by
    rw [List.map_eq_flatMap]
    apply List.flatMap_congr
    intro r hr
    rw [List.map_cons, List.map_nil, saturating_mul_eq (hword r hr)]
  rw [all_products, hflat]
  exact sort_eq_self (pairwise_map_of_monotone (monotone_mul u) hsorted)

/-- `reduce_decimals` does nothing to a median in range. -/
theorem reduce_decimals_of_le {median_rate max_value : ℕ} (h : median_rate ≤ max_value) :
    ∀ decimals, reduce_decimals median_rate max_value 1 decimals = (1, decimals)
  | 0 => rfl
  | decimals + 1 => by rw [reduce_decimals, Nat.div_one, if_neg (not_lt.mpr h)]

/-- **Composing with the unit rate is the identity** on non-empty sorted rates in range:
none is dropped and the number of decimals stays what it was. -/
theorem mul_rates_unit {rates : List ℕ} {u d : ℕ} (hsorted : rates.Pairwise (· ≤ ·))
    (hrange : InRange rates) (hne : rates ≠ []) (hunit : 0 < u)
    (hword : ∀ r ∈ rates, r * u ≤ wordMax 128) (hden : wrapping_pow 128 10 d = u)
    (hd : d ≤ 2 * DECIMALS) : mul_rates rates [u] d d = (rates, d) := by
  have hpos : rates.length / 2 < rates.length :=
    Nat.div_lt_self (List.length_pos_iff.mpr hne) (by decide)
  have hget : (rates.map (· * u)).getD (rates.length / 2) 0 = rates[rates.length / 2] * u := by
    rw [List.getD_eq_getElem _ _ (by rw [List.length_map]; exact hpos), List.getElem_map]
  obtain ⟨hmid, hmidle⟩ := hrange _ (List.getElem_mem hpos)
  -- the scale of the products is `u` itself, and dividing by it gives the rates back
  have hraise : raise_decimals (rates[rates.length / 2] * u) u d = (u, d) := by
    rw [raise_decimals, if_neg (not_lt.mpr (Nat.le_mul_of_pos_left _ hmid))]
  have hback : (rates.map (· * u)).map (· / u) = rates := by
    rw [List.map_map]
    conv_rhs => rw [← List.map_id rates]
    exact List.map_congr_left fun r _ => Nat.mul_div_cancel r hunit
  have hkeep : (rates.map (· / 1)).filter
      (fun final_rate => decide (final_rate ≤ MAX_RATE) && decide (0 < final_rate)) = rates := by
    rw [show rates.map (· / 1) = rates by simp only [Nat.div_one, List.map_id']]
    apply List.filter_eq_self.mpr
    intro r hr
    rw [Bool.and_eq_true, decide_eq_true_eq, decide_eq_true_eq]
    exact ⟨(hrange r hr).2, (hrange r hr).1⟩
  have hkept : 0 < u ∧ d ≤ 2 * DECIMALS := ⟨hunit, hd⟩
  have hhalf : ¬ rates.length < (rates.length + 1) / 2 := by omega
  unfold mul_rates
  simp only [all_products_singleton hsorted hword, List.length_map, hget, Nat.min_self,
    Nat.max_self, hden, hraise, Nat.mul_div_cancel _ hunit, reduce_decimals_of_le hmidle,
    hback, if_pos hkept, hkeep, if_neg hhalf]

/-- A rate against USDT divided by the unit rate keeps its rates, at `DECIMALS`
decimals. -/
theorem div_usdt_unit {self : QueriedExchangeRate} (hsorted : self.rates.Pairwise (· ≤ ·))
    (hrange : InRange self.rates) (hne : self.rates ≠ [])
    (hdec : self.decimals_or_default = DECIMALS) (timestamp : ℕ) :
    (self / usdt_unit timestamp).rates = self.rates
      ∧ (self / usdt_unit timestamp).decimals = some DECIMALS := by
  obtain ⟨hurates, hudec⟩ := usdt_unit_inverted timestamp
  have hmul : mul_rates self.rates [RATE_UNIT] DECIMALS DECIMALS = (self.rates, DECIMALS) :=
    mul_rates_unit hsorted hrange hne (by decide)
      (fun r hr => Nat.le_trans (Nat.mul_le_mul_right _ (hrange r hr).2)
        MAX_RATE_mul_RATE_UNIT_le) (by decide) (by decide)
  constructor
  · show (mul_rates self.rates (usdt_unit timestamp).inverted.rates self.decimals_or_default
      (usdt_unit timestamp).inverted.decimals_or_default).1 = _
    rw [hurates, hudec, hdec, hmul]
  · show some (mul_rates self.rates (usdt_unit timestamp).inverted.rates
      self.decimals_or_default (usdt_unit timestamp).inverted.decimals_or_default).2 = _
    rw [hurates, hudec, hdec, hmul]

end QueriedExchangeRate

end Xrc
