/-
The median the code computes against the exact one. The exact median averages the two
middle values in the rationals; `median` rounds the average down and takes the sum of the
two in a word, which wraps from `2 ^ 64` on. The rates it is taken of are not filtered yet,
and a cast of an exchange's answer can be any word.

`median_eq` is the closed form where nothing wraps, `median_in_set_eq` the one of
`median_in_set`, and `new_window_iff` says for which raw rates the constructor filters
around the exact median.
-/
import Xrc.Ranks
import Xrc.RateSpec
import Mathlib.Algebra.Order.Floor.Semifield
import Mathlib.Data.Rat.Floor

set_option autoImplicit false

namespace Xrc

open Machine OrderStatistics QueriedExchangeRate

/-! ## The two middle values

The exact median is made of two order statistics, and those are handled by rank, without
sorting: `isRanked_lower_median` and `isRanked_upper_median` turn every claim about them into a
comparison of counts. -/

/-- The lower one of the two middle values; `upper_median` is the other one, and they are
the same for an odd number of values. -/
def lower_median (values : List ℕ) : ℕ := (sort values).getD ((values.length - 1) / 2) 0

/-- The exact median, zero when there are no values. -/
def exact_median (values : List ℕ) : ℚ := ((lower_median values : ℚ) + upper_median values) / 2

/-- The exact median, rounded down. -/
theorem floor_exact_median (values : List ℕ) :
    ⌊exact_median values⌋₊ = (lower_median values + upper_median values) / 2 := by
  have hcast : exact_median values
      = ((lower_median values + upper_median values : ℕ) : ℚ) / (2 : ℕ) := by
    rw [exact_median]
    push_cast
    rfl
  rw [hcast, Nat.floor_div_eq_div]

theorem upper_median_eq (values : List ℕ) :
    upper_median values = (sort values).getD (values.length / 2) 0 := by
  rw [upper_median, length_sort]

theorem isRanked_sort {values : List ℕ} {k : ℕ} (hk : k < values.length) :
    IsRanked values k ((sort values).getD k 0) := by
  have hk' : k < (sort values).length := by rwa [length_sort]
  rw [List.getD_eq_getElem _ _ hk']
  exact (isRanked_getElem (sort_pairwise values) hk').perm (sort_perm values)

theorem isRanked_lower_median {values : List ℕ} (hne : values ≠ []) :
    IsRanked values ((values.length - 1) / 2) (lower_median values) := by
  have hpos : 0 < values.length := List.length_pos_iff.mpr hne
  exact isRanked_sort (by omega)

theorem isRanked_upper_median {values : List ℕ} (hne : values ≠ []) :
    IsRanked values (values.length / 2) (upper_median values) := by
  have hpos : 0 < values.length := List.length_pos_iff.mpr hne
  rw [upper_median_eq]
  exact isRanked_sort (by omega)

theorem lower_median_le_upper_median (values : List ℕ) :
    lower_median values ≤ upper_median values := by
  by_cases hne : values = []
  · subst hne
    exact le_rfl
  · exact (isRanked_lower_median hne).le (isRanked_upper_median hne) (by omega)

theorem lower_median_eq_upper_median {values : List ℕ} (hodd : values.length % 2 = 1) :
    lower_median values = upper_median values := by
  have hsame : (values.length - 1) / 2 = values.length / 2 := by omega
  rw [lower_median, upper_median_eq, hsame]

/-- The middle values only depend on the multiset. -/
theorem middle_congr {l₁ l₂ : List ℕ} (h : l₁.Perm l₂) :
    lower_median l₁ = lower_median l₂ ∧ upper_median l₁ = upper_median l₂ := by
  rw [lower_median, lower_median, upper_median_eq, upper_median_eq, sort_congr h, h.length_eq]
  exact ⟨rfl, rfl⟩

/-- Both middle values lie in every interval that holds a majority. -/
theorem middle_mem_interval {values : List ℕ} {lo hi : ℕ} (h : lo ≤ hi)
    (hmaj : values.length < 2 * countIn lo hi values) :
    (lo ≤ lower_median values ∧ lower_median values ≤ hi)
      ∧ lo ≤ upper_median values ∧ upper_median values ≤ hi := by
  have hne : values ≠ [] := by
    rintro rfl
    simp only [countIn, List.countP_nil, List.length_nil] at hmaj
    omega
  have hle : countIn lo hi values ≤ values.length := List.countP_le_length
  exact ⟨(isRanked_lower_median hne).mem_interval h (by omega) (by omega),
    (isRanked_upper_median hne).mem_interval h (by omega) (by omega)⟩

/-- Raising values raises the middle ones. -/
theorem middle_mono {l l' : List ℕ} (h : List.Forall₂ (· ≤ ·) l l') :
    lower_median l ≤ lower_median l' ∧ upper_median l ≤ upper_median l' := by
  have hlen := h.length_eq
  by_cases hne : l = []
  · subst hne
    have hnil : l' = [] := List.length_eq_zero_iff.mp hlen.symm
    subst hnil
    exact ⟨le_rfl, le_rfl⟩
  · have hne' : l' ≠ [] := by
      rintro rfl
      exact hne (List.length_eq_zero_iff.mp hlen)
    have hlower' := isRanked_lower_median hne'
    have hupper' := isRanked_upper_median hne'
    rw [← hlen] at hlower' hupper'
    exact ⟨(isRanked_lower_median hne).mono h hlower', (isRanked_upper_median hne).mono h hupper'⟩

/-! ## What the code computes of them

For an odd number of values the code returns the middle one. For an even number it takes the sum
in a word, so that two values beyond `2 ^ 63` average to something small; on all other values it
is the exact median rounded down. -/

/-- `median` takes the sum of an even number of values' middle two, and it is no word. The sum
wraps around then, and the result is far from the middle; rates in range are too small for that.
-/
def MedianOverflows (values : List ℕ) : Prop :=
  values.length % 2 = 0 ∧ 2 ^ 64 ≤ lower_median values + upper_median values

instance (values : List ℕ) : Decidable (MedianOverflows values) :=
  inferInstanceAs (Decidable (_ ∧ _))

/-- **The median is the exact one, rounded down**, unless its sum overflows. For an odd number of
values the two middle ones are the same, and nothing is added up. -/
theorem median_eq {values : List ℕ} (h : ¬ MedianOverflows values) :
    median values = (lower_median values + upper_median values) / 2 := by
  by_cases hodd : values.length % 2 = 1
  · rw [median_odd hodd, ← upper_median_eq, lower_median_eq_upper_median hodd]
    omega
  · have heven : values.length % 2 = 0 := by omega
    have hsum : lower_median values + upper_median values < 2 ^ 64 := by
      by_contra hge
      exact h ⟨heven, not_lt.mp hge⟩
    by_cases hne : values = []
    · subst hne
      rfl
    · have hlower : values.length / 2 - 1 = (values.length - 1) / 2 := by omega
      rw [median_even hne heven, ← upper_median_eq, hlower]
      exact congrArg (· / 2) (wrapping_add_eq hsum)

/-- Where the sum overflows, the average of what is left of it is taken. -/
theorem median_of_overflow {values : List ℕ} (h : MedianOverflows values) :
    median values = wrapping_add 64 (lower_median values) (upper_median values) / 2 := by
  obtain ⟨heven, hsum⟩ := h
  have hne : values ≠ [] := by
    rintro rfl
    exact absurd hsum (by decide)
  have hlower : values.length / 2 - 1 = (values.length - 1) / 2 := by omega
  rw [median_even hne heven, ← upper_median_eq, hlower]
  rfl

/-- Small values do not overflow. -/
theorem not_medianOverflows {values : List ℕ} (h : ∀ v ∈ values, v < 2 ^ 63) :
    ¬ MedianOverflows values := by
  rintro ⟨-, hsum⟩
  by_cases hne : values = []
  · subst hne
    exact absurd hsum (by decide)
  · have hlower := h _ (isRanked_lower_median hne).mem
    have hupper := h _ (isRanked_upper_median hne).mem
    omega

/-- **The value `median_in_set` chooses**: the lower middle value, unless the middle values
differ by an even amount and the upper one comes first in the list. -/
theorem median_in_set_eq {values : List ℕ} (h : ∀ v ∈ values, v < 2 ^ 63) :
    median_in_set values
      = if (lower_median values + upper_median values) % 2 = 1
          ∨ values.idxOf (lower_median values) ≤ values.idxOf (upper_median values) then
          lower_median values
        else upper_median values := by
  have hmedian := median_eq (not_medianOverflows h)
  have hmid := lower_median_le_upper_median values
  by_cases hodd : values.length % 2 = 1
  · -- the only middle value is the median
    have hscan : median_in_set values = median values := by
      have hnot : ¬ values.length % 2 = 0 := by omega
      simp only [median_in_set, hnot, if_false]
    have hsame := lower_median_eq_upper_median hodd
    rw [hscan, hmedian, hsame, ite_self]
    omega
  have heven : values.length % 2 = 0 := by omega
  by_cases hne : values = []
  · subst hne
    rfl
  -- the scan ends at the first of the values that are closest to the median
  have hscan : median_in_set values
      = (values.foldl (closer fun value => abs_diff value (median values)) (0, wordMax 64)).1 := by
    simp only [median_in_set, heven, if_true]
    rfl
  have hclose : ∀ v ∈ values, abs_diff v (median values) < wordMax 64 := by
    intro v hv
    have hvlt := h v hv
    have hulower := h _ (isRanked_lower_median hne).mem
    have huupper := h _ (isRanked_upper_median hne).mem
    rw [hmedian, abs_diff, wordMax]
    split <;> omega
  rw [hscan, foldl_closer_eq_argmin _ _ _ hclose]
  have hlower := isRanked_lower_median hne
  have hupper := isRanked_upper_median hne
  have hnext : values.length / 2 = (values.length - 1) / 2 + 1 := by
    have hpos : 0 < values.length := List.length_pos_iff.mpr hne
    omega
  rw [hnext] at hupper
  have hsplit : ∀ v ∈ values, v ≤ lower_median values ∨ upper_median values ≤ v :=
    fun v hv => hlower.le_or_le hupper hv
  -- which one that is depends on the distance between the middle values
  have hfirst : values.argmin (fun value => abs_diff value (median values))
      = some (if (lower_median values + upper_median values) % 2 = 1
          ∨ values.idxOf (lower_median values) ≤ values.idxOf (upper_median values) then
          lower_median values
        else upper_median values) := by
    rw [List.argmin_eq_some_iff]
    split
    · rename_i hchosen
      refine ⟨hlower.mem, ?_, ?_⟩
      · intro v hv
        rw [hmedian, abs_diff, abs_diff]
        rcases hsplit v hv with hle | hge
        · split <;> split <;> omega
        · split <;> split <;> omega
      · intro v hv hle
        rw [hmedian, abs_diff, abs_diff] at hle
        -- a value as close is one of the two middle ones
        have hor : v = lower_median values ∨ v = upper_median values
            ∧ (lower_median values + upper_median values) % 2 = 0 := by
          rcases hsplit v hv with hle' | hge'
          · left
            split at hle <;> split at hle <;> omega
          · by_cases heq : v = lower_median values
            · exact Or.inl heq
            · right
              split at hle <;> split at hle <;> omega
        rcases hor with rfl | ⟨rfl, hsum⟩
        · exact le_rfl
        · rcases hchosen with hbad | hbefore
          · omega
          · exact hbefore
    · rename_i hchosen
      rw [not_or, not_le] at hchosen
      obtain ⟨hsum, hbefore⟩ := hchosen
      refine ⟨hupper.mem, ?_, ?_⟩
      · intro v hv
        rw [hmedian, abs_diff, abs_diff]
        rcases hsplit v hv with hle | hge
        · split <;> split <;> omega
        · split <;> split <;> omega
      · intro v hv hle
        rw [hmedian, abs_diff, abs_diff] at hle
        have hor : v = lower_median values ∨ v = upper_median values := by
          rcases hsplit v hv with hle' | hge'
          · left
            split at hle <;> split at hle <;> omega
          · right
            split at hle <;> split at hle <;> omega
        rcases hor with rfl | rfl
        · exact hbefore.le
        · exact le_rfl
  rw [hfirst]

/-- What is chosen is one of the middle values. -/
theorem median_in_set_middle {values : List ℕ} (h : ∀ v ∈ values, v < 2 ^ 63) :
    median_in_set values = lower_median values ∨ median_in_set values = upper_median values := by
  rw [median_in_set_eq h]
  split
  · exact Or.inl rfl
  · exact Or.inr rfl

/-- The median in a set is one of the set. -/
theorem median_in_set_mem {values : List ℕ} (h : ∀ v ∈ values, v < 2 ^ 63) (hne : values ≠ []) :
    median_in_set values ∈ values := by
  rcases median_in_set_middle h with hlower | hupper
  · rw [hlower]
    exact (isRanked_lower_median hne).mem
  · rw [hupper]
    exact (isRanked_upper_median hne).mem

/-! ## The filter of the constructor

The raw answers of the exchanges are the only values in this place that can be that large. After
an overflow the filter keeps what is close to the wrong median, so the rates that are kept are
the right ones just when that is nothing, since nothing can be close to the right one. -/

namespace QueriedExchangeRate

/-- The positive rates of at most `RATE_UNIT * RATE_UNIT` within a fifth of `m`, in ascending
order. -/
def window_of (rates : List ℕ) (m : ℕ) : List ℕ :=
  sort (rates.filter fun r => decide (0 < r ∧ r ≤ RATE_UNIT * RATE_UNIT
    ∧ abs_diff r m ≤ m / MAX_RELATIVE_DIFFERENCE_DIVISOR))

section New

variable (base_asset quote_asset : Asset) (timestamp : ℕ) (rates : List ℕ)
  (queried received : ℕ) (forex_timestamp : Option ℕ)

theorem new_rates_eq_window : (new base_asset quote_asset timestamp rates queried received
    forex_timestamp).rates = window_of rates (median rates) := by
  have hsame : retains (median rates) = fun r => decide (0 < r ∧ r ≤ RATE_UNIT * RATE_UNIT
      ∧ abs_diff r (median rates) ≤ median rates / MAX_RELATIVE_DIFFERENCE_DIVISOR) := by
    funext r
    rw [Bool.eq_iff_iff, retains_iff, decide_eq_true_eq]
    rfl
  rw [new_rates, hsame, window_of]

/-- Around a median from `2 ^ 63` on there is no rate to keep. -/
theorem window_eq_nil {rates : List ℕ} {m : ℕ} (hm : 2 ^ 63 ≤ m) :
    window_of rates m = [] := by
  have hnone : (rates.filter fun r => decide (0 < r ∧ r ≤ RATE_UNIT * RATE_UNIT
      ∧ abs_diff r m ≤ m / MAX_RELATIVE_DIFFERENCE_DIVISOR)) = [] := by
    apply List.filter_eq_nil_iff.mpr
    intro r _
    rw [decide_eq_true_eq]
    rintro ⟨-, hle, hnear⟩
    rw [abs_diff_le_iff] at hnear
    simp only [RATE_UNIT, MAX_RELATIVE_DIFFERENCE_DIVISOR] at hle hnear
    omega
  rw [window_of, hnone]
  rfl

/-- **When the outlier filter uses the exact median.** The rates are filtered around it, with no
overflow on the way, exactly when their number is odd or the two middle ones sum to a word. Where
they do not, the rates that are kept are still the right ones, none, exactly when none is within a
fifth of what the overflow left of the median.

Only the sum of the two middle rates can overflow. When it does, the exact median is beyond the
largest rate, so the right filter keeps nothing, and what the overflow left of it may keep
something; that is the second equivalence. -/
theorem new_window_iff :
    ((new base_asset quote_asset timestamp rates queried received forex_timestamp).rates
          = window_of rates ⌊exact_median rates⌋₊
        ∧ ¬ MedianOverflows rates
      ↔ rates.length % 2 = 1 ∨ lower_median rates + upper_median rates < 2 ^ 64)
      ∧ ((new base_asset quote_asset timestamp rates queried received forex_timestamp).rates
          = window_of rates ⌊exact_median rates⌋₊
        ↔ (rates.length % 2 = 1 ∨ lower_median rates + upper_median rates < 2 ^ 64)
          ∨ window_of rates
              (wrapping_add 64 (lower_median rates) (upper_median rates) / 2) = []) := by
  have hfits : ¬ MedianOverflows rates
      ↔ rates.length % 2 = 1 ∨ lower_median rates + upper_median rates < 2 ^ 64 := by
    unfold MedianOverflows
    omega
  rw [new_rates_eq_window, floor_exact_median, ← hfits]
  by_cases hover : MedianOverflows rates
  · -- the exact median is out of range, so it keeps nothing
    have hnil : window_of rates ((lower_median rates + upper_median rates) / 2) = [] := by
      apply window_eq_nil
      have hsum := hover.2
      omega
    rw [hnil, median_of_overflow hover]
    exact ⟨⟨And.right, fun h => absurd hover h⟩, ⟨Or.inr, fun h => h.resolve_left (not_not.mpr hover)⟩⟩
  · rw [median_eq hover]
    exact ⟨⟨And.right, fun h => ⟨rfl, h⟩⟩, ⟨fun _ => Or.inl hover, fun _ => rfl⟩⟩

end New

/-- The answers of four exchanges: one dollar, two beyond `2 ^ 63` and one beyond every word.
The sum of the middle two wraps to about two dollars, and the one dollar is kept. -/
theorem overflowing_median_keeps_a_rate :
    ¬ ∀ rates : List ℕ, (∀ r ∈ rates, r < 2 ^ 64) →
      (new usdt_asset usd_asset 0 rates rates.length rates.length none).rates
          = window_of rates ⌊exact_median rates⌋₊
        ∧ ¬ MedianOverflows rates := by
  intro h
  have hkept := (h [1_000_000_000, 2 ^ 63, 2 ^ 63 + 2_048_000_000, 2 ^ 64 - 1]
    (by decide +kernel)).1
  rw [floor_exact_median] at hkept
  exact absurd hkept (by decide +kernel)

end QueriedExchangeRate

end Xrc
