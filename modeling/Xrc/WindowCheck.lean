/-
What `validate` means. The code slides a window of `n / 2 + 1` positions over the rates
of a composed rate and compares the two ends of each; said without positions, it looks
for `n / 2 + 1` of the rates whose extremes agree up to a tenth (`AgreeingMajority`).

That the window check finds such a group wherever it sits rests on the order of the
rates, which `new`, `mul` and `div` establish for any operands.
-/
import Xrc.RateSpec

set_option autoImplicit false

namespace Xrc

open Machine OrderStatistics

/-- `n / 2 + 1` of the `n` rates, with extremes `lo` and `hi` that agree up to one tenth
of the smaller one. -/
structure AgreeingMajority (rates group : List ℕ) (lo hi : ℕ) : Prop where
  subperm : group.Subperm rates
  length_eq : group.length = rates.length / 2 + 1
  min_eq : group.min? = some lo
  max_eq : group.max? = some hi
  narrow : hi - lo ≤ lo / RATE_DEVIATION_DIVISOR

namespace AgreeingMajority

variable {rates group : List ℕ} {lo hi : ℕ}

theorem bounds (h : AgreeingMajority rates group lo hi) : ∀ x ∈ group, lo ≤ x ∧ x ≤ hi := by
  intro x hx
  exact ⟨(List.min?_eq_some_iff.mp h.min_eq).2 x hx, (List.max?_eq_some_iff.mp h.max_eq).2 x hx⟩

theorem lo_le_hi (h : AgreeingMajority rates group lo hi) : lo ≤ hi :=
  (h.bounds lo (List.min?_eq_some_iff.mp h.min_eq).1).2

theorem withinTenth (h : AgreeingMajority rates group lo hi) : WithinTenth group := by
  intro x hx y hy
  have hx' := h.bounds x hx
  have hy' := h.bounds y hy
  calc x - y ≤ hi - lo := by omega
    _ ≤ lo / RATE_DEVIATION_DIVISOR := h.narrow
    _ ≤ y / RATE_DEVIATION_DIVISOR := Nat.div_le_div_right hy'.1

/-- More than half of the rates lie between the extremes of the group. -/
theorem length_lt (h : AgreeingMajority rates group lo hi) :
    rates.length < 2 * countIn lo hi rates := by
  have hall : countIn lo hi group = group.length :=
    List.countP_eq_length.mpr fun x hx => by simpa using h.bounds x hx
  have hle : countIn lo hi group ≤ countIn lo hi rates := h.subperm.countP_le _
  have hlength := h.length_eq
  omega

/-- **The median lies within the extremes of every such group.** A majority leaves too few values
on either side of its range for a middle one to lie there. -/
theorem median_mem (h : AgreeingMajority rates group lo hi) (hhi : hi < 2 ^ 63) :
    lo ≤ median rates ∧ median rates ≤ hi :=
  median_mem_interval h.lo_le_hi hhi h.length_lt

end AgreeingMajority

/-- A majority within a tenth contains a smallest majority within a tenth. So it is enough to look
at windows of one length in ascending order, which is what the code does. -/
theorem majorityWithinTenth_iff {rates : List ℕ} :
    MajorityWithinTenth rates ↔ ∃ group lo hi, AgreeingMajority rates group lo hi := by
  constructor
  · rintro ⟨group, hsub, hlen, htenth⟩
    -- as many members of the group as the window has positions
    let window := group.take (rates.length / 2 + 1)
    have hwindow : window.length = rates.length / 2 + 1 := by
      rw [List.length_take]
      omega
    have hne : window ≠ [] := List.ne_nil_of_length_pos (by omega)
    obtain ⟨lo, hlo⟩ := Option.ne_none_iff_exists'.mp (mt List.min?_eq_none_iff.mp hne)
    obtain ⟨hi, hhi⟩ := Option.ne_none_iff_exists'.mp (mt List.max?_eq_none_iff.mp hne)
    refine ⟨window, lo, hi, (List.take_sublist _ _).subperm.trans hsub, hwindow, hlo, hhi, ?_⟩
    apply htenth
    · exact List.mem_of_mem_take (List.max?_eq_some_iff.mp hhi).1
    · exact List.mem_of_mem_take (List.min?_eq_some_iff.mp hlo).1
  · rintro ⟨group, lo, hi, h⟩
    refine ⟨group, h.subperm, ?_, h.withinTenth⟩
    rw [h.length_eq]
    omega

namespace QueriedExchangeRate

/-- What `validate` means for a rate: its rates ascend, so that no subtraction of the
window check underflows; it accepts exactly when the median is in range and an agreeing
majority exists; and every agreeing majority surrounds the median. -/
structure ValidateMeans (self : QueriedExchangeRate) : Prop where
  ascending : self.rates.Pairwise (· ≤ ·)
  no_underflow : ∀ last (_ : self.rates.length / 2 ≤ last) (_ : last < self.rates.length),
    self.rates[last - self.rates.length / 2] ≤ self.rates[last]
      ∧ wrapping_sub 64 self.rates[last] self.rates[last - self.rates.length / 2]
        = self.rates[last] - self.rates[last - self.rates.length / 2]
  ok_iff : (∃ rate, self.validate = .ok rate) ↔ (0 < median self.rates
    ∧ median self.rates ≤ RATE_UNIT * RATE_UNIT)
    ∧ ∃ group lo hi, AgreeingMajority self.rates group lo hi
  median_mem : ∀ group lo hi, AgreeingMajority self.rates group lo hi →
    lo ≤ median self.rates ∧ median self.rates ≤ hi

/-- Sorted rates in range are validated as `ValidateMeans` says. -/
theorem validateMeans_of_pairwise {self : QueriedExchangeRate}
    (hsorted : self.rates.Pairwise (· ≤ ·)) (hrange : InRange self.rates) :
    ValidateMeans self := by
  have hword : ∀ r ∈ self.rates, r < 2 ^ 63 := by
    intro r hr
    exact lt_of_le_of_lt (hrange r hr).2 MAX_RATE_lt
  have hword' : ∀ r ∈ self.rates, r < 2 ^ 64 := by
    intro r hr
    exact lt_trans (hword r hr) (by decide)
  -- no underflow, the equivalence, and that the group has the median
  refine ⟨hsorted, ?_, ?_, ?_⟩
  · intro last hlo hhi
    have hmono := getElem_mono hsorted (Nat.sub_le last (self.rates.length / 2)) hhi
    exact ⟨hmono, wrapping_sub_eq hmono (hword' _ (List.getElem_mem hhi))⟩
  · have hok : (∃ rate, self.validate = .ok rate) ↔ self.validate = .ok self := by
      constructor
      · rintro ⟨rate, hrate⟩
        rw [hrate, eq_of_validate_ok hrate]
      · intro hself
        exact ⟨self, hself⟩
    rw [hok, validate_ok_iff_acceptable hsorted hword', ← majorityWithinTenth_iff]
    constructor
    · intro h
      exact ⟨⟨h.median_pos, h.median_le⟩, h.majority⟩
    · rintro ⟨⟨hpos, hle⟩, hmajority⟩
      exact ⟨hpos, hle, hmajority⟩
  · intro group lo hi h
    refine h.median_mem (hword hi ?_)
    exact h.subperm.subset (List.max?_eq_some_iff.mp h.max_eq).1

/-- **What `validate` means**, for whatever `new`, `mul` and `div` return. -/
theorem validate_means :
    (∀ base_asset quote_asset timestamp rates queried received forex_timestamp,
      ValidateMeans (new base_asset quote_asset timestamp rates queried received
        forex_timestamp))
      ∧ (∀ self other_rate : QueriedExchangeRate, ValidateMeans (self * other_rate))
      ∧ ∀ self other_rate : QueriedExchangeRate, ValidateMeans (self / other_rate) := by
  refine ⟨?_, ?_, ?_⟩
  · intro base_asset quote_asset timestamp rates queried received forex_timestamp
    exact validateMeans_of_pairwise (new_rates_pairwise _ _ _ _ _ _ _)
      (new_rates_inRange _ _ _ _ _ _ _)
  · intro self other_rate
    exact validateMeans_of_pairwise (mul_rates_pairwise _ _) (mul_rates_inRange _ _)
  · -- a quotient is a product with an inverse
    intro self other_rate
    exact validateMeans_of_pairwise (mul_rates_pairwise self other_rate.inverted)
      (mul_rates_inRange self other_rate.inverted)

end QueriedExchangeRate

end Xrc
