/-
The standard deviation of rates. Beside the function of the release build stands the one with
every operation checked; on up to a thousand rates, none above `RATE_UNIT * RATE_UNIT`, they
agree, and the result is the root of the sample variance up to what the rounded mean adds.
-/
import Xrc.SquareRoot
import Xrc.Variance
import Mathlib.Algebra.BigOperators.Ring.Finset
import Mathlib.Algebra.Group.Action.Defs
import Mathlib.Data.Nat.Cast.Order.Field
import Mathlib.Data.Rat.Cast.Order

set_option autoImplicit false

namespace Xrc

open Machine

/-! ## The checked computation

The source sums in 128 bits without a check and saturates in between. In the checked version
every operation that could lose something returns nothing instead. -/

/-- The sum of words, where no addition of it overflows. -/
def checked_sum (w : ℕ) (values : List ℕ) : Option ℕ := values.foldlM (checked_add w) 0

/-- The square of a difference, where neither it nor the mean leaves the range of an `i128`. -/
def squared_deviation_checked (mean rate : ℕ) : Option ℕ :=
  if mean < 2 ^ 127 ∧ abs_diff rate mean ^ 2 < 2 ^ 127 then some (abs_diff rate mean ^ 2)
  else none

/-- The standard deviation, none where an operation overflows or saturates. -/
def standard_deviation_checked (rates : List ℕ) : Option ℕ :=
  if rates.length < 2 then some 0
  else do
    let sum ← checked_sum 128 rates
    let squares ← rates.mapM (squared_deviation_checked (sum / rates.length))
    let total ← checked_sum 128 squares
    integer_sqrt_checked 64 (total / (rates.length - 1))

theorem foldlM_checked_add_eq {w : ℕ} (values : List ℕ) : ∀ {a : ℕ}, a + values.sum < 2 ^ w →
    values.foldlM (checked_add w) a = some (a + values.sum) := by
  induction values with
  | nil =>
      intro a _
      rfl
  | cons value values ih =>
      intro a h
      rw [List.sum_cons, ← Nat.add_assoc] at h ⊢
      rw [List.foldlM_cons, checked_add_eq (by omega)]
      exact ih h

theorem checked_sum_eq {w : ℕ} {values : List ℕ} (h : values.sum < 2 ^ w) :
    checked_sum w values = some values.sum := by
  rw [checked_sum, foldlM_checked_add_eq values (by rwa [Nat.zero_add]), Nat.zero_add]

theorem mapM_eq_some {α β : Type} {f : α → Option β} {g : α → β} {l : List α}
    (h : ∀ x ∈ l, f x = some (g x)) : l.mapM f = some (l.map g) := by
  induction l with
  | nil => rfl
  | cons x l ih =>
      rw [List.mapM_cons, h x List.mem_cons_self,
        ih fun y hy => h y (List.mem_cons_of_mem x hy)]
      rfl

/-! ## Over the mean rounded down

The code takes the mean first and rounds it down. Around any centre the squares sum to those
around the mean and a rest, the number of rates times the square of the distance, and the
distance is less than one (`squares_eq_add` of `Variance`). -/

/-- The deviation around a given mean. -/
theorem standard_deviation_of_mean {rates : List ℕ} {mean : ℕ} (hcount : ¬ rates.length < 2)
    (hmean : truncate 128 rates.sum / rates.length = mean) :
    standard_deviation rates
      = integer_sqrt
        (truncate 128 (rates.map (squared_deviation mean)).sum / (rates.length - 1)) := by
  unfold standard_deviation
  rw [if_neg hcount, hmean]

/-- The mean of the rates, rounded down. -/
def floored_mean (rates : List ℕ) : ℕ := rates.sum / rates.length

/-- The squares of the differences from it, summed. -/
def deviation_squares (rates : List ℕ) : ℕ :=
  (rates.map fun rate => abs_diff rate (floored_mean rates) ^ 2).sum

/-- The rates as rational numbers. -/
def rational (rates : List ℕ) : List ℚ := rates.map Nat.cast

theorem sum_rational (rates : List ℕ) : (rational rates).sum = (rates.sum : ℚ) := by
  rw [rational, Nat.cast_list_sum]

theorem length_rational (rates : List ℕ) : (rational rates).length = rates.length :=
  List.length_map _

theorem rational_ne_nil {rates : List ℕ} (h : rates ≠ []) : rational rates ≠ [] := by
  rwa [rational, Ne, List.map_eq_nil_iff]

theorem abs_diff_sq (a b : ℕ) : ((abs_diff a b ^ 2 : ℕ) : ℚ) = ((a : ℚ) - b) ^ 2 := by
  unfold abs_diff
  split
  · rename_i hlt
    push_cast [Nat.cast_sub hlt.le]
    ring
  · rename_i hle
    push_cast [Nat.cast_sub (Nat.le_of_not_lt hle)]
    ring

/-- The exact mean is less than one above the rounded one. -/
theorem mean_sub_floored {rates : List ℕ} (hne : rates ≠ []) :
    0 ≤ Variance.mean (rational rates) - floored_mean rates ∧
      Variance.mean (rational rates) - floored_mean rates < 1 := by
  have hlength : (0 : ℚ) < rates.length := Nat.cast_pos.mpr (List.length_pos_of_ne_nil hne)
  have hmean : Variance.mean (rational rates) = rates.sum / rates.length := by
    rw [Variance.mean, sum_rational, length_rational]
  have hbelow : (floored_mean rates : ℚ) ≤ rates.sum / rates.length := Nat.cast_div_le
  have habove : (rates.sum : ℚ) / rates.length < floored_mean rates + 1 := by
    rw [div_lt_iff₀ hlength, mul_comm]
    exact_mod_cast Nat.lt_mul_div_succ rates.sum (List.length_pos_of_ne_nil hne)
  rw [hmean]
  constructor
  · linarith
  · linarith

/-- **The rounded mean adds** less than one for each rate. The squares around any other point than
the mean exceed those around it by the number of rates times the distance squared, and rounding
down moves the mean by less than one. -/
theorem deviation_squares_bounds {rates : List ℕ} (hne : rates ≠ []) :
    Variance.squares (rational rates) (Variance.mean (rational rates)) ≤ deviation_squares rates ∧
      (deviation_squares rates : ℚ)
        ≤ Variance.squares (rational rates) (Variance.mean (rational rates)) + rates.length := by
  obtain ⟨hlower, hupper⟩ := mean_sub_floored hne
  have hsquares : (deviation_squares rates : ℚ)
      = Variance.squares (rational rates) (floored_mean rates) := by
    rw [deviation_squares, Nat.cast_list_sum, Variance.squares, rational, List.map_map, List.map_map]
    congr 1
    apply List.map_congr_left
    intro rate _
    exact abs_diff_sq rate (floored_mean rates)
  -- so the excess is the number of rates times the square of the distance of both means
  rw [hsquares, Variance.squares_eq_add (rational_ne_nil hne) (floored_mean rates), length_rational]
  have hlength : (0 : ℚ) ≤ rates.length := Nat.cast_nonneg _
  have hle : (Variance.mean (rational rates) - floored_mean rates) ^ 2 ≤ 1 := by
    nlinarith
  have hadded : rates.length * (Variance.mean (rational rates) - floored_mean rates) ^ 2
      ≤ (rates.length : ℚ) * 1 := mul_le_mul_of_nonneg_left hle hlength
  have hnonneg : 0 ≤ rates.length * (Variance.mean (rational rates) - floored_mean rates) ^ 2 :=
    mul_nonneg hlength (sq_nonneg _)
  constructor
  · linarith
  · linarith

/-! ## No loss

A thousand squares of 60-bit differences could have 130 bits. That the sum has no more than 128
is because not all rates can be far from the mean at once: the variance is at most a quarter of
the square of the range. -/

section Range

variable {rates : List ℕ} (hcount : 2 ≤ rates.length) (hmost : rates.length ≤ 1000)
  (hrates : ∀ rate ∈ rates, rate ≤ RATE_UNIT * RATE_UNIT)

include hrates in
theorem sum_le_max : rates.sum ≤ rates.length * (RATE_UNIT * RATE_UNIT) := by
  rw [← smul_eq_mul]
  exact List.sum_le_card_nsmul rates _ hrates

include hrates in
theorem floored_mean_le : floored_mean rates ≤ RATE_UNIT * RATE_UNIT :=
  Nat.div_le_of_le_mul (sum_le_max hrates)

include hrates in
theorem abs_diff_mean_le {rate : ℕ} (hrate : rate ∈ rates) :
    abs_diff rate (floored_mean rates) ^ 2 ≤ (RATE_UNIT * RATE_UNIT) ^ 2 := by
  have hmean := floored_mean_le hrates
  have hle := hrates rate hrate
  apply Nat.pow_le_pow_left
  unfold abs_diff
  split
  · omega
  · omega

include hcount hmost hrates in
/-- The sum of the squares has 128 bits, because the variance is at most a quarter of the square
of the range. -/
theorem deviation_squares_lt : deviation_squares rates < 2 ^ 128 := by
  have hne : rates ≠ [] := List.ne_nil_of_length_pos (by omega)
  have hspread := Variance.squares_mean_le (a := 0) (b := ((RATE_UNIT * RATE_UNIT : ℕ) : ℚ))
    (rational_ne_nil hne) (by
      intro x hx
      obtain ⟨rate, hrate, rfl⟩ := List.mem_map.mp hx
      exact ⟨Nat.cast_nonneg rate, Nat.cast_le.mpr (hrates rate hrate)⟩)
  rw [length_rational, sub_zero] at hspread
  have hbound := (deviation_squares_bounds hne).2
  have hlength : (rates.length : ℚ) ≤ 1000 := by
    exact_mod_cast hmost
  have hmax : (rates.length : ℚ) * (((RATE_UNIT * RATE_UNIT : ℕ) : ℚ) / 2) ^ 2
      ≤ 1000 * (((RATE_UNIT * RATE_UNIT : ℕ) : ℚ) / 2) ^ 2 :=
    mul_le_mul_of_nonneg_right hlength (sq_nonneg _)
  -- a thousand squares of half of the range, and the rounding, are less than a word
  have htotal : (deviation_squares rates : ℚ) < 2 ^ 128 := by
    apply lt_of_le_of_lt (le_trans hbound (add_le_add (le_trans hspread hmax) hlength))
    norm_num [RATE_UNIT]
  exact_mod_cast htotal

include hrates in
/-- No square leaves the range of an `i128`. Both with the arithmetic that saturates and with the
one that is checked, so neither of them is noticed. -/
theorem squared_deviations_eq :
    rates.map (squared_deviation (floored_mean rates))
        = rates.map (fun rate => abs_diff rate (floored_mean rates) ^ 2) ∧
      rates.mapM (squared_deviation_checked (floored_mean rates))
        = some (rates.map fun rate => abs_diff rate (floored_mean rates) ^ 2) := by
  -- no rate is further from the mean than the range is wide
  have hword : ∀ rate ∈ rates, abs_diff rate (floored_mean rates) ^ 2 < 2 ^ 127 := fun rate h =>
    lt_of_le_of_lt (abs_diff_mean_le hrates h) (by decide)
  constructor
  · apply List.map_congr_left
    intro rate hrate
    have hsquare := hword rate hrate
    rw [squared_deviation]
    omega
  · have hmean : floored_mean rates < 2 ^ 127 :=
      lt_of_le_of_lt (floored_mean_le hrates) (by decide)
    apply mapM_eq_some
    intro rate hrate
    rw [squared_deviation_checked, if_pos ⟨hmean, hword rate hrate⟩]

include hcount hmost hrates in
/-- **Nothing is lost**: the checked computation returns, and returns the root of the squares
over the number of rates less one. -/
theorem standard_deviation_eq :
    standard_deviation rates = Nat.sqrt (deviation_squares rates / (rates.length - 1)) ∧
      standard_deviation_checked rates = some (standard_deviation rates) := by
  obtain ⟨hsquares, hchecked⟩ := squared_deviations_eq hrates
  have htotal := deviation_squares_lt hcount hmost hrates
  -- a thousand rates in range sum to a word of 128 bits
  have hsum : rates.sum < 2 ^ 128 := by
    have hle := sum_le_max hrates
    have hmax : rates.length * (RATE_UNIT * RATE_UNIT) ≤ 1000 * (RATE_UNIT * RATE_UNIT) :=
      Nat.mul_le_mul_right _ hmost
    have hword : 1000 * (RATE_UNIT * RATE_UNIT) < 2 ^ 128 := by
      decide
    omega
  have hquotient : deviation_squares rates / (rates.length - 1) < 2 ^ 128 :=
    lt_of_le_of_lt (Nat.div_le_self _ _) htotal
  have hmean : truncate 128 rates.sum / rates.length = floored_mean rates := by
    rw [truncate, Nat.mod_eq_of_lt hsum, floored_mean]
  have hroot : standard_deviation rates
      = Nat.sqrt (deviation_squares rates / (rates.length - 1)) := by
    rw [standard_deviation_of_mean (by omega) hmean, hsquares, ← deviation_squares, truncate,
      Nat.mod_eq_of_lt htotal, integer_sqrt_eq hquotient]
  -- each step of the checked computation is within its word
  refine ⟨hroot, ?_⟩
  rw [hroot, standard_deviation_checked, if_neg (by omega), checked_sum_eq hsum,
    Option.bind_eq_bind, Option.bind_some, ← floored_mean, hchecked, Option.bind_eq_bind,
    Option.bind_some, checked_sum_eq htotal, Option.bind_some]
  exact integer_sqrt_checked_eq hquotient

end Range

/-! ## Permuted and shifted rates

Both the mean rounded down and the squares around it go along with a permutation and with a
constant that is added to all rates, so that the deviation depends on the differences alone. -/

theorem floored_mean_perm {rates other : List ℕ} (h : other.Perm rates) :
    floored_mean other = floored_mean rates := by
  rw [floored_mean, floored_mean, h.sum_eq, h.length_eq]

theorem deviation_squares_perm {rates other : List ℕ} (h : other.Perm rates) :
    deviation_squares other = deviation_squares rates := by
  rw [deviation_squares, deviation_squares, floored_mean_perm h]
  exact (h.map _).sum_eq

theorem floored_mean_shift {rates : List ℕ} (hne : rates ≠ []) (c : ℕ) :
    floored_mean (rates.map (· + c)) = floored_mean rates + c := by
  have hsum : (rates.map (· + c)).sum = rates.sum + rates.length * c := by
    rw [List.sum_map_add, List.map_id', List.map_const', List.sum_replicate, smul_eq_mul]
  rw [floored_mean, hsum, List.length_map, floored_mean,
    Nat.add_mul_div_left _ _ (List.length_pos_of_ne_nil hne)]

theorem deviation_squares_shift {rates : List ℕ} (hne : rates ≠ []) (c : ℕ) :
    deviation_squares (rates.map (· + c)) = deviation_squares rates := by
  rw [deviation_squares, deviation_squares, floored_mean_shift hne c, List.map_map]
  congr 1
  apply List.map_congr_left
  intro rate _
  have hdiff : abs_diff (rate + c) (floored_mean rates + c)
      = abs_diff rate (floored_mean rates) := by
    unfold abs_diff
    split <;> split <;> omega
  rw [Function.comp_apply, hdiff]

/-- Rates that differ by a constant are those of one list, the smaller ones with the constant
added. -/
theorem shift_cases {rates shifted : List ℕ} {c : ℤ}
    (h : (shifted.map fun rate : ℕ => (rate : ℤ)) = rates.map fun rate : ℕ => (rate : ℤ) + c) :
    (∃ d, shifted = rates.map (· + d)) ∨ ∃ d, rates = shifted.map (· + d) := by
  have hinj : Function.Injective (List.map fun rate : ℕ => (rate : ℤ)) :=
    List.map_injective_iff.mpr Nat.cast_injective
  -- a shift downwards is one upwards of the other list
  rcases Int.eq_nat_or_neg c with ⟨d, rfl | rfl⟩
  · refine Or.inl ⟨d, hinj ?_⟩
    rw [h, List.map_map]
    exact List.map_congr_left fun rate _ => (Nat.cast_add rate d).symm
  · refine Or.inr ⟨d, hinj ?_⟩
    have hback := congrArg (List.map (· + (d : ℤ))) h
    rw [List.map_map, List.map_map] at hback
    rw [List.map_map]
    calc rates.map (fun rate : ℕ => (rate : ℤ))
        = rates.map ((· + (d : ℤ)) ∘ fun rate : ℕ => (rate : ℤ) + -d) := by
          apply List.map_congr_left
          intro rate _
          simp
      _ = shifted.map ((· + (d : ℤ)) ∘ fun rate : ℕ => (rate : ℤ)) := hback.symm
      _ = shifted.map ((fun rate : ℕ => (rate : ℤ)) ∘ (· + d)) :=
          List.map_congr_left fun rate _ => (Nat.cast_add rate d).symm

/-! ## The reported deviation

Three roundings are between the exact deviation and the reported one: of the mean, of the
quotient and of the root. The first adds less than `n / (n - 1)` under the root, the others only
round down. -/

/-- Rounding a quotient down before its root is taken costs nothing more. -/
theorem sqrt_div_bounds {a k : ℕ} (hk : 0 < k) :
    (Nat.sqrt (a / k) : ℚ) ^ 2 ≤ a / k ∧ (a : ℚ) / k < ((Nat.sqrt (a / k) : ℚ) + 1) ^ 2 := by
  have hpos : (0 : ℚ) < k := Nat.cast_pos.mpr hk
  constructor
  · calc ((Nat.sqrt (a / k) : ℚ)) ^ 2
        ≤ ((a / k : ℕ) : ℚ) := by exact_mod_cast Nat.sqrt_le' (a / k)
      _ ≤ a / k := Nat.cast_div_le
  · have hsucc : a / k + 1 ≤ (Nat.sqrt (a / k) + 1) ^ 2 := Nat.lt_succ_sqrt' (a / k)
    calc (a : ℚ) / k
        < ((a / k + 1 : ℕ) : ℚ) := by
          rw [div_lt_iff₀ hpos, mul_comm]
          exact_mod_cast Nat.lt_mul_div_succ a hk
      _ ≤ ((Nat.sqrt (a / k) : ℚ) + 1) ^ 2 := by exact_mod_cast hsucc

/-- **The deviation against the exact variance** around the exact mean. There are three roundings:
that of the mean makes the sum of the squares larger, by the bound above; that of the quotient and
that of the root make the result smaller, together by less than one. -/
theorem standard_deviation_bounds {rates : List ℕ} (hcount : 2 ≤ rates.length)
    (hmost : rates.length ≤ 1000) (hrates : ∀ rate ∈ rates, rate ≤ RATE_UNIT * RATE_UNIT) :
    (standard_deviation rates : ℚ) ^ 2
        ≤ Variance.variance (rational rates) + rates.length / (rates.length - 1) ∧
      Variance.variance (rational rates) < ((standard_deviation rates : ℚ) + 1) ^ 2 := by
  have hne : rates ≠ [] := List.ne_nil_of_length_pos (by omega)
  have hpred : ((rates.length - 1 : ℕ) : ℚ) = (rates.length : ℚ) - 1 := by
    rw [Nat.cast_sub (by omega), Nat.cast_one]
  have hpos : 0 < rates.length - 1 := by
    omega
  have hrest : (0 : ℚ) < (rates.length : ℚ) - 1 := by
    rw [← hpred]
    exact Nat.cast_pos.mpr hpos
  obtain ⟨hlower, hupper⟩ := sqrt_div_bounds (a := deviation_squares rates) hpos
  obtain ⟨hleast, hmost'⟩ := deviation_squares_bounds hne
  rw [(standard_deviation_eq hcount hmost hrates).1, Variance.variance, length_rational]
  rw [hpred] at hlower hupper
  constructor
  · apply le_trans hlower
    rw [← add_div]
    exact div_le_div_of_nonneg_right hmost' hrest.le
  · exact lt_of_le_of_lt (div_le_div_of_nonneg_right hleast hrest.le) hupper

/-- **The reported deviation is right**: on 2 to 1000 rates of at most `RATE_UNIT * RATE_UNIT`, no
operation overflows or saturates; the result is the root of the sample variance, rounded down, up
to one for each rate over their number less one; and neither the order of the rates nor a constant
added to all of them matters.

The mean is rounded down, which adds less than one for each rate to the sum of the squares, before
it is divided by their number less one. The squared deviations of a thousand rates in range still
sum to less than `2 ^ 128`, so the checked arithmetic never fails. -/
theorem standard_deviation_exact (rates : List ℕ) (hcount : 2 ≤ rates.length)
    (hmost : rates.length ≤ 1000) (hrates : ∀ rate ∈ rates, rate ≤ RATE_UNIT * RATE_UNIT) :
    standard_deviation_checked rates = some (standard_deviation rates) ∧
      (standard_deviation rates : ℚ) ^ 2
        ≤ Variance.variance (rational rates) + rates.length / (rates.length - 1) ∧
      Variance.variance (rational rates) < ((standard_deviation rates : ℚ) + 1) ^ 2 ∧
      (∀ permuted : List ℕ, permuted.Perm rates →
        standard_deviation permuted = standard_deviation rates) ∧
      ∀ (c : ℤ) (shifted : List ℕ),
        (shifted.map fun rate : ℕ => (rate : ℤ)) = (rates.map fun rate : ℕ => (rate : ℤ) + c) →
        (∀ rate ∈ shifted, rate ≤ RATE_UNIT * RATE_UNIT) →
        standard_deviation shifted = standard_deviation rates := by
  obtain ⟨hvalue, hchecked⟩ := standard_deviation_eq hcount hmost hrates
  obtain ⟨hlower, hupper⟩ := standard_deviation_bounds hcount hmost hrates
  refine ⟨hchecked, hlower, hupper, ?_, ?_⟩
  · intro permuted hperm
    have hlength := hperm.length_eq
    have hrates' : ∀ rate ∈ permuted, rate ≤ RATE_UNIT * RATE_UNIT := fun rate h =>
      hrates rate (hperm.mem_iff.mp h)
    rw [(standard_deviation_eq (by omega) (by omega) hrates').1, hvalue, hlength,
      deviation_squares_perm hperm]
  · intro c shifted hshift hshifted
    have hlength : shifted.length = rates.length := by
      simpa using congrArg List.length hshift
    have hne : rates ≠ [] := List.ne_nil_of_length_pos (by omega)
    have hne' : shifted ≠ [] := List.ne_nil_of_length_pos (by omega)
    -- the rounded mean shifts along with the rates, so their distances stay
    have hsquares : deviation_squares shifted = deviation_squares rates := by
      rcases shift_cases hshift with ⟨d, hd⟩ | ⟨d, hd⟩
      · rw [hd, deviation_squares_shift hne d]
      · rw [hd, deviation_squares_shift hne' d]
    rw [(standard_deviation_eq (by omega) (by omega) hshifted).1, hvalue, hlength, hsquares]

/-- The small rates of the source's own test. -/
def small_rates : List ℕ := [1, 200, 400, 800, 100]

theorem standard_deviation_exact_small_rates :
    standard_deviation_checked small_rates = some (standard_deviation small_rates) ∧
      (standard_deviation small_rates : ℚ) ^ 2
        ≤ Variance.variance (rational small_rates)
          + small_rates.length / (small_rates.length - 1) ∧
      Variance.variance (rational small_rates) < ((standard_deviation small_rates : ℚ) + 1) ^ 2 ∧
      standard_deviation [800, 400, 200, 100, 1] = standard_deviation small_rates ∧
      standard_deviation [0, 199, 399, 799, 99] = standard_deviation small_rates := by
  have h := standard_deviation_exact small_rates (by decide) (by decide) (by decide)
  exact ⟨h.1, h.2.1, h.2.2.1, h.2.2.2.1 [800, 400, 200, 100, 1] (by decide),
    h.2.2.2.2 (-1) [0, 199, 399, 799, 99] (by decide) (by decide)⟩

end Xrc
