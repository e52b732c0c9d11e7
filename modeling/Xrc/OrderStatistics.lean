/-
Order statistics of sorted lists over a linear order.

Everything a majority argument needs is the position of the elements of a closed
interval in a sorted list: they occupy consecutive positions, starting at the number
of elements below the interval. Two bounds on single positions
(`le_getElem_of_countP_lt`, `getElem_le_of_countP_gt`) give all of it: the middle of a
list whose majority lies in an interval lies there too (`getElem_mem_interval`), and a
window as long as the group itself fits inside the interval (`exists_window`).
-/
import Mathlib.Data.List.Sort
import Mathlib.Order.Interval.Finset.Defs
import Mathlib.Tactic.Common

set_option autoImplicit false

namespace Xrc.OrderStatistics

variable {α : Type*} [LinearOrder α]

/-- A sorted list ascends with the position. -/
theorem getElem_mono {l : List α} (hl : l.Pairwise (· ≤ ·)) {a b : ℕ} (hab : a ≤ b)
    (hb : b < l.length) : l[a] ≤ l[b] := by
  rcases Nat.eq_or_lt_of_le hab with heq | hlt
  · subst heq
    exact le_rfl
  · exact List.pairwise_iff_getElem.mp hl a b (by omega) hb hlt

/-! ## Positions below and above a bound

The two bounds mirror each other: each turns a count of elements into a statement about the
element at one position, by looking at all positions on its side. -/

/-- A position that at most `k` smaller elements precede holds no element below the
bound: were it smaller, so would be every earlier one, which is one too many. -/
theorem le_getElem_of_countP_lt {l : List α} (hl : l.Pairwise (· ≤ ·)) {lo : α} {k : ℕ}
    (hk : k < l.length) (hcount : l.countP (· < lo) ≤ k) : lo ≤ l[k] := by
  by_contra hlt
  rw [not_le] at hlt
  -- the first `k + 1` elements would all be below the bound
  have hall : ∀ a ∈ l.take (k + 1), (decide (a < lo)) = true := by
    intro a ha
    obtain ⟨i, hi, rfl⟩ := List.getElem_of_mem ha
    have hik : i ≤ k := by
      have := hi
      rw [List.length_take] at this
      omega
    rw [List.getElem_take, decide_eq_true_eq]
    exact lt_of_le_of_lt (getElem_mono hl hik hk) hlt
  have hcard : (l.take (k + 1)).countP (· < lo) = k + 1 := by
    rw [List.countP_eq_length.mpr hall, List.length_take]
    omega
  have hle := (List.take_sublist (k + 1) l).countP_le (p := fun a => decide (a < lo))
  omega

/-- A position that enough larger elements follow holds no element above the bound. -/
theorem getElem_le_of_countP_gt {l : List α} (hl : l.Pairwise (· ≤ ·)) {hi : α} {k : ℕ}
    (hk : k < l.length) (hcount : l.countP (hi < ·) + k < l.length) : l[k] ≤ hi := by
  by_contra hlt
  rw [not_le] at hlt
  -- everything from position `k` on would be above the bound
  have hall : ∀ a ∈ l.drop k, (decide (hi < a)) = true := by
    intro a ha
    obtain ⟨i, hil, rfl⟩ := List.getElem_of_mem ha
    rw [List.getElem_drop, decide_eq_true_eq]
    rw [List.length_drop] at hil
    exact lt_of_lt_of_le hlt (getElem_mono hl (by omega) (by omega))
  have hcard : (l.drop k).countP (hi < ·) = l.length - k := by
    rw [List.countP_eq_length.mpr hall, List.length_drop]
  have hle := (List.drop_sublist k l).countP_le (p := fun a => decide (hi < a))
  omega

/-! ## Groups inside an interval

A group of a list is given by the interval it fills. Counting below, inside and above the
interval places the group among the positions, so that neither the group nor its complement has
to be named. -/

/-- The number of elements of a list inside a closed interval. -/
def countIn (lo hi : α) (l : List α) : ℕ := l.countP fun a => decide (lo ≤ a ∧ a ≤ hi)

/-- Below, inside and above an interval is everything. Bounds on two of the three parts thus give
one on the third. -/
theorem countP_lt_add_countIn_add_countP_gt {lo hi : α} (h : lo ≤ hi) (l : List α) :
    l.countP (· < lo) + countIn lo hi l + l.countP (hi < ·) = l.length := by
  induction l with
  | nil => rfl
  | cons a l ih =>
      simp only [countIn, List.countP_cons, List.length_cons] at ih ⊢
      -- each element is below, above or within the interval, and only one of them
      rcases lt_or_ge a lo with hlo | hlo
      · have h1 : ¬ lo ≤ a := not_le.mpr hlo
        have h2 : ¬ hi < a := not_lt.mpr (hlo.le.trans h)
        simp only [hlo, h1, h2, false_and, decide_true, decide_false, if_true,
          Bool.false_eq_true, if_false]
        omega
      · have h1 : ¬ a < lo := not_lt.mpr hlo
        rcases lt_or_ge hi a with hhi | hhi
        · have h2 : ¬ a ≤ hi := not_le.mpr hhi
          simp only [h1, hlo, h2, hhi, and_false, decide_true, decide_false, if_true,
            Bool.false_eq_true, if_false]
          omega
        · have h2 : ¬ hi < a := not_lt.mpr hhi
          simp only [h1, hlo, h2, hhi, and_self, decide_true, decide_false, if_true,
            Bool.false_eq_true, if_false]
          omega

/-- Permuting a list moves nothing in or out of an interval. -/
theorem countIn_perm {lo hi : α} {l₁ l₂ : List α} (h : l₁.Perm l₂) :
    countIn lo hi l₁ = countIn lo hi l₂ := h.countP_eq _

/-- A position of a sorted list lies in an interval that holds more elements than lie
strictly on either side of it. -/
theorem getElem_mem_interval {l : List α} (hl : l.Pairwise (· ≤ ·)) {lo hi : α}
    (h : lo ≤ hi) {k : ℕ} (hk : k < l.length) (hbelow : l.length - countIn lo hi l ≤ k)
    (habove : l.length - countIn lo hi l + k < l.length) : lo ≤ l[k] ∧ l[k] ≤ hi := by
  have hsum := countP_lt_add_countIn_add_countP_gt h l
  exact ⟨le_getElem_of_countP_lt hl hk (by omega),
    getElem_le_of_countP_gt hl hk (by omega)⟩

/-- The elements of an interval fill a window of a sorted list: any `d + 1` of them
leave two positions at distance `d` between the bounds. -/
theorem exists_window {l : List α} (hl : l.Pairwise (· ≤ ·)) {lo hi : α} (h : lo ≤ hi)
    {d : ℕ} (hd : d < countIn lo hi l) :
    ∃ i, ∃ hid : i + d < l.length, lo ≤ l[i] ∧ l[i + d] ≤ hi := by
  have hsum := countP_lt_add_countIn_add_countP_gt h l
  -- the window starts after the elements below the interval
  refine ⟨l.countP (· < lo), by omega, ?_, ?_⟩
  · exact le_getElem_of_countP_lt hl (by omega) le_rfl
  · exact getElem_le_of_countP_gt hl (by omega) (by omega)

/-! ## Counting pairs

For products of rates: a pair is good when both of its components are, so that two majorities
give a count of good pairs. It need not be a majority of all pairs. -/

/-- The pairs with a property of each component are counted by the components. -/
theorem countP_product {β γ : Type*} (p : β → Bool) (q : γ → Bool) (l₁ : List β) (l₂ : List γ) :
    (l₁ ×ˢ l₂).countP (fun pair => p pair.1 && q pair.2) = l₁.countP p * l₂.countP q := by
  induction l₁ with
  | nil => rw [List.nil_product, List.countP_nil, List.countP_nil, Nat.zero_mul]
  | cons a l₁ ih =>
      rw [List.product_cons, List.countP_append, List.countP_map, ih, List.countP_cons,
        Nat.add_mul, Nat.add_comm]
      congr 1
      -- the pairs with `a` in front
      by_cases ha : p a = true
      · simp only [Function.comp_def, ha, Bool.true_and, if_true, Nat.one_mul]
      · simp only [Function.comp_def, ha, Bool.false_and, Bool.false_eq_true, if_false,
          Nat.zero_mul, List.countP_false, Function.const_apply]

/-! ## Sorting a monotone or antitone image

Sorting after a map is mapping after sorting when the map is monotone. This is how the rates of
a scaled or inverted list keep their positions. -/

/-- Two sorted lists with the same elements are equal. -/
theorem eq_of_perm_of_pairwise {l₁ l₂ : List α} (hp : l₁.Perm l₂)
    (h₁ : l₁.Pairwise (· ≤ ·)) (h₂ : l₂.Pairwise (· ≤ ·)) : l₁ = l₂ :=
  hp.eq_of_pairwise (fun _ _ _ _ hab hba => le_antisymm hab hba) h₁ h₂

/-- A monotone map keeps a list sorted. -/
theorem pairwise_map_of_monotone {β : Type*} [LinearOrder β] {f : α → β} (hf : Monotone f)
    {l : List α} (hl : l.Pairwise (· ≤ ·)) : (l.map f).Pairwise (· ≤ ·) :=
  List.pairwise_map.mpr (hl.imp fun h => hf h)

end Xrc.OrderStatistics
