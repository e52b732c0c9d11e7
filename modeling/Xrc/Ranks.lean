/-
Order statistics by counting, over a linear order.

`IsRanked l k a` says that `a` is the element at position `k` of the list in ascending
order, without sorting it: at most `k` elements are smaller and more than `k` are no
larger. Everything about medians then is a comparison of two counts: uniqueness
(`IsRanked.unique`), invariance under reordering (`IsRanked.perm`), monotonicity
(`IsRanked.mono`) and the majority argument (`IsRanked.mem_interval`). A sorted list has
the element of rank `k` at position `k` (`isRanked_getElem`).

The second part is about the scan that keeps the first of the best (`foldl_closer_eq_argmin`),
and about the best when it is reached only once.
-/
import Xrc.OrderStatistics
import Mathlib.Data.List.MinMax

set_option autoImplicit false

namespace Xrc.OrderStatistics

section Ranks

variable {α : Type*} [LinearOrder α]

/-- The element at position `k` of the list in ascending order. For elements that occur more than
once there is a range of positions, and the counts below and up to the element are its ends. No
sorted list is needed. -/
def IsRanked (l : List α) (k : ℕ) (a : α) : Prop :=
  l.countP (· < a) ≤ k ∧ k < l.countP (· ≤ a)

/-- What is below a larger bound counts at least what is up to a smaller one. -/
theorem countP_le_of_lt {a b : α} (h : a < b) (l : List α) :
    l.countP (· ≤ a) ≤ l.countP (· < b) := by
  apply List.countP_mono_left
  intro x _ hx
  rw [decide_eq_true_eq] at hx ⊢
  exact lt_of_le_of_lt hx h

/-- Ranks ascend with the position. -/
theorem IsRanked.le {l : List α} {j k : ℕ} {a b : α} (ha : IsRanked l j a) (hb : IsRanked l k b)
    (h : j ≤ k) : a ≤ b := by
  by_contra hlt
  have hcount := countP_le_of_lt (not_le.mp hlt) l
  have hbelow := ha.1
  have habove := hb.2
  omega

theorem IsRanked.unique {l : List α} {k : ℕ} {a b : α} (ha : IsRanked l k a)
    (hb : IsRanked l k b) : a = b :=
  le_antisymm (ha.le hb le_rfl) (hb.le ha le_rfl)

/-- An element of a rank is an element of the list. -/
theorem IsRanked.mem {l : List α} {k : ℕ} {a : α} (h : IsRanked l k a) : a ∈ l := by
  by_contra hnot
  -- otherwise no element up to `a` is `a` itself
  have hsame : l.countP (· ≤ a) = l.countP (· < a) := by
    apply List.countP_congr
    intro x hx
    have hne : x ≠ a := by
      rintro rfl
      exact hnot hx
    rw [decide_eq_true_eq, decide_eq_true_eq]
    exact ⟨fun hle => lt_of_le_of_ne hle hne, le_of_lt⟩
  have hbelow := h.1
  have habove := h.2
  omega

/-- The order of the list does not matter. -/
theorem IsRanked.perm {l l' : List α} (hp : l.Perm l') {k : ℕ} {a : α} (h : IsRanked l k a) :
    IsRanked l' k a := by
  refine ⟨?_, ?_⟩
  · rw [← hp.countP_eq]
    exact h.1
  · rw [← hp.countP_eq]
    exact h.2

/-- Position `k` of a sorted list has rank `k`. -/
theorem isRanked_getElem {l : List α} (hl : l.Pairwise (· ≤ ·)) {k : ℕ} (hk : k < l.length) :
    IsRanked l k l[k] := by
  constructor
  · -- a smaller element is not found from position `k` on
    have hdrop : (l.drop k).countP (· < l[k]) = 0 := by
      apply List.countP_eq_zero.mpr
      intro x hx
      obtain ⟨i, hi, rfl⟩ := List.getElem_of_mem hx
      rw [List.length_drop] at hi
      rw [List.getElem_drop, decide_eq_true_eq, not_lt]
      exact getElem_mono hl (by omega) (by omega)
    have hsplit : l.countP (· < l[k])
        = (l.take k).countP (· < l[k]) + (l.drop k).countP (· < l[k]) := by
      rw [← List.countP_append, List.take_append_drop]
    have hle := List.countP_le_length (p := fun x => decide (x < l[k])) (l := l.take k)
    rw [List.length_take] at hle
    omega
  · -- the first `k + 1` elements are all no larger
    have htake : (l.take (k + 1)).countP (· ≤ l[k]) = k + 1 := by
      have hall : ∀ x ∈ l.take (k + 1), decide (x ≤ l[k]) = true := by
        intro x hx
        obtain ⟨i, hi, rfl⟩ := List.getElem_of_mem hx
        rw [List.length_take] at hi
        rw [List.getElem_take, decide_eq_true_eq]
        exact getElem_mono hl (by omega) hk
      rw [List.countP_eq_length.mpr hall, List.length_take]
      omega
    have hle := (List.take_sublist (k + 1) l).countP_le (p := fun x => decide (x ≤ l[k]))
    omega

/-- An element of the list is itself counted. -/
theorem countP_lt_countP_of_mem {l : List α} {x : α} (hx : x ∈ l) :
    l.countP (· < x) < l.countP (· ≤ x) := by
  have hp : l.Perm (x :: l.erase x) := List.perm_cons_erase hx
  rw [hp.countP_eq, hp.countP_eq, List.countP_cons, List.countP_cons]
  have hle : (l.erase x).countP (· < x) ≤ (l.erase x).countP (· ≤ x) := by
    apply List.countP_mono_left
    intro y _ hy
    rw [decide_eq_true_eq] at hy ⊢
    exact hy.le
  simp only [lt_irrefl, le_refl, decide_true, decide_false, Bool.false_eq_true, if_false, if_true]
  omega

/-- There is nothing between the elements of two consecutive ranks. -/
theorem IsRanked.le_or_le {l : List α} {k : ℕ} {a b x : α} (ha : IsRanked l k a)
    (hb : IsRanked l (k + 1) b) (hx : x ∈ l) : x ≤ a ∨ b ≤ x := by
  by_contra hbetween
  rw [not_or, not_le, not_le] at hbetween
  have hbelow := countP_le_of_lt hbetween.1 l
  have habove := countP_le_of_lt hbetween.2 l
  have hself := countP_lt_countP_of_mem hx
  have hk := ha.2
  have hk' := hb.1
  omega

/-- **Monotonicity.** Raising elements of a list raises the element of every rank. An element is
ranked by how many are no larger. Raising elements makes these fewer, for any bound, so the
element of a rank can only go up. -/
theorem IsRanked.mono {l l' : List α} (h : List.Forall₂ (· ≤ ·) l l') {k : ℕ} {a a' : α}
    (ha : IsRanked l k a) (ha' : IsRanked l' k a') : a ≤ a' := by
  have hcount : l'.countP (· ≤ a') ≤ l.countP (· ≤ a') := by
    clear ha ha'
    induction h with
    | nil => exact le_rfl
    | @cons x x' l l' hx _ ih =>
        rw [List.countP_cons, List.countP_cons]
        by_cases hle : x' ≤ a'
        · -- what is no larger than the bound was so before
          have hle' : x ≤ a' := hx.trans hle
          rw [decide_eq_true hle, decide_eq_true hle']
          omega
        · rw [decide_eq_false hle]
          simp only [Bool.false_eq_true, if_false]
          omega
  by_contra hlt
  have hbelow := countP_le_of_lt (not_le.mp hlt) l
  have hk := ha.1
  have hk' := ha'.2
  omega

/-- **The majority argument.** An interval that holds more elements than lie strictly on
either side of a rank holds the element of that rank. -/
theorem IsRanked.mem_interval {l : List α} {lo hi : α} (h : lo ≤ hi) {k : ℕ} {a : α}
    (ha : IsRanked l k a) (hbelow : l.length - countIn lo hi l ≤ k)
    (habove : l.length - countIn lo hi l + k < l.length) : lo ≤ a ∧ a ≤ hi := by
  have hsort := List.perm_insertionSort (· ≤ ·) l
  have hcount : countIn lo hi (l.insertionSort (· ≤ ·)) = countIn lo hi l := countIn_perm hsort
  have hlen := hsort.length_eq
  have hk : k < (l.insertionSort (· ≤ ·)).length := by omega
  have hsorted : (l.insertionSort (· ≤ ·)).Pairwise (· ≤ ·) := List.pairwise_insertionSort _ _
  rw [ha.unique ((isRanked_getElem hsorted hk).perm hsort)]
  exact getElem_mem_interval hsorted h hk (by omega) (by omega)

/-- A least element in front moves every rank by one. It is below or equal to all others, and so
adds one to every count. -/
theorem isRanked_cons_succ {l : List α} {x : α} (hx : ∀ y ∈ l, x ≤ y) {k : ℕ} {a : α} :
    IsRanked (x :: l) (k + 1) a ↔ IsRanked l k a := by
  unfold IsRanked
  rw [List.countP_cons, List.countP_cons]
  rcases lt_trichotomy x a with hlt | rfl | hgt
  · rw [decide_eq_true hlt, decide_eq_true hlt.le]
    simp only [if_true]
    omega
  · -- nothing is below the least element
    have hnone : l.countP (· < x) = 0 := by
      apply List.countP_eq_zero.mpr
      intro y hy
      rw [decide_eq_true_eq, not_lt]
      exact hx y hy
    rw [hnone]
    simp only [lt_irrefl, le_refl, decide_true, decide_false, Bool.false_eq_true, if_false, if_true]
    omega
  · have hnone : l.countP (· ≤ a) = 0 := by
      apply List.countP_eq_zero.mpr
      intro y hy
      rw [decide_eq_true_eq, not_le]
      exact lt_of_lt_of_le hgt (hx y hy)
    rw [hnone, decide_eq_false (not_le.mpr hgt), decide_eq_false (not_lt.mpr hgt.le)]
    simp only [Bool.false_eq_true, if_false]
    omega

end Ranks

/-! ## Scans

A scan that keeps the first element with the smallest key so far is `List.argmin`, and so it has
the same answer for every order of the list exactly if the smallest key is reached once. -/

section Scans

variable {α : Type*}

/-- One round of the scan for the element with the smallest key: a strictly smaller key
replaces the one that is kept. -/
def closer (key : α → ℕ) (acc : α × ℕ) (a : α) : α × ℕ :=
  if key a < acc.2 then (a, key a) else acc

/-- **The scan finds the first of the smallest**, as long as every key is below the one it
starts with. -/
theorem foldl_closer_eq_argmin (key : α → ℕ) (a₀ : α) {bound : ℕ} (l : List α)
    (h : ∀ a ∈ l, key a < bound) :
    l.foldl (closer key) (a₀, bound)
      = match l.argmin key with
        | none => (a₀, bound)
        | some a => (a, key a) := by
  induction l using List.reverseRecOn with
  | nil => rfl
  | append_singleton l a ih =>
      have ih' := ih fun x hx => h x (List.mem_append_left _ hx)
      have ha := h a (List.mem_append_right _ (List.mem_singleton.mpr rfl))
      rw [List.foldl_append, List.foldl_cons, List.foldl_nil, ih', List.argmin_concat]
      cases l.argmin key with
      | none => exact if_pos ha
      | some b =>
          unfold closer
          dsimp only
          -- both take the new element only if it is strictly better
          by_cases hlt : key a < key b
          · rw [if_pos hlt, if_pos hlt]
          · rw [if_neg hlt, if_neg hlt]

/-- Where the largest key is reached only once, the order of the list does not matter. `argmax`
takes the first of several, which another order would change. -/
theorem argmax_perm_of_countP_eq_one {key : α → ℕ} {l l' : List α} (hp : l.Perm l') {best : α}
    (hbest : best ∈ l) (honce : l.countP (fun a => decide (key best ≤ key a)) = 1) :
    l.argmax key = l'.argmax key := by
  rw [List.countP_eq_length_filter, List.length_eq_one_iff] at honce
  obtain ⟨only, honly⟩ := honce
  have hunique : ∀ a ∈ l, key best ≤ key a → a = only := by
    intro a ha hle
    have hfiltered : a ∈ l.filter fun a => decide (key best ≤ key a) :=
      List.mem_filter.mpr ⟨ha, decide_eq_true hle⟩
    rw [honly] at hfiltered
    exact List.mem_singleton.mp hfiltered
  -- each of the two maxima reaches the largest key
  have hmax : ∀ l₀ : List α, l.Perm l₀ → l₀.argmax key = some only := by
    intro l₀ hl₀
    have hmem := hl₀.mem_iff.mp hbest
    cases hargmax : l₀.argmax key with
    | none =>
        rw [List.argmax_eq_none] at hargmax
        subst hargmax
        cases hmem
    | some a =>
        have hle := List.le_of_mem_argmax hmem hargmax
        rw [hunique a (hl₀.mem_iff.mpr (List.argmax_mem hargmax)) hle]
  rw [hmax l (List.Perm.refl l), hmax l' hp]

end Scans

end Xrc.OrderStatistics
