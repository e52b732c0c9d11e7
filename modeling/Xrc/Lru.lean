/-
A least-recently-used cache as its users see it: `new`, `get`, `put`, and `peek`, the
lookup that does not count as a use.

`LruCache` is the interface together with what its documentation promises about
contents; which entries are evicted, and when, is left open. `RecencyList` is one
implementation, the list of entries from the most to the least recently used one.
-/
import Mathlib.Data.List.Basic
import Mathlib.Tactic.Common

set_option autoImplicit false

namespace Xrc

/-- A least-recently-used cache with keys `κ` and values `ν`. -/
class LruCache (L : Type) (κ ν : outParam Type) where
  /-- An empty cache of the given capacity. -/
  new : ℕ → L
  /-- Look a key up and mark it as the most recently used one. -/
  get : L → κ → Option ν × L
  /-- Store a value, evicting the least recently used entry of a full cache. -/
  put : L → κ → ν → L
  /-- Look a key up. -/
  peek : L → κ → Option ν
  get_fst : ∀ c k, (get c k).1 = peek c k
  peek_get : ∀ c k k', peek (get c k).2 k' = peek c k'
  peek_new : ∀ n k, peek (new n) k = none
  peek_put_self : ∀ c k v, peek (put c k v) k = some v
  peek_put_other : ∀ c k v k', k' ≠ k →
    peek (put c k v) k' = peek c k' ∨ peek (put c k v) k' = none

attribute [simp] LruCache.get_fst LruCache.peek_get LruCache.peek_new LruCache.peek_put_self

/-- The entries of a cache, the most recently used one first. It is there so that the model can be
run: the theorems are over any cache, and their witnesses over this one. -/
structure RecencyList (κ ν : Type) where
  /-- One less than the number of entries that fit. -/
  spare : ℕ
  entries : List (κ × ν)

namespace RecencyList

variable {κ ν : Type} [DecidableEq κ]

def peek (c : RecencyList κ ν) (k : κ) : Option ν :=
  (c.entries.find? fun e => decide (e.1 = k)).map Prod.snd

def get (c : RecencyList κ ν) (k : κ) : Option ν × RecencyList κ ν :=
  match c.peek k with
  | none => (none, c)
  | some v =>
    (some v, { c with entries := (k, v) :: c.entries.filter fun e => decide (e.1 ≠ k) })

def put (c : RecencyList κ ν) (k : κ) (v : ν) : RecencyList κ ν :=
  { c with
    entries := (k, v) :: (c.entries.filter fun e => decide (e.1 ≠ k)).take c.spare }

/-- Removing a key does not change what is found under another one. -/
theorem find_filter_ne {k k' : κ} (h : k' ≠ k) (l : List (κ × ν)) :
    (l.filter fun e => decide (e.1 ≠ k)).find? (fun e => decide (e.1 = k'))
      = l.find? fun e => decide (e.1 = k') := by
  rw [List.find?_filter]
  congr 1
  funext e
  by_cases he : e.1 = k'
  · simp [he, h]
  · simp [he]

omit [DecidableEq κ] in
/-- A prefix of a list finds what the list finds, or nothing. -/
theorem find_take (p : κ × ν → Bool) (n : ℕ) (l : List (κ × ν)) :
    (l.take n).find? p = l.find? p ∨ (l.take n).find? p = none := by
  rcases h : (l.take n).find? p with _ | e
  · exact Or.inr rfl
  · left
    have happ : (l.take n ++ l.drop n).find? p = _ := List.find?_append
    rw [List.take_append_drop, h] at happ
    rw [happ]
    rfl

instance : LruCache (RecencyList κ ν) κ ν where
  new n := { spare := n - 1, entries := [] }
  get := get
  put := put
  peek := peek
  get_fst c k := by
    unfold get
    split <;> simp_all
  peek_get c k k' := by
    unfold get
    split
    · rfl
    · rename_i v hv
      by_cases hk : k' = k
      · subst hk
        rw [hv]
        simp only [peek, decide_true, List.find?_cons_of_pos, Option.map_some]
      · have hne : ¬ k = k' := fun h => hk h.symm
        simp only [peek, hne, decide_false, Bool.false_eq_true, not_false_eq_true,
          List.find?_cons_of_neg, find_filter_ne hk]
  peek_new _ _ := rfl
  peek_put_self c k v := by
    simp only [peek, put, decide_true, List.find?_cons_of_pos, Option.map_some]
  peek_put_other c k v k' hk := by
    have hne : ¬ k = k' := fun h => hk h.symm
    simp only [peek, put, hne, decide_false, Bool.false_eq_true, not_false_eq_true,
      List.find?_cons_of_neg]
    rcases find_take (fun e => decide (e.1 = k')) c.spare
      (c.entries.filter fun e => decide (e.1 ≠ k)) with h | h
    · left
      rw [h, find_filter_ne hk]
    · right
      rw [h]
      rfl

end RecencyList

end Xrc
