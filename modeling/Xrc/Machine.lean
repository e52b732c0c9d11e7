/-
Fixed-width machine integers on `ℕ`: the saturating and wrapping operations of a
width-`w` unsigned word, as functions of the width.

A release build checks no arithmetic, so a plain `+`, `-` or `*` on a word is the
wrapping operation; the saturating ones are the explicit `saturating_*` calls. The one
conversion to a double that decides anything is here too. Each operation below is the
exact one on all naturals, and has one lemma saying when it is the arithmetic operation,
which is what the proofs use.
-/
import Mathlib.Algebra.Group.Nat.Defs
import Mathlib.Data.Nat.Basic
import Mathlib.Tactic.Common

set_option autoImplicit false

namespace Xrc.Machine

/-! ## The operations

Each of them is written for a width `w`, since the code mixes `u8`, `u32`, `u64` and `u128`. A
word is a natural number that happens to be small: no type carries the bound, and where it
matters a lemma has it as a hypothesis. -/

/-- The largest value of a `w`-bit word, `uN::MAX`. All saturating operations stop there. -/
def wordMax (w : ℕ) : ℕ := 2 ^ w - 1

/-- `a.saturating_add(b)`. -/
def saturating_add (w a b : ℕ) : ℕ := min (a + b) (wordMax w)

/-- `a.saturating_mul(b)`. -/
def saturating_mul (w a b : ℕ) : ℕ := min (a * b) (wordMax w)

/-- `a.saturating_pow(e)`. -/
def saturating_pow (w a e : ℕ) : ℕ := min (a ^ e) (wordMax w)

/-- `a + b` with the carry dropped. -/
def wrapping_add (w a b : ℕ) : ℕ := (a + b) % 2 ^ w

/-- `a - b` with the borrow dropped. -/
def wrapping_sub (w a b : ℕ) : ℕ := (a + (2 ^ w - b % 2 ^ w)) % 2 ^ w

/-- `a * b` with the high word dropped. -/
def wrapping_mul (w a b : ℕ) : ℕ := (a * b) % 2 ^ w

/-- `a.pow(e)` with the high words dropped. -/
def wrapping_pow (w a e : ℕ) : ℕ := a ^ e % 2 ^ w

/-- `a.checked_add(b)`, which an addition is in a build that checks for overflow. -/
def checked_add (w a b : ℕ) : Option ℕ := if a + b < 2 ^ w then some (a + b) else none

/-- `a.checked_sub(b)`. -/
def checked_sub (a b : ℕ) : Option ℕ := if b ≤ a then some (a - b) else none

/-- The narrowing `as` cast. -/
def truncate (w a : ℕ) : ℕ := a % 2 ^ w

/-- `a.abs_diff(b)`. -/
def abs_diff (a b : ℕ) : ℕ := if a < b then b - a else a - b

/-- The value of `a as f64`: the nearest number of 53 significant bits, the even one of two
equally near. The fractions that the code takes of a double, of which it keeps the whole part, are
taken of this number. -/
def f64_of_nat (a : ℕ) : ℕ :=
  let unit := 2 ^ (Nat.log2 a - 52)
  if 2 * (a % unit) < unit ∨ 2 * (a % unit) = unit ∧ a / unit % 2 = 0 then a / unit * unit
  else (a / unit + 1) * unit

/-! ## When nothing is lost

The proofs about rates, timestamps and counters never work with a modulus. They first show that
an operation stays in its word, then rewrite it with one of these lemmas, and go on in `ℕ`. -/

theorem saturating_add_eq {w a b : ℕ} (h : a + b ≤ wordMax w) :
    saturating_add w a b = a + b := Nat.min_eq_left h

theorem saturating_mul_eq {w a b : ℕ} (h : a * b ≤ wordMax w) :
    saturating_mul w a b = a * b := Nat.min_eq_left h

theorem wrapping_add_eq {w a b : ℕ} (h : a + b < 2 ^ w) : wrapping_add w a b = a + b :=
  Nat.mod_eq_of_lt h

theorem checked_add_eq {w a b : ℕ} (h : a + b < 2 ^ w) : checked_add w a b = some (a + b) :=
  if_pos h

/-- A checked addition is the wrapping one, where it does not overflow. So what holds of a build
that checks for overflow holds of a release build on all runs that the former survives. -/
theorem wrapping_add_of_checked {w a b c : ℕ} (h : checked_add w a b = some c) :
    wrapping_add w a b = c := by
  unfold checked_add at h
  split at h
  · rename_i hfits
    rw [wrapping_add_eq hfits]
    exact Option.some.inj h
  · cases h

theorem checked_sub_eq {a b : ℕ} (h : b ≤ a) : checked_sub a b = some (a - b) := if_pos h

theorem sub_of_checked {a b c : ℕ} (h : checked_sub a b = some c) : a - b = c := by
  unfold checked_sub at h
  split at h
  · exact Option.some.inj h
  · cases h

theorem wrapping_mul_eq {w a b : ℕ} (h : a * b < 2 ^ w) : wrapping_mul w a b = a * b :=
  Nat.mod_eq_of_lt h

theorem wrapping_pow_eq {w a e : ℕ} (h : a ^ e < 2 ^ w) : wrapping_pow w a e = a ^ e :=
  Nat.mod_eq_of_lt h

/-- A subtraction that does not borrow is the subtraction. -/
theorem wrapping_sub_eq {w a b : ℕ} (hab : b ≤ a) (ha : a < 2 ^ w) :
    wrapping_sub w a b = a - b := by
  have hb : b % 2 ^ w = b := Nat.mod_eq_of_lt (lt_of_le_of_lt hab ha)
  have hsplit : a + (2 ^ w - b) = a - b + 2 ^ w := by omega
  rw [wrapping_sub, hb, hsplit, Nat.add_mod_right]
  exact Nat.mod_eq_of_lt (by omega)

/-- Up to 53 bits every integer is a double. -/
theorem f64_of_nat_eq {a : ℕ} (h : a < 2 ^ 53) : f64_of_nat a = a := by
  have hlog : Nat.log2 a - 52 = 0 := by
    by_cases hzero : a = 0
    · rw [hzero]
      rfl
    · have := (Nat.log2_lt hzero).mpr h
      omega
  have hexact : 2 * (a % 1) < 1 := by
    rw [Nat.mod_one]
    decide
  rw [f64_of_nat, hlog, pow_zero, if_pos (Or.inl hexact), Nat.div_one, Nat.mul_one]

/-- `abs_diff` against a bound, without the case split. -/
theorem abs_diff_le_iff {a b c : ℕ} : abs_diff a b ≤ c ↔ a ≤ b + c ∧ b ≤ a + c := by
  unfold abs_diff
  split <;> omega

end Xrc.Machine
