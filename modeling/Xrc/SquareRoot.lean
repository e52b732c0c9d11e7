/-
The integer square root. Beside the two loops as the release build runs them stands the same
computation with every addition and subtraction checked and its rounds counted: where it
returns, nothing has wrapped and the loops have ended, and it is the computation of the
release build.
-/
import Xrc.Utils
import Mathlib.Data.Nat.Sqrt
import Mathlib.Tactic.Linarith
import Mathlib.Tactic.Ring

set_option autoImplicit false

namespace Xrc

open Machine

/-! ## The checked computation

Two things could go wrong in the loops: an operation could wrap, or a loop could fail to end.
Checked operations make the first visible and a bound on the rounds the second. -/

/-- The first loop in at most `rounds` rounds. -/
def integer_sqrt_power_checked (number : ℕ) : ℕ → ℕ → Option ℕ
  | 0, power => if number < power then none else some power
  | rounds + 1, power =>
      if number < power then integer_sqrt_power_checked number rounds (power / 4) else some power

/-- The second loop in at most `rounds` rounds, none where an operation overflows or
underflows. -/
def integer_sqrt_loop_checked : ℕ → ℕ → ℕ → ℕ → Option ℕ
  | 0, _, result, power => if power = 0 then some result else none
  | rounds + 1, difference, result, power =>
      if power = 0 then some result
      else do
        let candidate ← checked_add 128 result power
        if candidate ≤ difference then
          let difference ← checked_sub difference candidate
          let result ← checked_add 128 (result / 2) power
          integer_sqrt_loop_checked rounds difference result (power / 4)
        else integer_sqrt_loop_checked rounds difference (result / 2) (power / 4)

/-- The integer square root, with at most `rounds` rounds of each loop and a checked cast. -/
def integer_sqrt_checked (rounds number : ℕ) : Option ℕ := do
  let power ← integer_sqrt_power_checked number rounds (2 ^ 126)
  let root ← integer_sqrt_loop_checked rounds number 0 power
  if root < 2 ^ 64 then some root else none

/-! ## It is the computation of the release build

Where the checked computation returns it agrees with the one of the source, round by round. The
induction is on the number of rounds, with the state of the loop generalized. -/

theorem integer_sqrt_power_of_checked {number rounds : ℕ} : ∀ {power root : ℕ},
    integer_sqrt_power_checked number rounds power = some root →
    integer_sqrt_power number power = root := by
  -- the unchecked loop makes the same comparison in each round, and ends where the other does
  induction rounds with
  | zero =>
      intro power root h
      rw [integer_sqrt_power_checked] at h
      rw [integer_sqrt_power]
      split at h
      · cases h
      · rename_i hlt
        rw [if_neg hlt]
        exact Option.some.inj h
  | succ rounds ih =>
      intro power root h
      rw [integer_sqrt_power_checked] at h
      rw [integer_sqrt_power]
      split at h
      · rename_i hlt
        rw [if_pos hlt]
        exact ih h
      · rename_i hlt
        rw [if_neg hlt]
        exact Option.some.inj h

theorem integer_sqrt_loop_of_checked {rounds : ℕ} : ∀ {difference result power root : ℕ},
    integer_sqrt_loop_checked rounds difference result power = some root →
    integer_sqrt_loop difference result power = root := by
  -- on the rounds that are left, for any state of the loop
  induction rounds with
  | zero =>
      intro difference result power root h
      rw [integer_sqrt_loop_checked] at h
      rw [integer_sqrt_loop]
      split at h
      · rename_i hzero
        rw [if_pos hzero]
        exact Option.some.inj h
      · cases h
  | succ rounds ih =>
      intro difference result power root h
      rw [integer_sqrt_loop_checked] at h
      rw [integer_sqrt_loop]
      split at h
      · rename_i hzero
        rw [if_pos hzero]
        exact Option.some.inj h
      · rename_i hzero
        -- what was checked does not wrap, so both loops go on with the same state
        obtain ⟨candidate, hcandidate, h⟩ := Option.bind_eq_some_iff.mp h
        rw [if_neg hzero, wrapping_add_of_checked hcandidate]
        split at h
        · rename_i hle
          obtain ⟨rest, hrest, h⟩ := Option.bind_eq_some_iff.mp h
          obtain ⟨next, hnext, h⟩ := Option.bind_eq_some_iff.mp h
          rw [if_pos hle, sub_of_checked hrest, wrapping_add_of_checked hnext]
          exact ih h
        · rename_i hle
          rw [if_neg hle]
          exact ih h

theorem integer_sqrt_of_checked {rounds number root : ℕ}
    (h : integer_sqrt_checked rounds number = some root) : integer_sqrt number = root := by
  obtain ⟨power, hpower, h⟩ := Option.bind_eq_some_iff.mp h
  obtain ⟨found, hfound, h⟩ := Option.bind_eq_some_iff.mp h
  split at h
  · rename_i hword
    rw [integer_sqrt, integer_sqrt_power_of_checked hpower, integer_sqrt_loop_of_checked hfound,
      truncate, Nat.mod_eq_of_lt hword]
    exact Option.some.inj h
  · cases h

/-! ## The two loops

The first loop only finds where to start. The second keeps `root`, the bits found so far, in a
form that is shifted along with the power: its state is `number - root * root` and `root * 2 ^ j`,
and a round finds one bit. -/

/-- The first loop leaves the power before the first one above the number. The power is one of
four, so its root is a power of two, from which the second loop descends. -/
theorem integer_sqrt_power_checked_eq (number j : ℕ) (h : number < 4 ^ j) :
    ∃ i ≤ j, number < 4 ^ i ∧
      integer_sqrt_power_checked number j (4 ^ j / 4) = some (4 ^ i / 4) := by
  induction j with
  | zero =>
      have hzero : 4 ^ 0 / 4 = 0 := by
        decide
      refine ⟨0, le_refl 0, h, ?_⟩
      rw [hzero, integer_sqrt_power_checked, if_neg (Nat.not_lt_zero number)]
  | succ j ih =>
      have hpower : 4 ^ (j + 1) / 4 = 4 ^ j := Nat.mul_div_cancel _ (by decide)
      rw [integer_sqrt_power_checked, hpower]
      by_cases hlt : number < 4 ^ j
      · obtain ⟨i, hi, hbound, heq⟩ := ih hlt
        refine ⟨i, by omega, hbound, ?_⟩
        rw [if_pos hlt, heq]
      · refine ⟨j + 1, le_refl _, h, ?_⟩
        rw [if_neg hlt, hpower]

/-- **The second loop**, with `root` the bits found so far, the last of them of weight `2 ^ j`:
in `j` rounds it finds the root, which lies less than this weight above them. -/
theorem integer_sqrt_loop_checked_eq (number j : ℕ) : ∀ {rounds root : ℕ}, j ≤ rounds →
    root * root ≤ number → number < (root + 2 ^ j) * (root + 2 ^ j) → root + 2 ^ j ≤ 2 ^ 64 →
    integer_sqrt_loop_checked rounds (number - root * root) (root * 2 ^ j) (4 ^ j / 4)
      = some (Nat.sqrt number) := by
  induction j with
  | zero =>
      intro rounds root _ hle hlt _
      have hsqrt : root * 2 ^ 0 = Nat.sqrt number := by
        rw [pow_zero, Nat.mul_one]
        exact Nat.eq_sqrt.mpr ⟨hle, by simpa using hlt⟩
      cases rounds with
      | zero =>
          rw [integer_sqrt_loop_checked, if_pos (by decide), hsqrt]
      | succ rounds =>
          rw [integer_sqrt_loop_checked, if_pos (by decide), hsqrt]
  | succ j ih =>
      intro rounds root hrounds hle hlt hword
      obtain ⟨rounds, rfl⟩ := Nat.exists_eq_add_one_of_ne_zero (show rounds ≠ 0 by omega)
      have hpower : 4 ^ (j + 1) / 4 = 2 ^ j * 2 ^ j := by
        rw [pow_succ, Nat.mul_div_cancel _ (by decide), ← Nat.mul_pow]
      have hnext : 2 ^ j * 2 ^ j / 4 = 4 ^ j / 4 := by
        rw [← Nat.mul_pow]
      have hpos : 0 < 2 ^ j := Nat.two_pow_pos j
      have hdouble : root * 2 ^ (j + 1) = 2 * (root * 2 ^ j) := by
        rw [pow_succ]
        ring
      rw [pow_succ] at hlt hword
      -- the square of the candidate is the one taken off already and what is taken off now
      have hsquare : (root + 2 ^ j) * (root + 2 ^ j)
          = root * root + (root * 2 ^ (j + 1) + 2 ^ j * 2 ^ j) := by
        rw [pow_succ]
        ring
      have hcarry : root * 2 ^ (j + 1) + 2 ^ j * 2 ^ j < 2 ^ 128 := by
        have hleft : root * (2 ^ j * 2) + 2 ^ j * 2 ^ j
            < (root + 2 ^ j * 2) * (2 ^ j * 2) := by
          nlinarith
        have hright : (root + 2 ^ j * 2) * (2 ^ j * 2) ≤ 2 ^ 64 * 2 ^ 64 :=
          Nat.mul_le_mul hword (by omega)
        rw [pow_succ]
        omega
      rw [integer_sqrt_loop_checked, hpower, if_neg (Nat.mul_pos hpos hpos).ne',
        Option.bind_eq_bind, checked_add_eq hcarry, Option.bind_some]
      by_cases hbit : root * 2 ^ (j + 1) + 2 ^ j * 2 ^ j ≤ number - root * root
      · -- the bit belongs to the root
        have hroot : (root + 2 ^ j) * (root + 2 ^ j) ≤ number := by
          omega
        have hresult : root * 2 ^ (j + 1) / 2 + 2 ^ j * 2 ^ j = (root + 2 ^ j) * 2 ^ j := by
          rw [hdouble, Nat.mul_div_cancel_left _ (by decide)]
          ring
        have hdiff : number - root * root - (root * 2 ^ (j + 1) + 2 ^ j * 2 ^ j)
            = number - (root + 2 ^ j) * (root + 2 ^ j) := by
          omega
        have hsum : root + 2 ^ j + 2 ^ j = root + 2 ^ j * 2 := by
          omega
        rw [if_pos hbit, checked_sub_eq hbit, Option.bind_some, checked_add_eq (by omega),
          Option.bind_some, hresult, hdiff, hnext]
        apply ih (by omega) hroot
        · rw [hsum]
          exact hlt
        · rw [hsum]
          exact hword
      · have hroot : number < (root + 2 ^ j) * (root + 2 ^ j) := by
          omega
        have hresult : root * 2 ^ (j + 1) / 2 = root * 2 ^ j := by
          rw [hdouble, Nat.mul_div_cancel_left _ (by decide)]
        rw [if_neg hbit, hresult, hnext]
        exact ih (by omega) hle hroot (by omega)

/-! ## The root

Sixty-four rounds are enough for 128 bits, and the number found is the largest whose square is
not above the argument. -/

/-- Every 128-bit number takes at most 64 rounds of each loop, and no operation overflows. The
bound on the rounds is on the number's digits in base four. -/
theorem integer_sqrt_checked_eq {number : ℕ} (h : number < 2 ^ 128) :
    integer_sqrt_checked 64 number = some (Nat.sqrt number) := by
  have hword : (2 : ℕ) ^ 128 = 4 ^ 64 := by
    decide
  obtain ⟨i, hi, hbound, hpower⟩ := integer_sqrt_power_checked_eq number 64 (by omega)
  have hplace : 0 + 2 ^ i ≤ 2 ^ 64 := by
    rw [Nat.zero_add]
    exact Nat.pow_le_pow_right (by decide) hi
  have hloop := integer_sqrt_loop_checked_eq number i hi (Nat.zero_le _)
    (by rwa [Nat.zero_add, ← Nat.mul_pow]) hplace
  have hroot : Nat.sqrt number < 2 ^ 64 := by
    apply Nat.sqrt_lt.mpr
    omega
  rw [show (4 : ℕ) ^ 64 / 4 = 2 ^ 126 from by decide] at hpower
  rw [Nat.mul_zero, Nat.sub_zero, Nat.zero_mul] at hloop
  rw [integer_sqrt_checked, Option.bind_eq_bind, hpower, Option.bind_some, hloop,
    Option.bind_some, if_pos hroot]

/-- **The integer square root** of every 128-bit number is its square root, rounded down. -/
theorem integer_sqrt_eq {number : ℕ} (h : number < 2 ^ 128) :
    integer_sqrt number = Nat.sqrt number :=
  integer_sqrt_of_checked (integer_sqrt_checked_eq h)

/-- **Exact to the last bit**: on every 128-bit number both loops end, within 64 rounds, no
operation overflows or underflows, and the result is the square root of 64 bits.

The first loop finds the largest power of four not above the number, and the second one a bit of
the root for each power from there down. Its invariant is that the bits found so far are those of
the root, and that the difference is what is left of the number. -/
theorem integer_sqrt_exact (number : ℕ) (h : number < 2 ^ 128) :
    integer_sqrt_checked 64 number = some (integer_sqrt number) ∧
      integer_sqrt number < 2 ^ 64 ∧
      integer_sqrt number ^ 2 ≤ number ∧ number < (integer_sqrt number + 1) ^ 2 := by
  rw [integer_sqrt_eq h]
  refine ⟨integer_sqrt_checked_eq h, ?_, Nat.sqrt_le' number, Nat.lt_succ_sqrt' number⟩
  apply Nat.sqrt_lt.mpr
  omega

theorem integer_sqrt_exact_largest :
    integer_sqrt_checked 64 (2 ^ 128 - 1) = some (integer_sqrt (2 ^ 128 - 1)) ∧
      integer_sqrt (2 ^ 128 - 1) < 2 ^ 64 ∧
      integer_sqrt (2 ^ 128 - 1) ^ 2 ≤ 2 ^ 128 - 1 ∧
      2 ^ 128 - 1 < (integer_sqrt (2 ^ 128 - 1) + 1) ^ 2 :=
  integer_sqrt_exact (2 ^ 128 - 1) (by decide)

end Xrc
