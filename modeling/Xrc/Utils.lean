/-
`utils.rs`: the median of a list of rates, the integer square root and the standard
deviation, the normalisation of requests, and the privileges of callers and pairs.

Rates are 64-bit words. The code is deployed as a release build, so the sum of the two
middle values in `median` and the sum of squares in `standard_deviation` wrap.
-/
import Xrc.Machine
import Xrc.OrderStatistics
import Xrc.Environment
import Mathlib.Algebra.GroupWithZero.Nat
import Mathlib.Data.List.GetD

set_option autoImplicit false

namespace Xrc

open Machine OrderStatistics

/-! ## Sorting and medians

Rates arrive in no order, and every decision about them goes by their sorted list. `sort` is
insertion sort because its facts are at hand; the code's sort is unstable, which on words makes
no difference. Of an even number of values the median is the mean of the two middle ones,
rounded down, unless their sum leaves the word. -/

/-- `Vec::sort` on words. -/
def sort (values : List ℕ) : List ℕ := values.insertionSort (· ≤ ·)

/-- The median of the provided values, `0` when there are none. -/
def median (values : List ℕ) : ℕ :=
  if values.isEmpty then 0
  else
    let copied_values := sort values
    let length := copied_values.length
    if length % 2 = 0 then
      wrapping_add 64 (copied_values.getD (length / 2 - 1) 0)
        (copied_values.getD (length / 2) 0) / 2
    else copied_values.getD (length / 2) 0

/-- One round of the scan in `median_in_set`: keep the value strictly closer to the
median than every earlier one. -/
def median_in_set_step (median : ℕ) (acc : ℕ × ℕ) (value : ℕ) : ℕ × ℕ :=
  let diff := abs_diff value median
  if diff < acc.2 then (value, diff) else acc

/-- The median with the condition that it must be among the values. -/
def median_in_set (values : List ℕ) : ℕ :=
  let median := median values
  if values.length % 2 = 0 then
    (values.foldl (median_in_set_step median) (0, wordMax 64)).1
  else median

/-! ### What sorting and the median guarantee

All that the rest of the development knows about `sort` and `median`. Both depend on the values
and not on their order, so that a statement about a median may pick the order it likes; and
`median_mem_interval` is the one fact behind every bound on what a minority of sources can do. -/

@[simp] theorem length_sort (values : List ℕ) : (sort values).length = values.length :=
  List.length_insertionSort _ _

@[simp] theorem mem_sort {values : List ℕ} {x : ℕ} : x ∈ sort values ↔ x ∈ values :=
  List.mem_insertionSort _

theorem sort_perm (values : List ℕ) : (sort values).Perm values :=
  List.perm_insertionSort _ _

theorem sort_pairwise (values : List ℕ) : (sort values).Pairwise (· ≤ ·) :=
  List.pairwise_insertionSort _ _

/-- Sorting a sorted list changes nothing. -/
theorem sort_eq_self {values : List ℕ} (h : values.Pairwise (· ≤ ·)) : sort values = values :=
  h.insertionSort_eq

/-- Sorting only depends on the multiset. -/
theorem sort_congr {l₁ l₂ : List ℕ} (h : l₁.Perm l₂) : sort l₁ = sort l₂ :=
  eq_of_perm_of_pairwise ((sort_perm l₁).trans (h.trans (sort_perm l₂).symm))
    (sort_pairwise l₁) (sort_pairwise l₂)

@[simp] theorem median_nil : median [] = 0 := rfl

/-- The median of an odd number of values is the middle one. -/
theorem median_odd {values : List ℕ} (hodd : values.length % 2 = 1) :
    median values = (sort values).getD (values.length / 2) 0 := by
  have hne : values.isEmpty = false := by
    cases values with
    | nil => simp at hodd
    | cons a l => rfl
  have h2 : ¬ values.length % 2 = 0 := by omega
  simp only [median, hne, length_sort, h2, Bool.false_eq_true, if_false]

/-- The median of an even number of values averages the two middle ones. -/
theorem median_even {values : List ℕ} (hne : values ≠ []) (heven : values.length % 2 = 0) :
    median values
      = wrapping_add 64 ((sort values).getD (values.length / 2 - 1) 0)
          ((sort values).getD (values.length / 2) 0) / 2 := by
  have hemp : values.isEmpty = false := by
    cases values with
    | nil => exact absurd rfl hne
    | cons a l => rfl
  simp only [median, hemp, length_sort, heven, Bool.false_eq_true, if_false, if_true]

/-- The median only depends on the multiset. -/
theorem median_congr {l₁ l₂ : List ℕ} (h : l₁.Perm l₂) : median l₁ = median l₂ := by
  have hemp : l₁.isEmpty = l₂.isEmpty := by
    rw [Bool.eq_iff_iff, List.isEmpty_iff, List.isEmpty_iff]
    exact ⟨fun e => List.nil_perm.mp (e ▸ h), fun e => List.perm_nil.mp (e ▸ h)⟩
  simp only [median, hemp, sort_congr h]

/-- **A majority carries the median.** When more than half of the values lie in
`[lo, hi]`, so does their median, whatever the others are: both middle positions hold
values of the interval, and their sum does not wrap. -/
theorem median_mem_interval {values : List ℕ} {lo hi : ℕ} (h : lo ≤ hi) (hhi : hi < 2 ^ 63)
    (hmaj : values.length < 2 * countIn lo hi values) :
    lo ≤ median values ∧ median values ≤ hi := by
  have hcount : countIn lo hi (sort values) = countIn lo hi values :=
    countIn_perm (sort_perm values)
  have hle : countIn lo hi values ≤ values.length := List.countP_le_length
  have hmid : ∀ k, values.length - countIn lo hi values ≤ k →
      values.length - countIn lo hi values + k < values.length →
      lo ≤ (sort values).getD k 0 ∧ (sort values).getD k 0 ≤ hi := by
    intro k hbelow habove
    have hk : k < (sort values).length := by rw [length_sort]; omega
    rw [List.getD_eq_getElem _ _ hk]
    exact getElem_mem_interval (sort_pairwise values) h hk
      (by rw [hcount, length_sort]; exact hbelow) (by rw [hcount, length_sort]; exact habove)
  rcases Nat.mod_two_eq_zero_or_one values.length with heven | hodd
  · -- two values of the interval: their sum stays below `2 ^ 64`
    have hne : values ≠ [] := by
      rintro rfl
      simp only [countIn, List.countP_nil, List.length_nil] at hmaj
      omega
    obtain ⟨hlo1, hhi1⟩ := hmid (values.length / 2 - 1) (by omega) (by omega)
    obtain ⟨hlo2, hhi2⟩ := hmid (values.length / 2) (by omega) (by omega)
    rw [median_even hne heven, wrapping_add_eq (by omega)]
    omega
  · rw [median_odd hodd]
    exact hmid (values.length / 2) (by omega) (by omega)

/-- The value closest to the median of two: the first one when their sum is even, since
both are as close, and the smaller one otherwise. -/
theorem median_in_set_pair {a b : ℕ} (h : a + b < 2 ^ 64) :
    median_in_set [a, b] = if (a + b) % 2 = 0 then a else min a b := by
  have hsort : (sort [a, b]).getD 0 0 + (sort [a, b]).getD 1 0 = a + b := by
    have hsum := (sort_perm [a, b]).sum_eq
    have hlen := length_sort [a, b]
    match hs : sort [a, b], hlen with
    | [x, y], _ =>
      rw [hs] at hsum
      simpa using hsum
  have hmedian : median [a, b] = (a + b) / 2 := by
    have hlen : [a, b].length = 2 := rfl
    rw [median_even (List.cons_ne_nil _ _) (by rw [hlen]), hlen]
    simp only [Nat.reduceDiv, Nat.reduceSub]
    rw [wrapping_add_eq (by omega), hsort]
  have hfirst : abs_diff a ((a + b) / 2) < wordMax 64 := by
    simp only [abs_diff, wordMax]
    split <;> omega
  -- the scan keeps the first value unless the second one is strictly closer
  have hscan : median_in_set [a, b]
      = if abs_diff b ((a + b) / 2) < abs_diff a ((a + b) / 2) then b else a := by
    have hlen : [a, b].length % 2 = 0 := by rw [List.length_cons, List.length_singleton]
    unfold median_in_set
    rw [hmedian, if_pos hlen, List.foldl_cons, List.foldl_cons, List.foldl_nil,
      median_in_set_step, median_in_set_step, if_pos hfirst]
    split <;> rfl
  rw [hscan]
  by_cases heven : (a + b) % 2 = 0
  · have htie : ¬ abs_diff b ((a + b) / 2) < abs_diff a ((a + b) / 2) := by
      simp only [abs_diff]
      split <;> split <;> omega
    rw [if_pos heven, if_neg htie]
  · rcases Nat.lt_or_ge b a with hlt | hge
    · have hcloser : abs_diff b ((a + b) / 2) < abs_diff a ((a + b) / 2) := by
        simp only [abs_diff]
        split <;> split <;> omega
      rw [if_neg heven, if_pos hcloser]
      omega
    · have hfarther : ¬ abs_diff b ((a + b) / 2) < abs_diff a ((a + b) / 2) := by
        simp only [abs_diff]
        split <;> split <;> omega
      rw [if_neg heven, if_neg hfarther]
      omega

/-! ## The standard deviation

The square root is the digit-by-digit one, in base four. Its two loops are definitions of their
own, with the loop state as arguments; `SquareRoot` has the invariant of each. -/

/-- The first loop of `integer_sqrt`: the largest power of four not above `number`. -/
def integer_sqrt_power (number : ℕ) (power : ℕ) : ℕ :=
  if number < power then integer_sqrt_power number (power / 4) else power
termination_by power
decreasing_by omega

/-- The second loop of `integer_sqrt`. -/
def integer_sqrt_loop (difference result power : ℕ) : ℕ :=
  if power = 0 then result
  else if wrapping_add 128 result power ≤ difference then
    integer_sqrt_loop (difference - wrapping_add 128 result power)
      (wrapping_add 128 (result / 2) power) (power / 4)
  else integer_sqrt_loop difference (result / 2) (power / 4)
termination_by power
decreasing_by all_goals omega

/-- The integer square root of a 128-bit number. -/
def integer_sqrt (number : ℕ) : ℕ :=
  truncate 64 (integer_sqrt_loop number 0 (integer_sqrt_power number (2 ^ 126)))

/-- `(rate as i128).saturating_sub(mean).saturating_pow(2) as u128`. -/
def squared_deviation (mean rate : ℕ) : ℕ := min (abs_diff rate mean ^ 2) (2 ^ 127 - 1)

/-- The standard deviation of the given rates. -/
def standard_deviation (rates : List ℕ) : ℕ :=
  let count := rates.length
  if count < 2 then 0
  else
    let mean := truncate 128 rates.sum / count
    let variance := truncate 128 (rates.map (squared_deviation mean)).sum / (count - 1)
    integer_sqrt variance

/-! ## Requests, callers and pairs

What is decided about a request before anything is computed for it: the minute it is for, the
symbols it is taken to name, and whether its caller or its pair of assets is let past a limit. -/

/-- The requested timestamp, or the time half a minute ago, at the start of its
minute. -/
def utils.get_normalized_timestamp (env : Environment) (request : GetExchangeRateRequest) :
    ℕ :=
  request.timestamp.getD (env.time_secs - 30) / 60 * 60

section Symbols

variable [Unicode]

/-- The symbol in upper case, empty when it is not alphanumeric. -/
def sanitize_symbol (symbol : String) : String :=
  if symbol.toList.all Unicode.is_alphanumeric then to_uppercase symbol else ""

/-- `sanitize_request`. -/
def sanitize_request (request : GetExchangeRateRequest) : GetExchangeRateRequest :=
  { base_asset :=
      { symbol := sanitize_symbol request.base_asset.symbol
        class' := request.base_asset.class' }
    quote_asset :=
      { symbol := sanitize_symbol request.quote_asset.symbol
        class' := request.quote_asset.class' }
    timestamp := request.timestamp }

end Symbols

/-- Checks if the caller's principal ID is anonymous. -/
def is_caller_anonymous (caller : Principal) : Bool := decide (caller = Principal.anonymous)

/-- Checks if the caller is among the privileged canisters. -/
def is_caller_privileged (caller : Principal) : Bool :=
  decide (caller ∈ PRIVILEGED_CANISTER_IDS)

/-- Checks if the asset pair bypasses the rate limiting. -/
def is_privileged_asset_pair (base_asset quote_asset : Asset) : Bool :=
  match base_asset.class', quote_asset.class' with
  | .FiatCurrency, .FiatCurrency => true
  | .FiatCurrency, .Cryptocurrency => decide (quote_asset.symbol ∈ PRIVILEGED_CRYPTO_ASSETS)
  | .Cryptocurrency, .FiatCurrency => decide (base_asset.symbol ∈ PRIVILEGED_CRYPTO_ASSETS)
  | .Cryptocurrency, .Cryptocurrency =>
    (decide (base_asset.symbol = USDT)
        && decide (quote_asset.symbol ∈ PRIVILEGED_CRYPTO_ASSETS))
      || (decide (quote_asset.symbol = USDT)
        && decide (base_asset.symbol ∈ PRIVILEGED_CRYPTO_ASSETS))

/-- Inverts a given rate, `none` when it is zero. The quotient is cast to 64 bits. -/
def checked_invert_rate (rate decimals : ℕ) : Option ℕ :=
  let max_value := wrapping_pow 128 10 (wrapping_mul 32 2 decimals)
  if rate = 0 then none else some (truncate 64 (max_value / rate))

end Xrc
