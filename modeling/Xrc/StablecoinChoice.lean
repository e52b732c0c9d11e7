/-
Which stablecoin stands in for its peg, for any number of them. The choice is a middle one
of the medians (`chosen_is_middle`); what `get_stablecoin_rate` returns is the inverse of its
rates after they have passed the constructor, and so its outlier filter, a second time
(`estimate_inverts_all_iff`).
-/
import Xrc.ExactMedian
import Xrc.CrossRates
import Xrc.Stablecoin

set_option autoImplicit false

namespace Xrc

open Machine OrderStatistics QueriedExchangeRate

namespace stablecoin

/-- The medians the choice is made by. -/
def medians (stablecoin_rates : List QueriedExchangeRate) : List ℕ :=
  stablecoin_rates.map fun rate => median rate.rates

/-- All rates are against one quote asset. The code compares each with the first one, which comes
to the same. -/
def SameQuote (stablecoin_rates : List QueriedExchangeRate) : Prop :=
  ∀ rate ∈ stablecoin_rates, ∀ rate' ∈ stablecoin_rates, rate.quote_asset = rate'.quote_asset

/-- The first rate with a median. -/
def first_with (stablecoin_rates : List QueriedExchangeRate) (m : ℕ) : Option QueriedExchangeRate :=
  stablecoin_rates.find? fun rate => decide (median rate.rates = m)

@[simp] theorem length_medians (l : List QueriedExchangeRate) : (medians l).length = l.length :=
  List.length_map _

theorem SameQuote.perm {l l' : List QueriedExchangeRate} (hp : l.Perm l') (h : SameQuote l) :
    SameQuote l' := by
  intro rate hrate rate' hrate'
  exact h rate (hp.mem_iff.mpr hrate) rate' (hp.mem_iff.mpr hrate')

/-- A median has a first rate. -/
theorem exists_first_with {l : List QueriedExchangeRate} {m : ℕ} (h : m ∈ medians l) :
    ∃ rate, first_with l m = some rate := by
  obtain ⟨rate, hrate, hmedian⟩ := List.mem_map.mp h
  cases hfirst : first_with l m with
  | some first => exact ⟨first, rfl⟩
  | none =>
      have habsent := List.find?_eq_none.mp hfirst rate hrate
      rw [decide_eq_true_eq] at habsent
      exact absurd hmedian habsent

theorem first_with_spec {l : List QueriedExchangeRate} {m : ℕ} {rate : QueriedExchangeRate}
    (h : first_with l m = some rate) : rate ∈ l ∧ median rate.rates = m := by
  have hfound := List.find?_some h
  rw [decide_eq_true_eq] at hfound
  exact ⟨List.mem_of_find?_eq_some h, hfound⟩

/-- The check of the quote assets compares each with the first one. -/
theorem find?_quote_eq_none_iff {first : QueriedExchangeRate} {rest : List QueriedExchangeRate} :
    ((first :: rest).find? fun rate => decide (rate.quote_asset ≠ first.quote_asset)) = none
      ↔ SameQuote (first :: rest) := by
  rw [List.find?_eq_none]
  constructor
  · intro h rate hrate rate' hrate'
    have hfirst : ∀ r ∈ first :: rest, r.quote_asset = first.quote_asset := by
      intro r hr
      simpa using h r hr
    rw [hfirst rate hrate, hfirst rate' hrate']
  · intro h rate hrate
    simpa using h rate hrate first List.mem_cons_self

/-- **What is chosen, case by case**: of at least two rates, nothing when their quote assets
differ or the chosen median is zero, and otherwise the first one with the chosen median. -/
theorem median_stablecoin_rate_cases {l : List QueriedExchangeRate}
    (hlen : MIN_NUM_STABLECOIN_RATES ≤ l.length) (hsmall : ∀ m ∈ medians l, m < 2 ^ 63) :
    (¬ SameQuote l
        ∧ ∃ expected found, median_stablecoin_rate l = .error (.DifferentQuoteAssets expected found))
      ∨ (SameQuote l ∧ median_in_set (medians l) = 0
        ∧ median_stablecoin_rate l = .error .ZeroRate)
      ∨ SameQuote l ∧ median_in_set (medians l) ≠ 0
        ∧ ∃ chosen, first_with l (median_in_set (medians l)) = some chosen
            ∧ median_stablecoin_rate l = .ok chosen := by
  cases l with
  | nil => exact absurd hlen (by decide)
  | cons first rest =>
      unfold median_stablecoin_rate
      rw [if_neg (not_lt.mpr hlen)]
      dsimp only
      cases hfind : (first :: rest).find? fun rate =>
          decide (rate.quote_asset ≠ first.quote_asset) with
      | some found =>
          have hdiffer : ¬ SameQuote (first :: rest) := by
            rw [← find?_quote_eq_none_iff, hfind]
            nofun
          exact Or.inl ⟨hdiffer, first.quote_asset, found.quote_asset, rfl⟩
      | none =>
          have hsame := find?_quote_eq_none_iff.mp hfind
          right
          by_cases hzero : median_in_set (medians (first :: rest)) = 0
          · exact Or.inl ⟨hsame, hzero, if_pos hzero⟩
          · -- a median that is chosen is the median of one of the rates
            right
            refine ⟨hsame, hzero, ?_⟩
            have hne : medians (first :: rest) ≠ [] := List.cons_ne_nil _ _
            obtain ⟨chosen, hfirst⟩ := exists_first_with (median_in_set_mem hsmall hne)
            refine ⟨chosen, hfirst, ?_⟩
            have hfirst' : ((first :: rest).find? fun rate => decide (median rate.rates
                = median_in_set ((first :: rest).map fun rate => median rate.rates)))
                = some chosen := hfirst
            have hzero' : ¬ median_in_set
                ((first :: rest).map fun rate => median rate.rates) = 0 := hzero
            rw [if_neg hzero', hfirst']

/-- Medians in range do not overflow in pairs. -/
theorem medians_lt {l : List QueriedExchangeRate} (h : ∀ rate ∈ l, median rate.rates ≤ MAX_RATE) :
    ∀ m ∈ medians l, m < 2 ^ 63 := by
  intro m hm
  obtain ⟨rate, hrate, rfl⟩ := List.mem_map.mp hm
  exact lt_of_le_of_lt (h rate hrate) MAX_RATE_lt

/-- Among rates against one quote asset with positive medians one is chosen. -/
theorem exists_chosen {l : List QueriedExchangeRate} (hlen : MIN_NUM_STABLECOIN_RATES ≤ l.length)
    (hquote : SameQuote l) (hrange : ∀ rate ∈ l, 0 < median rate.rates ∧ median rate.rates ≤ MAX_RATE) :
    ∃ chosen ∈ l, median_stablecoin_rate l = .ok chosen
      ∧ median chosen.rates = median_in_set (medians l) := by
  have hsmall := medians_lt fun rate hrate => (hrange rate hrate).2
  have hne : medians l ≠ [] := by
    intro hnil
    have hzero := congrArg List.length hnil
    rw [length_medians, List.length_nil] at hzero
    rw [hzero] at hlen
    exact absurd hlen (by decide)
  rcases median_stablecoin_rate_cases hlen hsmall with ⟨hdiffer, -⟩ | ⟨-, hzero, -⟩
    | ⟨-, -, chosen, hfirst, hchosen⟩
  · exact absurd hquote hdiffer
  · -- the chosen median is that of one of the rates, and positive
    have hmem := median_in_set_mem hsmall hne
    rw [hzero] at hmem
    obtain ⟨rate, hrate, hmedian⟩ := List.mem_map.mp hmem
    exact absurd hmedian (hrange rate hrate).1.ne'
  · obtain ⟨hmem, hmedian⟩ := first_with_spec hfirst
    exact ⟨chosen, hmem, hchosen, hmedian⟩

theorem get_stablecoin_rate_of_chosen {l : List QueriedExchangeRate} {chosen : QueriedExchangeRate}
    (h : median_stablecoin_rate l = .ok chosen) (target : Asset) :
    get_stablecoin_rate l target
      = .ok (estimate chosen target (l.map QueriedExchangeRate.timestamp)) := by
  rw [get_stablecoin_rate, h]
  rfl

/-- **The chosen stablecoin is a middle one.** Among at least two rates against one quote asset,
each with a median in `(0, RATE_UNIT * RATE_UNIT]`, one is chosen, and its median has one of the
two middle ranks of all medians. It therefore lies in every interval that holds more than half of
them; for an odd number it does not depend on their order, and for an even number only when the
two middle medians differ by an even amount.

`median_in_set` goes by the exact middle value, or for an even number by the mean of the two, and
takes the nearest median; on a tie the first one in the list. So an order of the list matters only
when both middle medians are equally near to the mean. -/
theorem chosen_is_middle (l : List QueriedExchangeRate) (target : Asset)
    (hlen : MIN_NUM_STABLECOIN_RATES ≤ l.length) (hquote : SameQuote l)
    (hrange : ∀ rate ∈ l, 0 < median rate.rates ∧ median rate.rates ≤ RATE_UNIT * RATE_UNIT) :
    ∃ chosen ∈ l, median_stablecoin_rate l = .ok chosen
      ∧ get_stablecoin_rate l target
          = .ok (estimate chosen target (l.map QueriedExchangeRate.timestamp))
      ∧ (IsRanked (medians l) ((l.length - 1) / 2) (median chosen.rates)
          ∨ IsRanked (medians l) (l.length / 2) (median chosen.rates))
      ∧ (∀ lo hi, l.length < 2 * countIn lo hi (medians l) →
          lo ≤ median chosen.rates ∧ median chosen.rates ≤ hi)
      ∧ ∀ l' : List QueriedExchangeRate, l.Perm l' →
          ∃ chosen', median_stablecoin_rate l' = .ok chosen'
            ∧ (l.length % 2 = 1 → median chosen'.rates = median chosen.rates)
            ∧ (l.length % 2 = 0 → median chosen'.rates ≠ median chosen.rates →
                (upper_median (medians l) - lower_median (medians l)) % 2 = 0) := by
  obtain ⟨chosen, hmem, hchosen, hmedian⟩ := exists_chosen hlen hquote hrange
  have hsmall := medians_lt fun rate hrate => (hrange rate hrate).2
  have hne : medians l ≠ [] := List.ne_nil_of_mem (List.mem_map_of_mem hmem)
  have hlower := isRanked_lower_median hne
  have hupper := isRanked_upper_median hne
  rw [length_medians] at hlower hupper
  have hmiddle := median_in_set_middle hsmall
  rw [← hmedian] at hmiddle
  refine ⟨chosen, hmem, hchosen, get_stablecoin_rate_of_chosen hchosen target, ?_, ?_, ?_⟩
  · rcases hmiddle with heq | heq
    · rw [heq]
      exact Or.inl hlower
    · rw [heq]
      exact Or.inr hupper
  · intro lo hi hmajority
    rw [← length_medians l] at hmajority
    have hlohi : lo ≤ hi := by
      obtain ⟨m, -, hin⟩ := List.countP_pos_iff.mp (show 0 < countIn lo hi (medians l) by omega)
      have hin' := of_decide_eq_true hin
      omega
    have hboth := middle_mem_interval hlohi hmajority
    rcases hmiddle with heq | heq
    · rw [heq]
      exact hboth.1
    · rw [heq]
      exact hboth.2
  · intro l' hp
    obtain ⟨chosen', -, hchosen', hmedian'⟩ := exists_chosen (hp.length_eq ▸ hlen)
      (hquote.perm hp) (fun rate hrate => hrange rate (hp.mem_iff.mpr hrate))
    have hp' : (medians l).Perm (medians l') := hp.map _
    obtain ⟨hlow, hup⟩ := middle_congr hp'
    have hsmall' : ∀ m ∈ medians l', m < 2 ^ 63 := fun m hm => hsmall m (hp'.mem_iff.mpr hm)
    have hmiddle' := median_in_set_middle hsmall'
    rw [← hmedian', ← hlow, ← hup] at hmiddle'
    refine ⟨chosen', hchosen', ?_, ?_⟩
    · intro hodd
      have hsame := @lower_median_eq_upper_median (medians l)
        (by rw [length_medians]; exact hodd)
      omega
    · -- on an odd sum both orders choose the lower one
      intro _ hdiffer
      by_contra hnot
      have hle := lower_median_le_upper_median (medians l)
      have hodd : (lower_median (medians l) + upper_median (medians l)) % 2 = 1 := by omega
      have h₁ := median_in_set_eq hsmall
      have h₂ := median_in_set_eq hsmall'
      rw [if_pos (Or.inl hodd)] at h₁
      rw [← hlow, ← hup, if_pos (Or.inl hodd)] at h₂
      rw [hmedian, hmedian', h₁, h₂] at hdiffer
      exact hdiffer rfl

/-- A stablecoin that nine exchanges quote between 0.80 and 2 dollars. -/
def scattered_usdc : QueriedExchangeRate :=
  new ⟨USDC, .Cryptocurrency⟩ usdt_asset 0
    [800_000_000, 800_000_000, 810_000_000, 1_000_000_000, 1_000_000_000, 2_000_000_000,
      2_000_000_000, 2_000_000_000, 2_000_000_000] 9 9 none

/-- A stablecoin that one exchange quotes. -/
def single_usds (rate : ℕ) : QueriedExchangeRate :=
  new ⟨USDS, .Cryptocurrency⟩ usdt_asset 0 [rate] 9 1 none

theorem sameQuote_example : SameQuote [scattered_usdc, single_usds 900_000_000] :=
  find?_quote_eq_none_iff.mp (by decide +kernel)

/-- Of the two stablecoins one between 0.80 and 0.90 dollars is chosen. -/
theorem chosen_between_both :
    ∃ chosen ∈ [scattered_usdc, single_usds 900_000_000],
      800_000_000 ≤ median chosen.rates ∧ median chosen.rates ≤ 900_000_000 := by
  obtain ⟨chosen, hmem, -, -, -, hinterval, -⟩ := chosen_is_middle
    [scattered_usdc, single_usds 900_000_000] usd_asset (by decide) sameQuote_example
    (by decide +kernel)
  exact ⟨chosen, hmem, hinterval 800_000_000 900_000_000 (by decide +kernel)⟩

/-! ## The estimate

`get_stablecoin_rate` builds its result with the constructor, and so filters the rates of the
chosen stablecoin for a second time, now around their own median alone. They have passed the
filter before, but around the median of all rates that were received, outliers included. -/

/-- A rate that the constructor built. Nothing is known of its arguments, which is how an answer
of the exchanges enters. -/
def Built (rate : QueriedExchangeRate) : Prop :=
  ∃ base_asset quote_asset timestamp rates queried received forex_timestamp,
    rate = new base_asset quote_asset timestamp rates queried received forex_timestamp

theorem Built.inRange {rate : QueriedExchangeRate} (h : Built rate) : InRange rate.rates := by
  obtain ⟨base_asset, quote_asset, timestamp, rates, queried, received, forex_timestamp, rfl⟩ := h
  exact new_rates_inRange _ _ _ _ _ _ _

theorem Built.pairwise {rate : QueriedExchangeRate} (h : Built rate) :
    rate.rates.Pairwise (· ≤ ·) := by
  obtain ⟨base_asset, quote_asset, timestamp, rates, queried, received, forex_timestamp, rfl⟩ := h
  exact new_rates_pairwise _ _ _ _ _ _ _

/-- The rates of an estimate are the inverses of those that pass the filter once more. -/
theorem estimate_rates (chosen : QueriedExchangeRate) (target : Asset) (timestamps : List ℕ) :
    (estimate chosen target timestamps).rates
      = sort ((sort (chosen.rates.filter (retains (median chosen.rates)))).map fun r =>
          MAX_RATE / r) := by
  have hrange : InRange (new target chosen.quote_asset (median timestamps / 60 * 60) chosen.rates
      chosen.base_asset_num_queried_sources chosen.base_asset_num_received_rates none).rates :=
    new_rates_inRange _ _ _ _ _ _ _
  have hinverse := (inverted_of_decimals hrange rfl).2
  rw [new_rates] at hinverse
  exact hinverse

/-- **When the estimate is the chosen stablecoin's own rate.** Among at least two rates that the
constructor built against one quote asset, none of them empty, one is chosen, and the estimate
consists of the inverses of all its rates, none dropped, exactly when each of them lies within a
fifth of their own median.

The estimate inverts the chosen rates through the constructor, whose filter goes by their median.
A rate dropped there is missing in the estimate, and otherwise the inverses of a sorted list are a
sorted list again, read backwards. -/
theorem estimate_inverts_all_iff (l : List QueriedExchangeRate) (target : Asset)
    (hlen : MIN_NUM_STABLECOIN_RATES ≤ l.length) (hquote : SameQuote l)
    (hbuilt : ∀ rate ∈ l, Built rate) (hmedian : ∀ rate ∈ l, median rate.rates ≠ 0) :
    ∃ chosen ∈ l, median_stablecoin_rate l = .ok chosen
      ∧ ∃ result, get_stablecoin_rate l target = .ok result
        ∧ (result.rates = sort (chosen.rates.map fun r => 10 ^ 18 / r)
          ↔ ∀ r ∈ chosen.rates, abs_diff r (median chosen.rates)
              ≤ median chosen.rates / MAX_RELATIVE_DIFFERENCE_DIVISOR) := by
  have hrange : ∀ rate ∈ l, 0 < median rate.rates ∧ median rate.rates ≤ MAX_RATE := by
    intro rate hrate
    apply median_of_inRange (hbuilt rate hrate).inRange
    intro hnil
    have hpos := hmedian rate hrate
    rw [hnil] at hpos
    exact hpos rfl
  obtain ⟨chosen, hmem, hchosen, -⟩ := exists_chosen hlen hquote hrange
  refine ⟨chosen, hmem, hchosen, _, get_stablecoin_rate_of_chosen hchosen target, ?_⟩
  have hin := (hbuilt chosen hmem).inRange
  have hmax : (10 : ℕ) ^ 18 = MAX_RATE := by decide
  rw [estimate_rates, hmax]
  constructor
  · -- if a rate were dropped there would be fewer inverses
    intro heq
    have hlength := congrArg List.length heq
    simp only [length_sort, List.length_map, List.length_filter_eq_length_iff] at hlength
    intro r hr
    exact (retains_iff.mp (hlength r hr)).2.2
  · intro hall
    have hkept : chosen.rates.filter (retains (median chosen.rates)) = chosen.rates := by
      refine List.filter_eq_self.mpr fun r hr => retains_iff.mpr ?_
      exact ⟨(hin r hr).1, (hin r hr).2, hall r hr⟩
    rw [hkept, sort_eq_self (hbuilt chosen hmem).pairwise]

theorem built_example : ∀ rate ∈ [scattered_usdc, single_usds 900_000_000], Built rate := by
  intro rate hrate
  rcases List.mem_cons.mp hrate with rfl | hrate
  · exact ⟨_, _, _, _, _, _, _, rfl⟩
  · rw [List.mem_singleton.mp hrate]
    exact ⟨_, _, _, _, _, _, _, rfl⟩

/-- Listed first, the stablecoin with a single rate is chosen, and none is dropped. -/
theorem single_rate_inverted :
    ∃ result, get_stablecoin_rate [single_usds 900_000_000, scattered_usdc] usd_asset = .ok result
      ∧ result.rates = [1_111_111_111] := by
  have hswap := List.Perm.swap (single_usds 900_000_000) scattered_usdc []
  obtain ⟨chosen, -, hchosen, result, hresult, hall⟩ := estimate_inverts_all_iff
    [single_usds 900_000_000, scattered_usdc] usd_asset (by decide)
    (sameQuote_example.perm hswap)
    (fun rate hrate => built_example rate (hswap.mem_iff.mpr hrate)) (by decide +kernel)
  have hsingle : median_stablecoin_rate [single_usds 900_000_000, scattered_usdc]
      = .ok (single_usds 900_000_000) := by decide +kernel
  obtain rfl := Except.ok.inj (hchosen.symm.trans hsingle)
  exact ⟨result, hresult, (hall.mpr (by decide +kernel)).trans (by decide +kernel)⟩

/-- The scattered stablecoin is chosen for its median of 0.81, but only the inverses of its
three lowest rates are returned, whose median is that of 0.80. -/
theorem scattered_rates_dropped :
    ¬ ∀ (l : List QueriedExchangeRate) (target : Asset), MIN_NUM_STABLECOIN_RATES ≤ l.length →
      SameQuote l → (∀ rate ∈ l, Built rate) → (∀ rate ∈ l, median rate.rates ≠ 0) →
      ∀ chosen, median_stablecoin_rate l = .ok chosen →
      ∀ result, get_stablecoin_rate l target = .ok result →
        result.rates = sort (chosen.rates.map fun r => 10 ^ 18 / r) := by
  intro h
  have hchosen : median_stablecoin_rate [scattered_usdc, single_usds 900_000_000]
      = .ok scattered_usdc := by decide +kernel
  have hrates := h _ usd_asset (by decide) sameQuote_example built_example
    (by decide +kernel) _ hchosen _
    (get_stablecoin_rate_of_chosen hchosen usd_asset)
  exact absurd hrates (by decide +kernel)

end stablecoin

end Xrc
