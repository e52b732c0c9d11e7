/-
How many rates the entries of a day stand for. `received` reads the count of an entry as an element
of `WithBot ℕ`, so that a missing entry is the least one: merging two entries is a maximum, the
entry of a currency counts the answers that quote it, and that of the computed XDR rate counts
the currency of the basket with the fewest.
-/
import Xrc.SourceOrder
import Mathlib.Order.Lattice.Nat
import Mathlib.Order.WithBot

set_option autoImplicit false

namespace Xrc

/-! ## The count of an entry

With the missing entry as the least element, keeping the better one of two entries is taking the
larger count, whether or not there is an entry on either side. -/

/-- The rates an entry stands for, nothing without an entry. -/
def received : Option QueriedExchangeRate → WithBot ℕ
  | some rate => WithBot.some rate.base_asset_num_received_rates
  | none => ⊥

theorem received_eq_bot_iff {rate : Option QueriedExchangeRate} :
    received rate = ⊥ ↔ rate = none := by
  cases rate <;> simp [received]

/-- **A merge is a maximum.** The store keeps the rate with more sources, so the counts can be
followed without the rates. A missing entry has no count at all, which is less than a count of
zero. -/
theorem received_merge_entry (old new : Option QueriedExchangeRate) :
    received (ForexRateStore.merge_entry old new) = received old ⊔ received new := by
  cases old with
  | none => exact (bot_sup_eq _).symm
  | some old =>
      cases new with
      | none => exact (sup_bot_eq _).symm
      | some new =>
          simp only [ForexRateStore.merge_entry, ForexRateStore.better, received]
          split
          · rename_i hlt
            exact (sup_eq_right.mpr (WithBot.coe_le_coe.mpr hlt.le)).symm
          · rename_i hge
            exact (sup_eq_left.mpr (WithBot.coe_le_coe.mpr (not_lt.mp hge))).symm

namespace OneDayRatesCollector

/-! ## The counts of a day

What a day of the collector has for a symbol only grows, since every answer adds its rates to
the list. SDR is collected as XDR, which is why two symbols are treated apart. -/

/-- The length of a list of rates, nothing without one. -/
def rates_len : Option (List ℕ) → WithBot ℕ
  | some rates => WithBot.some rates.length
  | none => ⊥

/-- The number of rates collected for a symbol, nothing when it was never quoted. -/
def level (self : OneDayRatesCollector) (symbol : String) : WithBot ℕ :=
  rates_len (self.rates symbol)

theorem level_eq_bot_iff {self : OneDayRatesCollector} {symbol : String} :
    self.level symbol = ⊥ ↔ self.rates symbol = none := by
  unfold level
  cases self.rates symbol <;> simp [rates_len]

theorem le_level_iff {self : OneDayRatesCollector} {symbol : String} {n : ℕ} (hn : 0 < n) :
    WithBot.some n ≤ self.level symbol ↔ n ≤ self.count symbol := by
  unfold level count
  cases self.rates symbol with
  | none =>
      refine iff_of_false ?_ (by simpa using hn.ne')
      exact not_le.mpr (WithBot.bot_lt_coe n)
  | some rates => exact WithBot.coe_le_coe

/-- A quote adds to the symbol it is collected under. Nothing is ever taken out of a list, and all
other lists stay as they are. -/
theorem rates_len_foldl_push_rate (symbol : String) (entries : List (String × ℕ)) :
    ∀ rates : String → Option (List ℕ),
      rates_len (rates symbol) ≤ rates_len (entries.foldl push_rate rates symbol) := by
  induction entries with
  | nil => exact fun _ => le_rfl
  | cons entry entries ih =>
      intro rates
      refine le_trans ?_ (ih _)
      unfold push_rate
      -- a rate that is pushed makes the list of its own symbol longer, and no other
      by_cases hsymbol : symbol = collected_symbol entry.1
      · subst hsymbol
        rw [Function.update_self]
        cases rates (collected_symbol entry.1) with
        | none => exact bot_le
        | some old =>
            apply WithBot.coe_le_coe.mpr
            simp
      · rw [Function.update_of_ne hsymbol]

/-- An answer only adds to a count. -/
theorem level_le_update (self : OneDayRatesCollector) (source : String) (rates : ForexRateMap)
    (symbol : String) : self.level symbol ≤ (self.update source rates).level symbol := by
  unfold update
  split
  · exact le_rfl
  · exact rates_len_foldl_push_rate symbol rates.entries self.rates

/-- A symbol is still without a rate when nothing was quoted that is collected under it. -/
theorem rates_foldl_push_rate_eq_none_iff (symbol : String) (entries : List (String × ℕ)) :
    ∀ rates : String → Option (List ℕ), entries.foldl push_rate rates symbol = none
      ↔ rates symbol = none ∧ ∀ entry ∈ entries, collected_symbol entry.1 ≠ symbol := by
  induction entries with
  | nil => simp
  | cons entry entries ih =>
      intro rates
      rw [List.foldl_cons, ih, List.forall_mem_cons, push_rate]
      by_cases hsymbol : symbol = collected_symbol entry.1
      · subst hsymbol
        simp
      · rw [Function.update_of_ne hsymbol]
        simp [Ne.symm hsymbol]

theorem rates_update_eq_none_iff (self : OneDayRatesCollector) (source : String)
    (rates : ForexRateMap) (symbol : String) :
    (self.update source rates).rates symbol = none
      ↔ self.rates symbol = none ∧ ∀ quoted ∈ rates.symbols, collected_symbol quoted ≠ symbol := by
  have hquoted : (∀ quoted ∈ rates.symbols, collected_symbol quoted ≠ symbol)
      ↔ ∀ entry ∈ rates.entries, collected_symbol entry.1 ≠ symbol := by
    simp [ForexRateMap.symbols]
  rw [hquoted]
  unfold update
  split
  · rename_i hempty
    simp [List.isEmpty_iff.mp hempty]
  · exact rates_foldl_push_rate_eq_none_iff symbol rates.entries self.rates

/-! ### All answers for a day

A source quotes a symbol once at most, so the rates of a symbol are counted by the answers that
quote it. -/

theorem update_all_append (self : OneDayRatesCollector) (results more : List SourceResult) :
    self.update_all (results ++ more) = (self.update_all results).update_all more :=
  List.foldl_append

theorem level_le_update_all (symbol : String) (results : List SourceResult) :
    ∀ self : OneDayRatesCollector, self.level symbol ≤ (self.update_all results).level symbol := by
  induction results with
  | nil => exact fun _ => le_rfl
  | cons result results ih =>
      exact fun self => (self.level_le_update result.source result.rates symbol).trans (ih _)

/-- A symbol has as many rates as answers that quote it. -/
theorem count_update_all {symbol : String} (hxdr : symbol ≠ "XDR") (hsdr : symbol ≠ "SDR")
    (results : List SourceResult) : ∀ self : OneDayRatesCollector,
      (self.update_all results).count symbol
        = self.count symbol + results.countP fun result => symbol ∈ result.rates.symbols := by
  induction results with
  | nil => exact fun _ => rfl
  | cons result results ih =>
      intro self
      have hrest := ih (self.update result.source result.rates)
      rw [count_update self result.source result.rates hxdr hsdr] at hrest
      rw [update_all, List.foldl_cons, ← update_all, hrest, List.countP_cons]
      simp only [decide_eq_true_eq]
      omega

/-- A symbol has no rate when no answer quotes it. -/
theorem rates_update_all_eq_none_iff (symbol : String) (results : List SourceResult) :
    ∀ self : OneDayRatesCollector, (self.update_all results).rates symbol = none
      ↔ self.rates symbol = none
        ∧ ∀ result ∈ results, ∀ quoted ∈ result.rates.symbols,
            collected_symbol quoted ≠ symbol := by
  induction results with
  | nil => simp [update_all]
  | cons result results ih =>
      intro self
      have hrest := ih (self.update result.source result.rates)
      rw [rates_update_eq_none_iff, and_assoc] at hrest
      rw [List.forall_mem_cons]
      exact hrest

/-! ### What is stored of it

An entry keeps the number of the rates it was built from, also of those the filter has left out.
The computed rate is built of three artificial rates, and is given the smallest count of its
basket explicitly. -/

section Stored

variable [Features]

/-- The entry of a currency stands for its rates. -/
theorem received_get_rates_map (self : OneDayRatesCollector) {symbol : String}
    (husd : symbol ≠ USD) (hcxdr : symbol ≠ COMPUTED_XDR_SYMBOL) :
    received (self.get_rates_map symbol) = self.level symbol := by
  rw [get_rates_map_of_ne self hcxdr, collected_rate, if_neg husd, level]
  cases self.rates symbol <;> rfl

/-- **The entry of the computed XDR rate** stands for the currency of the basket with the fewest
rates, and there is none while one of them is missing. -/
theorem received_get_rates_map_cxdr {self : OneDayRatesCollector}
    (hquoted : self.rates COMPUTED_XDR_SYMBOL = none) :
    received (self.get_rates_map COMPUTED_XDR_SYMBOL)
      = self.level "EUR" ⊓ self.level "CNY" ⊓ self.level "JPY" ⊓ self.level "GBP" := by
  rw [get_rates_map_cxdr, collected_rate, hquoted, Option.map_none, ite_self, Option.or_none,
    get_computed_xdr_rate]
  -- without one of the currencies nothing is computed, and its level is the least
  unfold level
  cases self.rates "EUR" with
  | none => simp [rates_len, received]
  | some eur_rates =>
      cases self.rates "CNY" with
      | none => simp [rates_len, received]
      | some cny_rates =>
          cases self.rates "JPY" with
          | none => simp [rates_len, received]
          | some jpy_rates =>
              cases self.rates "GBP" with
              | none => simp [rates_len, received]
              | some gbp_rates =>
                  simp only [rates_len, received, QueriedExchangeRate.new, WithBot.coe_min]

/-- More answers for a day leave no entry with fewer rates. -/
theorem received_get_rates_map_mono {self more : OneDayRatesCollector}
    (hlevel : ∀ symbol, self.level symbol ≤ more.level symbol)
    (hself : self.rates COMPUTED_XDR_SYMBOL = none) (hmore : more.rates COMPUTED_XDR_SYMBOL = none)
    {symbol : String} (husd : symbol ≠ USD) :
    received (self.get_rates_map symbol) ≤ received (more.get_rates_map symbol) := by
  by_cases hcxdr : symbol = COMPUTED_XDR_SYMBOL
  · rw [hcxdr, received_get_rates_map_cxdr hself, received_get_rates_map_cxdr hmore]
    gcongr <;> apply hlevel
  · rw [received_get_rates_map self husd hcxdr, received_get_rates_map more husd hcxdr]
    exact hlevel symbol

end Stored

end OneDayRatesCollector

end Xrc
