/-
`forex.rs`: the collector, which gathers the answers of the forex sources for the last
`MAX_COLLECTION_DAYS` days and turns the rates of a day into the map that is stored.

`OneDayRatesCollector.count_update` says what one answer adds to a symbol, and
`ForexRatesCollector.mem_days_update` what it does to the days. Nothing here counts
sources: that a rate stands for a source of its own is a property of runs, proved in
`Xrc.SourceCounts`.
-/
import Xrc.Forex
import Mathlib.Data.Finset.Basic
import Mathlib.Data.String.Basic

set_option autoImplicit false

namespace Xrc

open Machine QueriedExchangeRate

/-! ## What a source answers

A map from symbols to rates, as the list of its entries with the symbols ascending. The order is
that of a `BTreeMap`, and it is the order in which the collector sees the quotes. -/

/-- The rates of one source, in the order of their symbols. -/
structure ForexRateMap where
  entries : List (String × ℕ)
  ascending : (entries.map Prod.fst).Pairwise (· < ·)

namespace ForexRateMap

/-- The symbols a source quotes. -/
def symbols (self : ForexRateMap) : List String := self.entries.map Prod.fst

theorem nodup_symbols (self : ForexRateMap) : self.symbols.Nodup :=
  self.ascending.imp fun h => ne_of_lt h

end ForexRateMap

/-! ## One day

Rates of a symbol are appended, one source after the other, and the sources are remembered by
name. Only one symbol can get two rates of one source: "SDR" is collected as "XDR". -/

/-- The rates collected for one day, by symbol, and the sources they are from. The sources are
recorded so that none of them is asked for the day again; which of the rates is from which source
is not. -/
structure OneDayRatesCollector where
  rates : String → Option (List ℕ)
  sources : Finset String
  timestamp : ℕ

namespace OneDayRatesCollector

/-- `OneDayRatesCollector::new`. -/
def new (timestamp : ℕ) : OneDayRatesCollector := ⟨fun _ => none, ∅, timestamp⟩

/-- The symbol a quoted rate is collected under. -/
def collected_symbol (symbol : String) : String := if symbol = "SDR" then "XDR" else symbol

/-- Append one quoted rate. -/
def push_rate (rates : String → Option (List ℕ)) (entry : String × ℕ) :
    String → Option (List ℕ) :=
  let symbol := collected_symbol entry.1
  Function.update rates symbol (some ((rates symbol).getD [] ++ [entry.2]))

/-- `OneDayRatesCollector::update`. -/
def update (self : OneDayRatesCollector) (source : String) (rates : ForexRateMap) :
    OneDayRatesCollector :=
  if rates.entries.isEmpty then self
  else
    { rates := rates.entries.foldl push_rate self.rates
      sources := insert source self.sources
      timestamp := self.timestamp }

@[simp] theorem update_timestamp (self : OneDayRatesCollector) (source : String)
    (rates : ForexRateMap) : (self.update source rates).timestamp = self.timestamp := by
  unfold update
  split <;> rfl

/-- The number of rates collected for a symbol. -/
def count (self : OneDayRatesCollector) (symbol : String) : ℕ :=
  ((self.rates symbol).getD []).length

@[simp] theorem count_new (timestamp : ℕ) (symbol : String) : (new timestamp).count symbol = 0 :=
  rfl

/-! ### The computed XDR rate

The dollar value of the basket that defines the XDR, with each currency at the median of its
rates. The rate is stored as three numbers chosen for their median and their deviation, so that
what is derived from it later carries the uncertainty of the basket. It has as many sources as
the currency of the basket with the fewest. -/

def USD_XDR_WEIGHT_PER_MILLION : ℕ := 582_520
def EUR_XDR_WEIGHT_PER_MILLION : ℕ := 386_710
def CNY_XDR_WEIGHT_PER_MILLION : ℕ := 1_017_400
def JPY_XDR_WEIGHT_PER_MILLION : ℕ := 11_900_000
def GBP_XDR_WEIGHT_PER_MILLION : ℕ := 85_946

/-- The weighted sum of the medians of the basket, in millionths. -/
def xdr_rate (eur_rate cny_rate jpy_rate gbp_rate : ℕ) : ℕ :=
  let weighted := saturating_add 128 (saturating_add 128 (saturating_add 128 (saturating_add 128
    (saturating_mul 128 USD_XDR_WEIGHT_PER_MILLION RATE_UNIT)
    (saturating_mul 128 EUR_XDR_WEIGHT_PER_MILLION eur_rate))
    (saturating_mul 128 CNY_XDR_WEIGHT_PER_MILLION cny_rate))
    (saturating_mul 128 JPY_XDR_WEIGHT_PER_MILLION jpy_rate))
    (saturating_mul 128 GBP_XDR_WEIGHT_PER_MILLION gbp_rate)
  truncate 64 (weighted / 1_000_000)

/-- The variance of the weighted sum, from the rates of the four currencies. -/
def xdr_variance (eur_rates cny_rates jpy_rates gbp_rates : List ℕ) : ℕ :=
  let weighted_std_dev := fun weight rates => saturating_mul 128 weight (standard_deviation rates)
  let eur := weighted_std_dev EUR_XDR_WEIGHT_PER_MILLION eur_rates
  let cny := weighted_std_dev CNY_XDR_WEIGHT_PER_MILLION cny_rates
  let jpy := weighted_std_dev JPY_XDR_WEIGHT_PER_MILLION jpy_rates
  let gbp := weighted_std_dev GBP_XDR_WEIGHT_PER_MILLION gbp_rates
  saturating_add 128 (saturating_add 128 (saturating_add 128
    (saturating_pow 128 eur 2) (saturating_pow 128 cny 2)) (saturating_pow 128 jpy 2))
    (saturating_pow 128 gbp 2) / 1_000_000_000_000

/-- `get_computed_xdr_rate`. The rates `[x, x, x + difference]` have the median `x` and
the variance of the weighted sum. -/
def get_computed_xdr_rate (self : OneDayRatesCollector) : Option QueriedExchangeRate :=
  match self.rates "EUR", self.rates "CNY", self.rates "JPY", self.rates "GBP" with
  | some eur_rates, some cny_rates, some jpy_rates, some gbp_rates =>
    let xdr_rate := xdr_rate (median eur_rates) (median cny_rates) (median jpy_rates)
      (median gbp_rates)
    let xdr_num_sources :=
      min (min (min eur_rates.length cny_rates.length) jpy_rates.length) gbp_rates.length
    let variance := xdr_variance eur_rates cny_rates jpy_rates gbp_rates
    let difference := integer_sqrt (wrapping_mul 128 3 variance)
    some (QueriedExchangeRate.new ⟨COMPUTED_XDR_SYMBOL, .FiatCurrency⟩ usd_asset self.timestamp
      [xdr_rate, xdr_rate, saturating_add 64 xdr_rate difference] FOREX_SOURCES.length
      xdr_num_sources (some self.timestamp))
  | _, _, _, _ => none

/-- The rate stored for a collected symbol. -/
def collected_rate [Features] (self : OneDayRatesCollector) (symbol : String) :
    Option QueriedExchangeRate :=
  if symbol = USD then none
  else
    (self.rates symbol).map fun rates =>
      QueriedExchangeRate.new ⟨symbol, .FiatCurrency⟩ usd_asset self.timestamp rates
        (FOREX_SOURCES.filter Forex.is_available).length rates.length (some self.timestamp)

/-- `OneDayRatesCollector::get_rates_map`. -/
def get_rates_map [Features] (self : OneDayRatesCollector) : ForexMultiRateMap :=
  match self.get_computed_xdr_rate with
  | some rate => Function.update self.collected_rate COMPUTED_XDR_SYMBOL (some rate)
  | none => self.collected_rate

/-! ### What an answer adds

One rate for each symbol that the source quotes, and its name. Everything said later about
counts and sources of a day is an induction with these lemmas. -/

/-- Pushing quotes of other symbols leaves a symbol alone. -/
theorem foldl_push_rate_of_notMem {symbol : String} (entries : List (String × ℕ)) :
    ∀ rates : String → Option (List ℕ),
      (∀ entry ∈ entries, collected_symbol entry.1 ≠ symbol) →
        entries.foldl push_rate rates symbol = rates symbol := by
  induction entries with
  | nil => exact fun _ _ => rfl
  | cons entry entries ih =>
      intro rates hne
      rw [List.foldl_cons, ih _ fun e he => hne e (List.mem_cons_of_mem _ he)]
      exact Function.update_of_ne (hne entry List.mem_cons_self).symm _ _

/-- **What one answer adds to a symbol**: its own quote for it, if it has one. Only "XDR"
can gain two rates, by a source that also quotes "SDR". -/
theorem foldl_push_rate {symbol : String} (hxdr : symbol ≠ "XDR") (hsdr : symbol ≠ "SDR")
    (entries : List (String × ℕ)) :
    ∀ rates : String → Option (List ℕ), (entries.map Prod.fst).Nodup →
      ((entries.foldl push_rate rates symbol).getD []).length
        = ((rates symbol).getD []).length
          + if symbol ∈ entries.map Prod.fst then 1 else 0 := by
  have hsame : ∀ s, collected_symbol s = symbol ↔ s = symbol := by
    intro s
    unfold collected_symbol
    split
    · rename_i hs
      subst hs
      exact ⟨fun h => absurd h.symm hxdr, fun h => absurd h.symm hsdr⟩
    · rfl
  induction entries with
  | nil => exact fun rates _ => rfl
  | cons entry entries ih =>
      intro rates hnodup
      rw [List.map_cons, List.nodup_cons] at hnodup
      rw [List.foldl_cons]
      by_cases heq : entry.1 = symbol
      · -- its only quote: the symbols of an answer are distinct
        have hrest : ∀ e ∈ entries, collected_symbol e.1 ≠ symbol := by
          intro e he hcontra
          rw [hsame, ← heq] at hcontra
          exact hnodup.1 (hcontra ▸ List.mem_map_of_mem he)
        rw [foldl_push_rate_of_notMem entries _ hrest]
        have hpush : push_rate rates entry symbol
            = some ((rates symbol).getD [] ++ [entry.2]) := by
          rw [push_rate, (hsame entry.1).mpr heq, Function.update_self]
        rw [hpush, List.map_cons, if_pos (heq ▸ List.mem_cons_self), Option.getD_some,
          List.length_append, List.length_singleton]
      · -- the quote of another symbol
        have hpush : push_rate rates entry symbol = rates symbol :=
          Function.update_of_ne (fun h => heq ((hsame entry.1).mp h.symm)) _ _
        have hmem : symbol ∈ (entry :: entries).map Prod.fst ↔ symbol ∈ entries.map Prod.fst := by
          rw [List.map_cons, List.mem_cons]
          exact ⟨fun h => h.resolve_left fun h' => heq h'.symm, Or.inr⟩
        rw [ih _ hnodup.2, hpush]
        simp only [hmem]

/-- One answer adds one rate to every symbol it quotes, "XDR" and "SDR" apart. -/
theorem count_update (self : OneDayRatesCollector) (source : String) (rates : ForexRateMap)
    {symbol : String} (hxdr : symbol ≠ "XDR") (hsdr : symbol ≠ "SDR") :
    (self.update source rates).count symbol
      = self.count symbol + if symbol ∈ rates.symbols then 1 else 0 := by
  unfold update count
  split
  · rename_i hempty
    rw [List.isEmpty_iff] at hempty
    simp only [ForexRateMap.symbols, hempty, List.map_nil, List.not_mem_nil, if_false,
      Nat.add_zero]
  · exact foldl_push_rate hxdr hsdr rates.entries self.rates rates.nodup_symbols

/-- The sources after an answer. -/
theorem sources_update_subset (self : OneDayRatesCollector) (source : String)
    (rates : ForexRateMap) : (self.update source rates).sources ⊆ insert source self.sources := by
  unfold update
  split
  · exact Finset.subset_insert _ _
  · exact Finset.Subset.refl _

theorem sources_subset_update (self : OneDayRatesCollector) (source : String)
    (rates : ForexRateMap) : self.sources ⊆ (self.update source rates).sources := by
  unfold update
  split
  · exact Finset.Subset.refl _
  · exact Finset.subset_insert _ _

/-- A quoting source is recorded. -/
theorem mem_sources_update (self : OneDayRatesCollector) (source : String)
    {rates : ForexRateMap} {symbol : String} (h : symbol ∈ rates.symbols) :
    source ∈ (self.update source rates).sources := by
  have hne : rates.entries.isEmpty = false := by
    cases hentries : rates.entries with
    | nil => rw [ForexRateMap.symbols, hentries] at h; cases h
    | cons _ _ => rfl
  simp only [update, hne, Bool.false_eq_true, if_false, Finset.mem_insert_self]

/-! ### What is stored for a day

A symbol is stored with its collected rates after the filter of the constructor, and with the
number of them before it. The computed rate takes its counts from the four currencies it is made
of. -/

/-- The currencies of the XDR basket that are quoted against USD. -/
def basket : List String := ["EUR", "CNY", "JPY", "GBP"]

theorem get_rates_map_of_ne [Features] (self : OneDayRatesCollector) {symbol : String}
    (h : symbol ≠ COMPUTED_XDR_SYMBOL) : self.get_rates_map symbol = self.collected_rate symbol := by
  unfold get_rates_map
  cases self.get_computed_xdr_rate with
  | none => rfl
  | some rate => exact Function.update_of_ne h _ _

theorem get_rates_map_cxdr [Features] (self : OneDayRatesCollector) :
    self.get_rates_map COMPUTED_XDR_SYMBOL
      = self.get_computed_xdr_rate.or (self.collected_rate COMPUTED_XDR_SYMBOL) := by
  unfold get_rates_map
  cases self.get_computed_xdr_rate with
  | none => rfl
  | some rate => exact Function.update_self _ _ _

/-- The received count of a stored currency is the number of its collected rates. -/
theorem received_of_get_rates_map [Features] {self : OneDayRatesCollector} {symbol : String}
    {rate : QueriedExchangeRate} (hsymbol : symbol ≠ COMPUTED_XDR_SYMBOL)
    (h : self.get_rates_map symbol = some rate) :
    rate.base_asset_num_received_rates = self.count symbol := by
  rw [get_rates_map_of_ne self hsymbol, collected_rate] at h
  split at h
  · cases h
  · obtain ⟨rates, hrates, rfl⟩ := Option.map_eq_some_iff.mp h
    simp only [QueriedExchangeRate.new, count, hrates, Option.getD_some]

/-- **The count of the computed XDR rate.** When no source quoted the symbol itself, the
entry stands for as many rates of each currency of the basket, and these are stored
along with it. -/
theorem received_cxdr [Features] {self : OneDayRatesCollector} {rate : QueriedExchangeRate}
    (hquoted : self.rates COMPUTED_XDR_SYMBOL = none)
    (h : self.get_rates_map COMPUTED_XDR_SYMBOL = some rate) :
    ∀ symbol ∈ basket, rate.base_asset_num_received_rates ≤ self.count symbol
      ∧ ∃ rate', self.get_rates_map symbol = some rate'
          ∧ rate'.base_asset_num_received_rates = self.count symbol := by
  have hcomputed : self.get_computed_xdr_rate = some rate := by
    rwa [get_rates_map_cxdr, collected_rate, hquoted, Option.map_none, ite_self,
      Option.or_none] at h
  -- all four currencies are collected, and the count is their minimum
  obtain ⟨eur, cny, jpy, gbp, heur, hcny, hjpy, hgbp, hcount⟩ :
      ∃ eur cny jpy gbp, self.rates "EUR" = some eur ∧ self.rates "CNY" = some cny
        ∧ self.rates "JPY" = some jpy ∧ self.rates "GBP" = some gbp
        ∧ rate.base_asset_num_received_rates
          = min (min (min eur.length cny.length) jpy.length) gbp.length := by
    unfold get_computed_xdr_rate at hcomputed
    split at hcomputed
    · rename_i eur cny jpy gbp heur hcny hjpy hgbp
      refine ⟨eur, cny, jpy, gbp, heur, hcny, hjpy, hgbp, ?_⟩
      rw [← Option.some.inj hcomputed]
      rfl
    · cases hcomputed
  -- each of them is stored with the number of its rates
  have hstored : ∀ symbol rates, symbol ≠ USD → symbol ≠ COMPUTED_XDR_SYMBOL →
      self.rates symbol = some rates → rate.base_asset_num_received_rates ≤ rates.length →
        rate.base_asset_num_received_rates ≤ self.count symbol
          ∧ ∃ rate', self.get_rates_map symbol = some rate'
              ∧ rate'.base_asset_num_received_rates = self.count symbol := by
    intro symbol rates husd hcxdr hrates hle
    have hlen : self.count symbol = rates.length := by
      rw [count, hrates, Option.getD_some]
    obtain ⟨rate', hrate'⟩ : ∃ rate', self.get_rates_map symbol = some rate' := by
      rw [get_rates_map_of_ne self hcxdr, collected_rate, if_neg husd, hrates,
        Option.map_some]
      exact ⟨_, rfl⟩
    exact ⟨by omega, rate', hrate', received_of_get_rates_map hcxdr hrate'⟩
  intro symbol hsymbol
  rcases List.mem_cons.mp hsymbol with rfl | hsymbol
  · exact hstored _ eur (by decide) (by decide) heur (by omega)
  rcases List.mem_cons.mp hsymbol with rfl | hsymbol
  · exact hstored _ cny (by decide) (by decide) hcny (by omega)
  rcases List.mem_cons.mp hsymbol with rfl | hsymbol
  · exact hstored _ jpy (by decide) (by decide) hjpy (by omega)
  · rw [List.mem_singleton.mp hsymbol]
    exact hstored _ gbp (by decide) (by decide) hgbp (by omega)

end OneDayRatesCollector

/-! ## The last days

A day is opened by an answer for it, when it is newer than all others, and then the oldest day
of a full collector is closed. Answers for a day that is closed, or was never opened, are
dropped. -/

/-- Maximal number of days to keep around. -/
def MAX_COLLECTION_DAYS : ℕ := 2

/-- The collector: the days from the oldest to the newest one. In the source it is a deque of a
capacity, `MAX_COLLECTION_DAYS`. -/
structure ForexRatesCollector where
  days : List OneDayRatesCollector

namespace ForexRatesCollector

/-- `ForexRatesCollector::new`. -/
def new : ForexRatesCollector := ⟨[]⟩

/-- Whether a day may be opened for a timestamp: it is newer than every day there is. -/
def opens (self : ForexRatesCollector) (timestamp : ℕ) : Bool :=
  match (self.days.map OneDayRatesCollector.timestamp).max? with
  | some max_time => decide (max_time < timestamp)
  | none => true

/-- `ForexRatesCollector::update`: the collector, and whether it was updated. -/
def update (self : ForexRatesCollector) (source : String) (timestamp : ℕ)
    (rates : ForexRateMap) : ForexRatesCollector × Bool :=
  let timestamp := start_of_day timestamp
  match self.days.findIdx? fun odc => decide (odc.timestamp = timestamp) with
  | some i => (⟨self.days.modify i fun odc => odc.update source rates⟩, true)
  | none =>
    if self.opens timestamp then
      let new_collector := (OneDayRatesCollector.new timestamp).update source rates
      let days := if self.days.length = MAX_COLLECTION_DAYS then self.days.tail else self.days
      (⟨days ++ [new_collector]⟩, true)
    else (self, false)

/-- `ForexRatesCollector::get_rates_map`. -/
def get_rates_map [Features] (self : ForexRatesCollector) (timestamp : ℕ) :
    Option ForexMultiRateMap :=
  (self.days.find? fun odc => decide (odc.timestamp = timestamp)).map
    OneDayRatesCollector.get_rates_map

/-- `ForexRatesCollector::get_sources`. -/
def get_sources (self : ForexRatesCollector) (timestamp : ℕ) : Option (Finset String) :=
  (self.days.find? fun odc => decide (odc.timestamp = timestamp)).map
    OneDayRatesCollector.sources

/-- Every day of an updated collector is a day of the old one, the updated day, or a new
one. -/
theorem mem_days_update {self : ForexRatesCollector} {source : String} {timestamp : ℕ}
    {rates : ForexRateMap} {odc : OneDayRatesCollector}
    (h : odc ∈ (self.update source timestamp rates).1.days) :
    odc ∈ self.days
      ∨ (∃ old ∈ self.days, old.timestamp = start_of_day timestamp
          ∧ odc = old.update source rates)
      ∨ ((∀ old ∈ self.days, old.timestamp ≠ start_of_day timestamp)
          ∧ odc = (OneDayRatesCollector.new (start_of_day timestamp)).update source rates) := by
  unfold update at h
  dsimp only at h
  split at h
  · -- the day exists and is updated in place
    rename_i i hi
    obtain ⟨hlt, hprop, -⟩ := List.findIdx?_eq_some_iff_getElem.mp hi
    obtain ⟨j, hj, rfl⟩ := List.getElem_of_mem h
    rw [List.length_modify] at hj
    rw [List.getElem_modify]
    split
    · rename_i hij
      subst hij
      exact Or.inr (Or.inl ⟨_, List.getElem_mem hj, by simpa using hprop, rfl⟩)
    · exact Or.inl (List.getElem_mem hj)
  · -- the day is opened if it is the newest, and the oldest one may go
    rename_i hnone
    have habsent : ∀ old ∈ self.days, old.timestamp ≠ start_of_day timestamp := by
      intro old hold
      simpa using List.findIdx?_eq_none_iff.mp hnone old hold
    split at h
    · rcases List.mem_append.mp h with hold | hnew
      · left
        split at hold
        · exact List.mem_of_mem_tail hold
        · exact hold
      · exact Or.inr (Or.inr ⟨habsent, List.mem_singleton.mp hnew⟩)
    · exact Or.inl h

/-- The timestamps in the collector. -/
def get_timestamps (self : ForexRatesCollector) : List ℕ :=
  self.days.map OneDayRatesCollector.timestamp

/-- No two days of a collector have the same timestamp, after an update neither. A new day is
opened only if it is newer than all others. -/
theorem nodup_timestamps_update {self : ForexRatesCollector} (source : String) (timestamp : ℕ)
    (rates : ForexRateMap) (h : self.get_timestamps.Nodup) :
    (self.update source timestamp rates).1.get_timestamps.Nodup := by
  unfold update get_timestamps
  dsimp only
  split
  · rename_i i hi
    -- updating a day in place keeps its timestamp
    have hsame : (self.days.modify i fun odc => odc.update source rates).map
        OneDayRatesCollector.timestamp = self.get_timestamps := by
      apply List.ext_getElem (by simp only [get_timestamps, List.length_map, List.length_modify])
      intro j h₁ h₂
      simp only [get_timestamps, List.getElem_map, List.getElem_modify]
      split <;> simp only [OneDayRatesCollector.update_timestamp]
    rw [hsame]
    exact h
  · rename_i hnone
    split
    · rw [List.map_append, List.map_singleton, OneDayRatesCollector.update_timestamp]
      have hsub : (if self.days.length = MAX_COLLECTION_DAYS then self.days.tail
          else self.days).Sublist self.days := by
        split
        · exact List.tail_sublist _
        · exact List.Sublist.refl _
      apply List.Nodup.append (h.sublist (hsub.map _)) (List.nodup_singleton _)
      intro t ht hnew
      rw [List.mem_singleton] at hnew
      obtain ⟨odc, hodc, rfl⟩ := List.mem_map.mp ht
      have habsent : odc.timestamp ≠ start_of_day timestamp := by
        simpa using List.findIdx?_eq_none_iff.mp hnone odc (hsub.subset hodc)
      exact habsent hnew
    · exact h

/-- The sources recorded for a timestamp are those of its one day. -/
theorem sources_of_get_sources {self : ForexRatesCollector} {timestamp : ℕ}
    (h : self.get_timestamps.Nodup) {odc : OneDayRatesCollector} (hodc : odc ∈ self.days)
    (htime : odc.timestamp = timestamp) : self.get_sources timestamp = some odc.sources := by
  have hfound : self.days.find? (fun odc => decide (odc.timestamp = timestamp)) = some odc := by
    cases hfind : self.days.find? fun odc => decide (odc.timestamp = timestamp) with
    | none => exact absurd htime (by simpa using List.find?_eq_none.mp hfind odc hodc)
    | some first =>
        have hfirst : first.timestamp = timestamp := by
          simpa using List.find?_some hfind
        -- the first day of this timestamp is the only one
        exact congrArg some (List.inj_on_of_nodup_map h (List.mem_of_find?_eq_some hfind) hodc
          (hfirst.trans htime.symm))
  rw [get_sources, hfound, Option.map_some]

end ForexRatesCollector

end Xrc
