/-
What the periodic task leaves in the forex store, and what a lookup makes of it. An entry
is filed under the day it was collected for, so that the forex timestamp of an answer is
the day the lookup has found, whatever has been merged into that day since.

`DayEntry` is the invariant of one entry and `Filed` that of the task; `get_cases` is the
inversion of `get`, from which the assets, the day and the counts of an answer are read off.
-/
import Xrc.Periodic
import Xrc.ApiSpec

set_option autoImplicit false

namespace Xrc

open Machine QueriedExchangeRate

/-! ## Entries

An entry of a day says of itself that it is of this day, under its own symbol. A merge of two
updates keeps one of the two, and the computed XDR rate is built like any other, so every entry
does. -/

/-- What is stored for a symbol on a day. The day is part of the rate, so an answer that is
composed of it can be traced back to the day it was stored under. -/
structure DayEntry (day : ℕ) (symbol : String) (rate : QueriedExchangeRate) : Prop where
  base_eq : rate.base_asset = ⟨symbol, .FiatCurrency⟩
  quote_eq : rate.quote_asset = usd_asset
  forex_timestamp_eq : rate.forex_timestamp = some day
  queried_eq : rate.quote_asset_num_queried_sources = rate.base_asset_num_queried_sources
  received_eq : rate.quote_asset_num_received_rates = rate.base_asset_num_received_rates

/-- However it is computed. -/
theorem dayEntry_new (day : ℕ) (symbol : String) (rates : List ℕ) (queried received : ℕ) :
    DayEntry day symbol (QueriedExchangeRate.new ⟨symbol, .FiatCurrency⟩ usd_asset day rates
      queried received (some day)) := ⟨rfl, rfl, rfl, rfl, rfl⟩

namespace ForexRateStore

/-- Every entry is of the day it is stored under. A day in the store is a timestamp, and so is the
one that an entry bears; that both are the same is what lets an answer report its day. -/
def Dated (self : ForexRateStore) : Prop :=
  ∀ day rates, self.rates day = some rates → ∀ symbol rate, rates symbol = some rate →
    DayEntry day symbol rate

theorem dated_new : new.Dated := by
  intro day rates hrates
  cases hrates

/-- A merge keeps an entry of either side. -/
theorem Dated.put {self : ForexRateStore} (h : self.Dated) {timestamp : ℕ}
    {rates : ForexMultiRateMap}
    (hrates : ∀ symbol rate, rates symbol = some rate →
      DayEntry (start_of_day timestamp) symbol rate) : (self.put timestamp rates).Dated := by
  intro day stored hstored symbol rate hrate
  by_cases hday : day = start_of_day timestamp
  · subst hday
    rw [put_rates_self] at hstored
    rw [← Option.some.inj hstored] at hrate
    rcases (merge_entry_spec hrate).1 with hold | hnew
    · obtain ⟨before, hbefore, hentry⟩ := Option.bind_eq_some_iff.mp hold
      exact h _ before hbefore symbol rate hentry
    · exact hrates symbol rate hnew
  · rw [put_rates_of_ne self rates hday] at hstored
    exact h day stored hstored symbol rate hrate

end ForexRateStore

/-- What a day of the collector would store. -/
theorem dayEntry_of_get_rates_map [Features] {odc : OneDayRatesCollector} {symbol : String}
    {rate : QueriedExchangeRate} (h : odc.get_rates_map symbol = some rate) :
    DayEntry odc.timestamp symbol rate := by
  have hcollected : odc.collected_rate symbol = some rate → DayEntry odc.timestamp symbol rate := by
    intro hrate
    unfold OneDayRatesCollector.collected_rate at hrate
    split at hrate
    · cases hrate
    · obtain ⟨rates, -, rfl⟩ := Option.map_eq_some_iff.mp hrate
      exact dayEntry_new _ _ _ _ _
  -- the computed rate is built for the day of its collector, like the others
  by_cases hcxdr : symbol = COMPUTED_XDR_SYMBOL
  · rw [hcxdr, OneDayRatesCollector.get_rates_map_cxdr, Option.or_eq_some_iff] at h
    rcases h with hcomputed | ⟨-, hquoted⟩
    · rw [hcxdr]
      unfold OneDayRatesCollector.get_computed_xdr_rate at hcomputed
      split at hcomputed
      · rw [← Option.some.inj hcomputed]
        exact dayEntry_new _ _ _ _ _
      · cases hcomputed
    · exact hcollected (hcxdr ▸ hquoted)
  · rw [OneDayRatesCollector.get_rates_map_of_ne odc hcxdr] at h
    exact hcollected h

/-! ## Runs of the periodic task

The collector files a source's answer under the day it was asked for, and the store takes whole
days from the collector. Both are functions from days, so what has to be kept is that every day
is filed under its beginning. -/

namespace periodic

/-- The collector has days, each under its beginning. -/
def Aligned (collector : ForexRatesCollector) : Prop :=
  ∀ odc ∈ collector.days, start_of_day odc.timestamp = odc.timestamp

/-- What holds of the task between two messages. -/
structure Filed (s : ForexState) : Prop where
  stored : s.forex_store.Dated
  collected : Aligned s.collector

theorem filed_new : Filed ForexState.new where
  stored := ForexRateStore.dated_new
  collected := by
    intro odc hodc
    cases hodc

theorem Aligned.update {collector : ForexRatesCollector} (h : Aligned collector) (source : String)
    (timestamp : ℕ) (rates : ForexRateMap) :
    Aligned (collector.update source timestamp rates).1 := by
  intro odc hodc
  rcases ForexRatesCollector.mem_days_update hodc with hold | ⟨old, hold, -, rfl⟩ | ⟨-, rfl⟩
  · exact h odc hold
  · rw [OneDayRatesCollector.update_timestamp]
    exact h old hold
  · rw [OneDayRatesCollector.update_timestamp]
    exact start_of_day_start_of_day timestamp

/-- The first loop over the answers. -/
theorem Aligned.collect (answers : List (String × ℕ × ForexRateMap)) :
    ∀ acc : ForexRatesCollector × List ℕ, Aligned acc.1 →
      Aligned (answers.foldl collect_step acc).1 := by
  induction answers with
  | nil => exact fun _ h => h
  | cons answer answers ih =>
      intro acc h
      exact ih (collect_step acc answer) (h.update answer.1 answer.2.1 answer.2.2)

section Runs

variable [Features]

theorem dated_store_step {collector : ForexRatesCollector} (hcollector : Aligned collector)
    {store : ForexRateStore} (h : store.Dated) (timestamp : ℕ) :
    (store_step collector store timestamp).Dated := by
  unfold store_step
  cases hmap : collector.get_rates_map timestamp with
  | none => exact h
  | some rates =>
      obtain ⟨odc, hodc, rfl⟩ := Option.map_eq_some_iff.mp hmap
      have htime : odc.timestamp = timestamp := by
        simpa using List.find?_some hodc
      have haligned := hcollector odc (List.mem_of_find?_eq_some hodc)
      apply h.put
      intro symbol rate hrate
      rw [← htime, haligned]
      by_cases husd : symbol = USD
      · -- USD itself is not stored
        rw [husd, Function.update_self] at hrate
        cases hrate
      · rw [Function.update_of_ne husd] at hrate
        exact dayEntry_of_get_rates_map hrate

/-- The second loop. -/
theorem dated_stored {collector : ForexRatesCollector} (hcollector : Aligned collector)
    (days : List ℕ) : ∀ store : ForexRateStore, store.Dated →
      (days.foldl (store_step collector) store).Dated := by
  induction days with
  | nil => exact fun _ h => h
  | cons day days ih =>
      intro store h
      exact ih _ (dated_store_step hcollector h day)

/-- **One event keeps the entries filed.** They are filed twice, in the collector and in the
store, and each by the start of its day; an upgrade empties the first and leaves the second. -/
theorem filed_step [Calendar] {s : ForexState} (h : Filed s) (event : ForexEvent) :
    Filed (step s event) := by
  cases event with
  | heartbeat timestamp =>
      show Filed (start_update s timestamp)
      unfold start_update
      split
      · exact h
      · split
        · exact h
        · exact ⟨h.stored, h.collected⟩
  | answers answer =>
      show Filed (finish_update s answer)
      unfold finish_update
      cases s.updating with
      | none => exact h
      | some update =>
          have hcollected := Aligned.collect (forex_rates update.2 answer) (s.collector, [])
            h.collected
          exact ⟨dated_stored hcollected _ _ h.stored, hcollected⟩
  | upgraded => exact ⟨h.stored, filed_new.collected⟩

/-- **Every run keeps them filed.** The days are aligned from the first answer on, whatever
timestamps the sources report. -/
theorem filed_run [Calendar] (events : List ForexEvent) :
    ∀ s : ForexState, Filed s → Filed (run s events) := by
  induction events with
  | nil => exact fun _ h => h
  | cons event events ih => exact fun s h => ih _ (filed_step h event)

end Runs

end periodic

/-! ## Lookups

A lookup looks at some days back from the one it starts at, and whatever it returns is built of
entries of the day it found. So the day it reports is one it was allowed to serve. -/

/-- The search starts at the beginning of the requested day, or of the day before. -/
theorem shifted_timestamp_spec [Features] (requested current : ℕ) :
    ForexRateStore.shifted_timestamp requested current = start_of_day requested
      ∨ ForexRateStore.shifted_timestamp requested current
        = start_of_day requested - ONE_DAY_SECONDS := by
  unfold ForexRateStore.shifted_timestamp ForexRateStore.shift_to_latest_source_eod
  dsimp only
  split
  · exact Or.inl rfl
  · split
    · exact Or.inr rfl
    · exact Or.inl rfl

theorem dvd_start_of_day (timestamp : ℕ) : ONE_DAY_SECONDS ∣ start_of_day timestamp :=
  Nat.dvd_mul_left _ _

/-- The beginning of a day that may be served for a requested timestamp. The search goes back a
week, and the shift by the time zone another day, from a timestamp whose day is never exceeded. -/
structure ServableDay (requested day : ℕ) : Prop where
  dvd : ONE_DAY_SECONDS ∣ day
  ge : start_of_day requested ≤ day + 8 * ONE_DAY_SECONDS
  le : day ≤ start_of_day requested

/-- Going back from where the search starts, by the days the loop allows. -/
theorem servableDay_back [Features] (requested current : ℕ) {back : ℕ}
    (hback : back ≤ MAX_DAYS_TO_GO_BACK) :
    ServableDay requested
      (ForexRateStore.shifted_timestamp requested current - ONE_DAY_SECONDS * back) := by
  have hweek : ONE_DAY_SECONDS * back ≤ ONE_DAY_SECONDS * 7 := Nat.mul_le_mul_left _ hback
  rcases shifted_timestamp_spec requested current with hday | hday
  · rw [hday]
    refine ⟨Nat.dvd_sub (dvd_start_of_day requested) (Nat.dvd_mul_right _ _), ?_, ?_⟩
    · omega
    · omega
  · rw [hday]
    refine ⟨Nat.dvd_sub (Nat.dvd_sub (dvd_start_of_day requested) (Nat.dvd_refl _))
      (Nat.dvd_mul_right _ _), ?_, ?_⟩
    · omega
    · omega

namespace ForexRateStore

section Lookup

variable [Features] [Unicode] {self : ForexRateStore} {requested current : ℕ}
  {base_asset quote_asset : String} {rate : QueriedExchangeRate}

/-- The day a lookup has found. The weekend and the time zone are taken account of before the
search, by the shift. -/
def Found (self : ForexRateStore) (requested current day : ℕ) (rates : ForexMultiRateMap) : Prop :=
  self.search (shifted_timestamp requested current) 0 = some (day, rates)

/-- **What a lookup answers with.** A currency against itself is not looked up. Of the others, one
that is quoted in USD is stored as such, USD itself is the inverse, and two currencies are
divided. -/
theorem get_cases (h : self.get requested current base_asset quote_asset = .ok rate) :
    (to_uppercase base_asset = to_uppercase quote_asset
        ∧ rate = unit_rate (to_uppercase base_asset) (shifted_timestamp requested current))
      ∨ ∃ day rates, self.Found requested current day rates
        ∧ ((to_uppercase quote_asset = USD ∧ to_uppercase base_asset ≠ USD
              ∧ rates (to_uppercase base_asset) = some rate)
          ∨ (to_uppercase base_asset = USD ∧ to_uppercase quote_asset ≠ USD
              ∧ ∃ quote, rates (to_uppercase quote_asset) = some quote ∧ rate = quote.inverted)
          ∨ (to_uppercase base_asset ≠ USD ∧ to_uppercase quote_asset ≠ USD
              ∧ to_uppercase base_asset ≠ to_uppercase quote_asset
              ∧ ∃ base quote, rates (to_uppercase base_asset) = some base
                ∧ rates (to_uppercase quote_asset) = some quote ∧ rate = base / quote)) := by
  unfold get at h
  dsimp only at h
  by_cases hsame : to_uppercase base_asset = to_uppercase quote_asset
  · rw [if_pos hsame] at h
    exact Or.inl ⟨hsame, (Except.ok.inj h).symm⟩
  · rw [if_neg hsame] at h
    right
    split at h
    · cases h
    · -- on the found day USD is the only currency without an entry
      rename_i day rates hsearch
      refine ⟨day, rates, hsearch, ?_⟩
      unfold rate_on_day at h
      by_cases hquote : to_uppercase quote_asset = USD
      · rw [if_pos hquote] at h
        have hbase : to_uppercase base_asset ≠ USD := fun hbase => hsame (hbase.trans hquote.symm)
        cases hentry : rates (to_uppercase base_asset) with
        | none =>
            rw [hentry] at h
            cases h
        | some entry =>
            rw [hentry] at h
            exact Or.inl ⟨hquote, hbase, congrArg some (Except.ok.inj h)⟩
      · rw [if_neg hquote] at h
        right
        by_cases hbase : to_uppercase base_asset = USD
        · rw [if_pos hbase] at h
          cases hentry : rates (to_uppercase quote_asset) with
          | none =>
              rw [hentry] at h
              cases h
          | some entry =>
              rw [hentry] at h
              exact Or.inl ⟨hbase, hquote, entry, rfl, (Except.ok.inj h).symm⟩
        · rw [if_neg hbase] at h
          refine Or.inr ⟨hbase, hquote, hsame, ?_⟩
          split at h
          · rename_i base quote hbase_rate hquote_rate
            exact ⟨base, quote, hbase_rate, hquote_rate, (Except.ok.inj h).symm⟩
          · cases h
          · cases h
          · cases h

/-- A currency with a rate on the found day has this one against USD. -/
theorem Found.get_usd {day : ℕ} {rates : ForexMultiRateMap}
    (h : self.Found requested current day rates) {symbol : String}
    (hsymbol : to_uppercase symbol ≠ USD) (hrate : rates (to_uppercase symbol) = some rate) :
    self.get requested current symbol USD = .ok rate := by
  have husd : to_uppercase USD = USD := to_uppercase_of_upper (by decide)
  unfold get
  dsimp only
  rw [husd, if_neg hsymbol, show self.search _ _ = _ from h]
  dsimp only
  rw [rate_on_day, if_pos rfl, hrate]

omit [Unicode] in
/-- An entry of the found day. -/
theorem Found.dayEntry {day : ℕ} {rates : ForexMultiRateMap}
    (h : self.Found requested current day rates) (hdated : self.Dated) {symbol : String}
    (hrate : rates symbol = some rate) : ServableDay requested day ∧ DayEntry day symbol rate := by
  obtain ⟨back, -, hback, rfl, hstored, -⟩ := search_spec (MAX_DAYS_TO_GO_BACK + 1) 0 (by omega) h
  exact ⟨servableDay_back requested current hback, hdated _ rates hstored symbol rate hrate⟩

omit [Unicode] in
/-- The rate of a currency against itself. -/
theorem unit_rate_forex_timestamp (requested current : ℕ) (symbol : String) :
    ∃ day, (unit_rate symbol (shifted_timestamp requested current)).forex_timestamp = some day
      ∧ ServableDay requested day := by
  refine ⟨shifted_timestamp requested current, rfl, ?_⟩
  have hday := servableDay_back requested current (Nat.zero_le MAX_DAYS_TO_GO_BACK)
  rw [Nat.mul_zero, Nat.sub_zero] at hday
  exact hday

/-- What an answer for two currencies says about itself. Nothing is said about its timestamp,
which is that of the stored entries. -/
structure ForexAnswer (requested : ℕ) (base_asset quote_asset : String)
    (rate : QueriedExchangeRate) : Prop where
  base_eq : rate.base_asset = ⟨to_uppercase base_asset, .FiatCurrency⟩
  quote_eq : rate.quote_asset = ⟨to_uppercase quote_asset, .FiatCurrency⟩
  forex_timestamp : ∃ day, rate.forex_timestamp = some day ∧ ServableDay requested day

/-- **Every lookup answers for the currencies and the days it was asked for.** Inverting exchanges
the two assets, and dividing takes the bases of both. The day is that of the entries, which all
are of the day that was found. -/
theorem Dated.forexAnswer (hdated : self.Dated)
    (h : self.get requested current base_asset quote_asset = .ok rate) :
    ForexAnswer requested base_asset quote_asset rate := by
  rcases get_cases h with ⟨hsame, rfl⟩ | ⟨day, rates, hfound, hcase⟩
  · refine ⟨rfl, ?_, unit_rate_forex_timestamp requested current _⟩
    rw [← hsame]
    rfl
  · rcases hcase with ⟨hquote, -, hrate⟩ | ⟨hbase, -, quote, hrate, rfl⟩
      | ⟨-, -, -, base, quote, hbase_rate, hquote_rate, rfl⟩
    · obtain ⟨hday, hentry⟩ := hfound.dayEntry hdated hrate
      refine ⟨hentry.base_eq, ?_, day, hentry.forex_timestamp_eq, hday⟩
      rw [hentry.quote_eq, hquote]
      rfl
    · obtain ⟨hday, hentry⟩ := hfound.dayEntry hdated hrate
      refine ⟨?_, hentry.base_eq, day, hentry.forex_timestamp_eq, hday⟩
      show quote.quote_asset = _
      rw [hentry.quote_eq, hbase]
      rfl
    · obtain ⟨hday, hbase_entry⟩ := hfound.dayEntry hdated hbase_rate
      obtain ⟨-, hquote_entry⟩ := hfound.dayEntry hdated hquote_rate
      refine ⟨hbase_entry.base_eq, hquote_entry.base_eq, day, ?_, hday⟩
      -- both entries are of the same day
      show mul_forex_timestamp base.forex_timestamp quote.forex_timestamp = some day
      rw [hbase_entry.forex_timestamp_eq, hquote_entry.forex_timestamp_eq]
      exact if_pos rfl

end Lookup

end ForexRateStore

end Xrc
