/-
`forex.rs`: the forex sources with their time zones, and the store of daily forex
rates with its lookup. All stored rates are against USD; the lookup moves the requested
day back to one that is over everywhere, then goes back to the first day with enough
sources.

`search` is the loop of `get` and answers with the day it found; everything after the
loop is `rate_on_day`. `put` is stated entry by entry in `put_rates_of_ne` and
`put_rates_self`.
-/
import Xrc.RateSpec
import Mathlib.Logic.Function.Basic

set_option autoImplicit false

namespace Xrc

open Machine QueriedExchangeRate

/-! ## The sources

Central banks publish once a day, in their own time zone and under their own date. The offset of
a source is used to tell which day is yesterday there, and the smallest of all offsets to tell
when a day is over for all of them. -/

inductive Forex where
  | CentralBankOfMyanmar
  | CentralBankOfBosniaHerzegovina
  | EuropeanCentralBank
  | BankOfCanada
  | CentralBankOfUzbekistan
  | ReserveBankOfAustralia
  | CentralBankOfNepal
  | CentralBankOfGeorgia
  | BankOfItaly
  | SwissFederalOfficeForCustoms
  | CentralBankOfTurkey
  deriving DecidableEq, Repr

/-- All of the known forex sources. -/
def FOREX_SOURCES : List Forex :=
  [.CentralBankOfMyanmar, .CentralBankOfBosniaHerzegovina, .EuropeanCentralBank, .BankOfCanada,
   .CentralBankOfUzbekistan, .ReserveBankOfAustralia, .CentralBankOfNepal,
   .CentralBankOfGeorgia, .BankOfItaly, .SwissFederalOfficeForCustoms, .CentralBankOfTurkey]

namespace Forex

/-- The name a source is displayed and recorded under. -/
def to_string : Forex → String
  | CentralBankOfMyanmar => "CentralBankOfMyanmar"
  | CentralBankOfBosniaHerzegovina => "CentralBankOfBosniaHerzegovina"
  | EuropeanCentralBank => "EuropeanCentralBank"
  | BankOfCanada => "BankOfCanada"
  | CentralBankOfUzbekistan => "CentralBankOfUzbekistan"
  | ReserveBankOfAustralia => "ReserveBankOfAustralia"
  | CentralBankOfNepal => "CentralBankOfNepal"
  | CentralBankOfGeorgia => "CentralBankOfGeorgia"
  | BankOfItaly => "BankOfItaly"
  | SwissFederalOfficeForCustoms => "SwissFederalOfficeForCustoms"
  | CentralBankOfTurkey => "CentralBankOfTurkey"

theorem to_string_injective : Function.Injective to_string := by
  intro a b h
  cases a <;> cases b <;> first | rfl | exact absurd h (by decide)

/-- Checks if the forex source supports IPv6. -/
def supports_ipv6 : Forex → Bool
  | CentralBankOfMyanmar | CentralBankOfBosniaHerzegovina => true
  | _ => false

/-- Whether the forex source should be called. -/
def is_available [Features] (self : Forex) : Bool :=
  Features.ipv4_support || self.supports_ipv6

/-- The reference time-zone offset of the source, in hours. -/
def get_utc_offset : Forex → ℤ
  | CentralBankOfMyanmar => 6
  | CentralBankOfBosniaHerzegovina => 1
  | EuropeanCentralBank => 1
  | BankOfCanada => -8
  | CentralBankOfUzbekistan => 5
  | ReserveBankOfAustralia => 10
  | CentralBankOfNepal => 5
  | CentralBankOfGeorgia => 4
  | BankOfItaly => 1
  | SwissFederalOfficeForCustoms => 1
  | CentralBankOfTurkey => 3

/-- The UTC time `timestamp` in the time zone of the source; the sum is taken in `i64`
and cast back. -/
def offset_timestamp_to_timezone [Features] (self : Forex) (timestamp : ℕ) : ℕ :=
  if Features.disable_forex_timezone_offset then timestamp
  else (((timestamp : ℤ) + self.get_utc_offset * ONE_HOUR_SECONDS) % (2 ^ 64 : ℕ)).toNat

end Forex

/-! ## The store

A day maps each symbol to one rate against the dollar. A request for a day goes back, day by
day, to the last one whose computed XDR rate has enough sources: that rate is made of four
currencies, and so stands for the day as a whole. -/

def TIMEZONE_AOE_SHIFT_HOURS : ℤ := 12
def MAX_DAYS_TO_GO_BACK : ℕ := 7

def MIN_SOURCES_TO_REPORT [Features] : ℕ := if Features.ipv4_support then 4 else 2

/-- The symbol of the computed XDR rate. -/
def COMPUTED_XDR_SYMBOL : String := "CXDR"

/-- The rates of one day against USD, by symbol. -/
abbrev ForexMultiRateMap : Type := String → Option QueriedExchangeRate

/-- The stored days, by the timestamp of their beginning. -/
structure ForexRateStore where
  rates : ℕ → Option ForexMultiRateMap

inductive GetForexRateError where
  | InvalidTimestamp (timestamp : ℕ)
  | CouldNotFindBaseAsset (timestamp : ℕ) (asset : String)
  | CouldNotFindQuoteAsset (timestamp : ℕ) (asset : String)
  | CouldNotFindAssets (timestamp : ℕ) (base_asset quote_asset : String)
  deriving DecidableEq, Repr

/-- `From<GetForexRateError> for ExchangeRateError`. -/
def GetForexRateError.into : GetForexRateError → ExchangeRateError
  | InvalidTimestamp _ => .ForexInvalidTimestamp
  | CouldNotFindBaseAsset _ _ => .ForexBaseAssetNotFound
  | CouldNotFindQuoteAsset _ _ => .ForexQuoteAssetNotFound
  | CouldNotFindAssets _ _ _ => .ForexAssetsNotFound

/-- The beginning of the day a timestamp falls on. -/
def start_of_day (timestamp : ℕ) : ℕ := timestamp / ONE_DAY_SECONDS * ONE_DAY_SECONDS

@[simp] theorem start_of_day_start_of_day (timestamp : ℕ) :
    start_of_day (start_of_day timestamp) = start_of_day timestamp := by
  have hday : 0 < ONE_DAY_SECONDS := by decide
  rw [start_of_day, start_of_day, Nat.mul_div_cancel _ hday]

namespace ForexRateStore

/-- `ForexRateStore::new`. -/
def new : ForexRateStore := ⟨fun _ => none⟩

/-- The smallest UTC offset of all sources. -/
def max_shift_hours : ℤ :=
  ((FOREX_SOURCES.map Forex.get_utc_offset).min?).getD (-TIMEZONE_AOE_SHIFT_HOURS)

/-- `shift_to_latest_source_eod`: yesterday, while the requested day is taken not to be
over for the westernmost source. -/
def shift_to_latest_source_eod (requested_timestamp current_timestamp : ℕ) : ℕ :=
  let shift_to_latest_source_eod :=
    (((ONE_DAY_SECONDS : ℤ) + max_shift_hours * ONE_HOUR_SECONDS) % (2 ^ 64 : ℕ)).toNat
  let requested_day_end_on_all_sources :=
    saturating_add 64 requested_timestamp shift_to_latest_source_eod
  if current_timestamp < requested_day_end_on_all_sources then
    requested_timestamp - ONE_DAY_SECONDS
  else requested_timestamp

/-- The timestamp `get` starts its search at. -/
def shifted_timestamp [Features] (requested_timestamp current_timestamp : ℕ) : ℕ :=
  let requested_timestamp := start_of_day requested_timestamp
  if Features.disable_forex_timezone_offset then requested_timestamp
  else shift_to_latest_source_eod requested_timestamp current_timestamp

/-- Whether enough sources are behind the computed XDR rate of a day. -/
def enough_sources [Features] (rates_for_timestamp : ForexMultiRateMap) : Bool :=
  match rates_for_timestamp COMPUTED_XDR_SYMBOL with
  | none => false
  | some cxdr_rate => decide (MIN_SOURCES_TO_REPORT ≤ cxdr_rate.base_asset_num_received_rates)

/-- The loop of `get`: the first day with enough sources, going back from the requested
one, `MAX_DAYS_TO_GO_BACK` days at most. -/
def search [Features] (self : ForexRateStore) (requested_timestamp go_back_days : ℕ) :
    Option (ℕ × ForexMultiRateMap) :=
  if go_back_days ≤ MAX_DAYS_TO_GO_BACK then
    let query_timestamp := requested_timestamp - ONE_DAY_SECONDS * go_back_days
    match self.rates query_timestamp with
    | none => self.search requested_timestamp (go_back_days + 1)
    | some rates_for_timestamp =>
      if enough_sources rates_for_timestamp then some (query_timestamp, rates_for_timestamp)
      else self.search requested_timestamp (go_back_days + 1)
  else none
termination_by MAX_DAYS_TO_GO_BACK + 1 - go_back_days
decreasing_by all_goals omega

/-- What `get` returns from the day it found. -/
def rate_on_day (rates_for_timestamp : ForexMultiRateMap) (requested_timestamp : ℕ)
    (base_asset quote_asset : String) : Except GetForexRateError QueriedExchangeRate :=
  if quote_asset = USD then
    match rates_for_timestamp base_asset with
    | none => .error (.CouldNotFindBaseAsset requested_timestamp base_asset)
    | some base => .ok base
  else if base_asset = USD then
    match rates_for_timestamp quote_asset with
    | none => .error (.CouldNotFindQuoteAsset requested_timestamp quote_asset)
    | some quote => .ok quote.inverted
  else
    match rates_for_timestamp base_asset, rates_for_timestamp quote_asset with
    | some base_rate, some quote_rate => .ok (base_rate / quote_rate)
    | some _, none => .error (.CouldNotFindQuoteAsset requested_timestamp quote_asset)
    | none, some _ => .error (.CouldNotFindBaseAsset requested_timestamp base_asset)
    | none, none => .error (.CouldNotFindAssets requested_timestamp base_asset quote_asset)

/-- The rate of a currency against itself. -/
def unit_rate (asset : String) (timestamp : ℕ) : QueriedExchangeRate :=
  QueriedExchangeRate.new ⟨asset, .FiatCurrency⟩ ⟨asset, .FiatCurrency⟩ timestamp [RATE_UNIT]
    0 0 (some timestamp)

/-- `ForexRateStore::get`. -/
def get [Features] [Unicode] (self : ForexRateStore)
    (requested_timestamp current_timestamp : ℕ) (base_asset quote_asset : String) :
    Except GetForexRateError QueriedExchangeRate :=
  let requested_timestamp := shifted_timestamp requested_timestamp current_timestamp
  let base_asset := to_uppercase base_asset
  let quote_asset := to_uppercase quote_asset
  if base_asset = quote_asset then .ok (unit_rate base_asset requested_timestamp)
  else
    match self.search requested_timestamp 0 with
    | none => .error (.InvalidTimestamp requested_timestamp)
    | some (_, rates_for_timestamp) =>
      rate_on_day rates_for_timestamp requested_timestamp base_asset quote_asset

/-- Of two rates for one symbol, the one with more sources, the older one on a tie. -/
def better (old new : QueriedExchangeRate) : QueriedExchangeRate :=
  if old.base_asset_num_received_rates < new.base_asset_num_received_rates then new else old

/-- One entry of a day after an update with `rates`. -/
def merge_entry (old new : Option QueriedExchangeRate) : Option QueriedExchangeRate :=
  match old, new with
  | some old, some new => some (better old new)
  | some old, none => some old
  | none, new => new

/-- `ForexRateStore::put`. -/
def put (self : ForexRateStore) (timestamp : ℕ) (rates : ForexMultiRateMap) :
    ForexRateStore :=
  let timestamp := start_of_day timestamp
  match self.rates timestamp with
  | some ratesmap =>
    ⟨Function.update self.rates timestamp
      (some fun symbol => merge_entry (ratesmap symbol) (rates symbol))⟩
  | none => ⟨Function.update self.rates timestamp (some rates)⟩

/-! ### What the store computes

One lemma for the loop and one for each way in which `put` touches the store. The results on
single lookups (`ForexLookup`) and on whole histories (`StoreHistory`, `StoredDays`) use these
and never unfold `search` or `put`. -/

section Lookup

variable [Features]

/-- **The search finds a day it was allowed to look at**, stored, with enough sources. It starts
at the day requested and goes back day by day, so the induction is on the number of days that are
left to look at. -/
theorem search_spec {self : ForexRateStore} {requested day : ℕ} {rates : ForexMultiRateMap} :
    ∀ n go_back_days, n + go_back_days = MAX_DAYS_TO_GO_BACK + 1 →
      self.search requested go_back_days = some (day, rates) →
        ∃ back, go_back_days ≤ back ∧ back ≤ MAX_DAYS_TO_GO_BACK
          ∧ day = requested - ONE_DAY_SECONDS * back ∧ self.rates day = some rates
          ∧ enough_sources rates = true := by
  intro n
  induction n with
  | zero =>
      -- past the last day to look at
      intro go_back_days hn hfound
      rw [search, if_neg (by omega)] at hfound
      cases hfound
  | succ n ih =>
      intro go_back_days hn hfound
      have hnext : self.search requested (go_back_days + 1) = some (day, rates) →
          ∃ back, go_back_days ≤ back ∧ back ≤ MAX_DAYS_TO_GO_BACK
            ∧ day = requested - ONE_DAY_SECONDS * back ∧ self.rates day = some rates
            ∧ enough_sources rates = true := by
        intro hlater
        obtain ⟨back, hle, hrest⟩ := ih (go_back_days + 1) (by omega) hlater
        exact ⟨back, by omega, hrest⟩
      rw [search, if_pos (by omega)] at hfound
      dsimp only at hfound
      cases hday : self.rates (requested - ONE_DAY_SECONDS * go_back_days) with
      | none =>
          rw [hday] at hfound
          exact hnext hfound
      | some rates_for_timestamp =>
          rw [hday] at hfound
          dsimp only at hfound
          split at hfound
          · rename_i henough
            obtain ⟨rfl, rfl⟩ := Prod.mk.inj (Option.some.inj hfound)
            exact ⟨go_back_days, le_rfl, by omega, rfl, hday, henough⟩
          · exact hnext hfound

/-- The served day is no later than the day the search starts at. -/
theorem search_le {self : ForexRateStore} {requested day : ℕ} {rates : ForexMultiRateMap}
    (h : self.search requested 0 = some (day, rates)) : day ≤ requested := by
  obtain ⟨back, -, -, rfl, -⟩ := search_spec (MAX_DAYS_TO_GO_BACK + 1) 0 (by omega) h
  omega

/-- The search stops at the requested day when that day has enough sources. -/
theorem search_of_enough {self : ForexRateStore} {requested : ℕ} {rates : ForexMultiRateMap}
    (hday : self.rates requested = some rates) (henough : enough_sources rates = true) :
    self.search requested 0 = some (requested, rates) := by
  rw [search, if_pos (Nat.zero_le _)]
  dsimp only
  rw [Nat.mul_zero, Nat.sub_zero, hday]
  dsimp only
  rw [if_pos henough]

end Lookup

/-- `put` leaves every other day alone. -/
theorem put_rates_of_ne (self : ForexRateStore) {timestamp day : ℕ} (rates : ForexMultiRateMap)
    (h : day ≠ start_of_day timestamp) : (self.put timestamp rates).rates day = self.rates day := by
  unfold put
  dsimp only
  split <;> exact Function.update_of_ne h _ _

/-- `put` merges a day entry by entry. -/
theorem put_rates_self (self : ForexRateStore) (timestamp : ℕ) (rates : ForexMultiRateMap) :
    (self.put timestamp rates).rates (start_of_day timestamp)
      = some fun symbol =>
          merge_entry ((self.rates (start_of_day timestamp)).bind (· symbol)) (rates symbol) := by
  unfold put
  dsimp only
  cases hday : self.rates (start_of_day timestamp) with
  | none =>
      simp only [Function.update_self, Option.bind_none, merge_entry]
  | some ratesmap =>
      simp only [Function.update_self, Option.bind_some]

/-- An entry after a merge is one of the two, and no smaller count than the new one's. With equal
counts the old entry stays, which is why the new one's is only no larger. -/
theorem merge_entry_spec {old new : Option QueriedExchangeRate} {rate : QueriedExchangeRate}
    (h : merge_entry old new = some rate) :
    (old = some rate ∨ new = some rate)
      ∧ ∀ rate', old = some rate' ∨ new = some rate' →
          rate'.base_asset_num_received_rates ≤ rate.base_asset_num_received_rates := by
  cases old with
  | none =>
      refine ⟨Or.inr h, ?_⟩
      rintro rate' (hold | hnew)
      · cases hold
      · rw [show new = some rate from h] at hnew
        rw [Option.some.inj hnew]
  | some old =>
      cases new with
      | none =>
          cases h
          refine ⟨Or.inl rfl, ?_⟩
          rintro rate' (hold | hnew)
          · rw [Option.some.inj hold]
          · cases hnew
      | some new =>
          have hrate : better old new = rate := Option.some.inj h
          unfold better at hrate
          split at hrate
          · -- the new one wins only with strictly more received rates
            subst hrate
            refine ⟨Or.inr rfl, ?_⟩
            rintro rate' (hold | hnew)
            · rw [← Option.some.inj hold]
              omega
            · rw [Option.some.inj hnew]
          · subst hrate
            refine ⟨Or.inl rfl, ?_⟩
            rintro rate' (hold | hnew)
            · rw [Option.some.inj hold]
            · rw [← Option.some.inj hnew]
              omega

/-- An entry survives a merge, perhaps as one with more sources. -/
theorem exists_merge_entry (old new : Option QueriedExchangeRate) {rate : QueriedExchangeRate}
    (h : old = some rate ∨ new = some rate) :
    ∃ rate', merge_entry old new = some rate'
      ∧ rate.base_asset_num_received_rates ≤ rate'.base_asset_num_received_rates := by
  cases hmerged : merge_entry old new with
  | some rate' => exact ⟨rate', rfl, (merge_entry_spec hmerged).2 rate h⟩
  | none =>
      cases old with
      | none => exact absurd (h.resolve_left nofun) (by rw [show new = none from hmerged]; nofun)
      | some old => cases new <;> cases hmerged

/-- A store with one day: a currency and the computed XDR rate, from two sources. -/
def oneDayStore (currency : String) (usd_rate day : ℕ) : ForexRateStore :=
  let rate := fun symbol => QueriedExchangeRate.new ⟨symbol, .FiatCurrency⟩ usd_asset day
    [usd_rate, usd_rate] 2 2 (some day)
  ⟨Function.update (fun _ => none) day (some (Function.update
    (Function.update (fun _ => none) currency (some (rate currency))) COMPUTED_XDR_SYMBOL
      (some (rate COMPUTED_XDR_SYMBOL))))⟩

/-- The euro at 1.1 dollars, on a day in November. -/
def oneEurDay : ForexRateStore := oneDayStore "EUR" 1_100_000_000 1_699_833_600

end ForexRateStore

end Xrc
