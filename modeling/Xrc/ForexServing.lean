/-
Which day `ForexRateStore::get` serves. The comment in `shift_to_latest_source_eod` asks
for yesterday's rates while the requested day is not over for one of the sources. The
westernmost source is eight hours behind UTC, so its day ends eight hours after the end
of the UTC day; the code adds its offset instead of subtracting it, and stops shifting
sixteen hours into the day.

`served_before_iff` says when a day that is not over is still never served.
-/
import Xrc.Forex

set_option autoImplicit false

namespace Xrc

open Machine

namespace ForexRateStore

/-- The day beginning at `day` is not over yet, at the UTC time `current`, in the time
zone of the source. -/
def NotOverIn (forex : Forex) (day current : ℕ) : Prop :=
  (current : ℤ) < day + ONE_DAY_SECONDS - forex.get_utc_offset * ONE_HOUR_SECONDS

instance (forex : Forex) (day current : ℕ) : Decidable (NotOverIn forex day current) :=
  inferInstanceAs (Decidable (_ < _))

/-- Every answer for two currencies comes from a day strictly before `day`. An error satisfies it,
as no day is served then. -/
def ServedBefore [Features] [Unicode] (self : ForexRateStore) (requested current : ℕ)
    (base_asset quote_asset : String) (day : ℕ) : Prop :=
  ∀ q, self.get requested current base_asset quote_asset = .ok q →
    ∃ served rates, self.search (shifted_timestamp requested current) 0 = some (served, rates)
      ∧ served < day

/-- `day` itself can answer for the two currencies: it is stored with enough sources and
has a rate for each of them. -/
def Answers [Features] (self : ForexRateStore) (base_asset quote_asset : String) (day : ℕ) :
    Prop :=
  ∃ rates, self.rates day = some rates ∧ enough_sources rates = true
    ∧ (base_asset ≠ USD → (rates base_asset).isSome = true)
    ∧ (quote_asset ≠ USD → (rates quote_asset).isSome = true)

/-- The day is not over for some source exactly while it is not over for the westernmost
one, eight hours behind UTC. -/
theorem exists_notOverIn_iff {day current : ℕ} :
    (∃ forex, NotOverIn forex day current) ↔ current < day + 32 * ONE_HOUR_SECONDS := by
  simp only [NotOverIn, ONE_DAY_SECONDS, ONE_HOUR_SECONDS, ONE_MINUTE_SECONDS]
  constructor
  · -- every offset is at least minus eight hours
    rintro ⟨forex, hforex⟩
    cases forex <;> simp only [Forex.get_utc_offset] at hforex <;> omega
  · intro h
    refine ⟨.BankOfCanada, ?_⟩
    simp only [Forex.get_utc_offset]
    omega

/-- What the code shifts by: it goes to yesterday for the first sixteen hours of a day. -/
theorem shift_spec (day current : ℕ) :
    shift_to_latest_source_eod day current
      = if current < min (day + 16 * ONE_HOUR_SECONDS) (wordMax 64) then day - ONE_DAY_SECONDS
        else day := rfl

/-- A day has a rate for two different currencies when it has one for each of them other
than USD. -/
theorem rate_on_day_ok_iff {rates : ForexMultiRateMap} (requested : ℕ)
    {base_asset quote_asset : String} (hne : base_asset ≠ quote_asset) :
    (∃ q, rate_on_day rates requested base_asset quote_asset = .ok q)
      ↔ (base_asset ≠ USD → (rates base_asset).isSome = true)
        ∧ (quote_asset ≠ USD → (rates quote_asset).isSome = true) := by
  unfold rate_on_day
  by_cases hquote : quote_asset = USD
  · have hbase : base_asset ≠ USD := fun h => hne (h.trans hquote.symm)
    rw [if_pos hquote]
    cases rates base_asset <;> simp [hbase, hquote]
  · rw [if_neg hquote]
    by_cases hbase : base_asset = USD
    · rw [if_pos hbase]
      cases rates quote_asset <;> simp [hbase, hquote]
    · rw [if_neg hbase]
      cases rates base_asset <;> cases rates quote_asset <;> simp [hbase, hquote]

/-- **When no unfinished day is served.** For two different currencies and a requested day that is
not the first one of the epoch: while the day is not over for some source, every answer is from an
earlier day, unless sixteen hours of it have passed in UTC and the day itself can answer.

The search only goes back from the day it starts with, so what counts is that day: yesterday
before `D + 16h`, since the offset of the western-most source is added with the wrong sign, and
the requested day from then on. The day is over everywhere only at `D + 32h`, which leaves a
window in between. -/
theorem served_before_iff [Features] [Unicode]
    (hbuild : Features.disable_forex_timezone_offset = false)
    (self : ForexRateStore) (requested current : ℕ) (base_asset quote_asset : String)
    (hne : to_uppercase base_asset ≠ to_uppercase quote_asset)
    (hday : ONE_DAY_SECONDS ≤ start_of_day requested) :
    ((∃ forex, NotOverIn forex (start_of_day requested) current) →
        self.ServedBefore requested current base_asset quote_asset (start_of_day requested))
      ↔ ¬ (min (start_of_day requested + 16 * ONE_HOUR_SECONDS) (wordMax 64) ≤ current
          ∧ current < start_of_day requested + 32 * ONE_HOUR_SECONDS
          ∧ self.Answers (to_uppercase base_asset) (to_uppercase quote_asset)
              (start_of_day requested)) := by
  rw [exists_notOverIn_iff]
  have hpos : 0 < ONE_DAY_SECONDS := by decide
  have hshifted : shifted_timestamp requested current
      = if current < min (start_of_day requested + 16 * ONE_HOUR_SECONDS) (wordMax 64) then
          start_of_day requested - ONE_DAY_SECONDS
        else start_of_day requested := by
    simp only [shifted_timestamp, hbuild, Bool.false_eq_true, if_false, shift_spec]
  constructor
  · rintro hserved ⟨hcut, hcurrent, rates, hstored, henough, hpresent⟩
    -- the search stops at the requested day itself
    rw [if_neg (not_lt.mpr hcut)] at hshifted
    have hsearch := search_of_enough hstored henough
    obtain ⟨q, hq⟩ := (rate_on_day_ok_iff (start_of_day requested) hne).mpr hpresent
    have hget : self.get requested current base_asset quote_asset = .ok q := by
      unfold get
      dsimp only
      rw [if_neg hne, hshifted, hsearch]
      exact hq
    obtain ⟨served, rates', hfound, hlt⟩ := hserved hcurrent q hget
    rw [hshifted, hsearch] at hfound
    cases hfound
    exact lt_irrefl _ hlt
  · intro hnot hcurrent q hget
    unfold get at hget
    dsimp only at hget
    rw [if_neg hne] at hget
    split at hget
    · cases hget
    · rename_i served rates hsearch
      refine ⟨served, rates, hsearch, ?_⟩
      have hle := search_le hsearch
      by_cases hcut : current
          < min (start_of_day requested + 16 * ONE_HOUR_SECONDS) (wordMax 64)
      · -- shifted: the search starts at yesterday and only goes back from there
        rw [hshifted, if_pos hcut] at hle
        omega
      · -- not shifted: the day itself answers only if it can, which is excluded
        rw [hshifted, if_neg hcut] at hle
        refine lt_of_le_of_ne hle fun heq => hnot ⟨not_lt.mp hcut, hcurrent, ?_⟩
        obtain ⟨back, -, -, -, hstored, henough⟩ :=
          search_spec (MAX_DAYS_TO_GO_BACK + 1) 0 (by omega) hsearch
        exact ⟨rates, heq ▸ hstored, henough, (rate_on_day_ok_iff _ hne).mp ⟨q, hget⟩⟩

/-- At noon UTC of the requested day the previous day is asked for. -/
theorem served_before_iff_noon :
    letI := defaultBuild
    letI := asciiUnicode
    oneEurDay.ServedBefore 1_699_833_600 1_699_876_800 "EUR" "USD" 1_699_833_600 := by
  let _ := defaultBuild
  let _ := asciiUnicode
  refine (served_before_iff rfl oneEurDay 1_699_833_600 1_699_876_800 "EUR" "USD" (by decide)
    (by decide)).mpr ?_ ⟨.BankOfCanada, by decide +kernel⟩
  rintro ⟨hcut, -⟩
  exact absurd hcut (by decide)

/-- Twenty hours into a day, while it is noon at the westernmost source, the rates of
that day are served. -/
theorem unfinished_day_served :
    letI := defaultBuild
    letI := asciiUnicode
    ¬ ∀ (self : ForexRateStore) (requested current : ℕ) (base_asset quote_asset : String),
      to_uppercase base_asset ≠ to_uppercase quote_asset →
      ONE_DAY_SECONDS ≤ start_of_day requested →
      (∃ forex, NotOverIn forex (start_of_day requested) current) →
        self.ServedBefore requested current base_asset quote_asset (start_of_day requested) := by
  let _ := defaultBuild
  let _ := asciiUnicode
  intro h
  -- sixteen hours and more of the day have passed, and it is not over in Canada
  have hserved := h oneEurDay 1_699_833_600 1_699_905_600 "EUR" "USD"
    (by decide) (by decide) ⟨.BankOfCanada, by decide +kernel⟩
  have hget : (oneEurDay.get 1_699_833_600 1_699_905_600 "EUR" "USD").isOk = true := by
    decide +kernel
  have hday : (oneEurDay.search
      (shifted_timestamp 1_699_833_600 1_699_905_600) 0).map Prod.fst = some 1_699_833_600 := by
    decide +kernel
  cases hrate : oneEurDay.get 1_699_833_600 1_699_905_600 "EUR" "USD" with
  | error e =>
      rw [hrate] at hget
      cases hget
  | ok q =>
      obtain ⟨served, rates, hsearch, hlt⟩ := hserved q hrate
      rw [hsearch] at hday
      cases hday
      exact absurd hlt (by decide)

end ForexRateStore

end Xrc
