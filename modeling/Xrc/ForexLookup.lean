/-
What `ForexRateStore::get` answers, for any store. `LatestDay` is the abstract notion: the
latest day that may be asked, from the shifted day back to seven days before it, among those
with enough sources behind their computed XDR rate. The loop of `get` finds that day
(`search_eq_some_iff`, `search_eq_none_iff`), and what `get` returns is a function of the rates
of that day only, the same one for both orders of the two assets.
-/
import Xrc.ForexServing
import Mathlib.Order.Bounds.Basic

set_option autoImplicit false

namespace Xrc

open Machine QueriedExchangeRate

/-- An error with the roles of base and quote exchanged. -/
def GetForexRateError.exchanged : GetForexRateError → GetForexRateError
  | InvalidTimestamp timestamp => .InvalidTimestamp timestamp
  | CouldNotFindBaseAsset timestamp asset => .CouldNotFindQuoteAsset timestamp asset
  | CouldNotFindQuoteAsset timestamp asset => .CouldNotFindBaseAsset timestamp asset
  | CouldNotFindAssets timestamp base_asset quote_asset =>
    .CouldNotFindAssets timestamp quote_asset base_asset

namespace ForexRateStore

/-! ## The latest day

Days are a set here, and the day that is served is the greatest element of it with enough
sources. The loop visits the same days one after the other, from the latest on, and stops at the
first. -/

section Days

variable [Features]

/-- A stored day with enough sources behind its computed XDR rate. The code compares the count
that is stored with this entry, the least of those of the currencies in the basket. -/
def Sourced (self : ForexRateStore) (day : ℕ) : Prop :=
  ∃ rates cxdr, self.rates day = some rates ∧ rates COMPUTED_XDR_SYMBOL = some cxdr
    ∧ MIN_SOURCES_TO_REPORT ≤ cxdr.base_asset_num_received_rates

/-- The days a lookup may answer from: the requested one and the seven before it. -/
def lookup_days (requested : ℕ) : Set ℕ :=
  { day | ∃ back ≤ MAX_DAYS_TO_GO_BACK, day = requested - ONE_DAY_SECONDS * back }

/-- The latest of these days with enough sources, and its rates. The search of the store is
replaced by the greatest element of a set, which no loop has to be run for. -/
def LatestDay (self : ForexRateStore) (requested day : ℕ) (rates : ForexMultiRateMap) : Prop :=
  IsGreatest { day | day ∈ lookup_days requested ∧ self.Sourced day } day
    ∧ self.rates day = some rates

/-- There is no such day. -/
def NoSourcedDay (self : ForexRateStore) (requested : ℕ) : Prop :=
  ∀ day ∈ lookup_days requested, ¬ self.Sourced day

theorem enough_sources_iff {self : ForexRateStore} {day : ℕ} {rates : ForexMultiRateMap}
    (hday : self.rates day = some rates) : enough_sources rates = true ↔ self.Sourced day := by
  unfold enough_sources Sourced
  constructor
  · intro henough
    cases hcxdr : rates COMPUTED_XDR_SYMBOL with
    | none =>
        rw [hcxdr] at henough
        cases henough
    | some cxdr =>
        rw [hcxdr] at henough
        exact ⟨rates, cxdr, hday, hcxdr, of_decide_eq_true henough⟩
  · rintro ⟨rates', cxdr, hday', hcxdr, hle⟩
    obtain rfl : rates = rates' := Option.some.inj (hday.symm.trans hday')
    rw [hcxdr]
    exact decide_eq_true hle

/-- **The loop, from any of its rounds**: it finds nothing, and no day that is left to look at
has enough sources, or it finds the first one that has. -/
theorem search_cases (self : ForexRateStore) (requested : ℕ) :
    ∀ n go_back_days, n + go_back_days = MAX_DAYS_TO_GO_BACK + 1 →
      (self.search requested go_back_days = none
          ∧ ∀ back, go_back_days ≤ back → back ≤ MAX_DAYS_TO_GO_BACK →
              ¬ self.Sourced (requested - ONE_DAY_SECONDS * back))
        ∨ ∃ back rates, go_back_days ≤ back ∧ back ≤ MAX_DAYS_TO_GO_BACK
          ∧ self.search requested go_back_days
              = some (requested - ONE_DAY_SECONDS * back, rates)
          ∧ self.rates (requested - ONE_DAY_SECONDS * back) = some rates
          ∧ self.Sourced (requested - ONE_DAY_SECONDS * back)
          ∧ ∀ back', go_back_days ≤ back' → back' < back →
              ¬ self.Sourced (requested - ONE_DAY_SECONDS * back') := by
  intro n
  induction n with
  | zero =>
      intro go_back_days hn
      left
      refine ⟨?_, fun back hle hback => absurd hback (by omega)⟩
      rw [search, if_neg (by omega)]
  | succ n ih =>
      intro go_back_days hn
      by_cases hsourced : self.Sourced (requested - ONE_DAY_SECONDS * go_back_days)
      · -- the loop stops here
        obtain ⟨rates, cxdr, hday, hrest⟩ := hsourced
        have henough := (enough_sources_iff hday).mpr ⟨rates, cxdr, hday, hrest⟩
        right
        refine ⟨go_back_days, rates, le_rfl, by omega, ?_, hday, ⟨rates, cxdr, hday, hrest⟩, ?_⟩
        · rw [search, if_pos (by omega)]
          simp only [hday, henough, if_true]
        · intro back' hle hlt
          omega
      · -- one more round
        have hnext : self.search requested go_back_days
            = self.search requested (go_back_days + 1) := by
          rw [search, if_pos (by omega)]
          dsimp only
          cases hday : self.rates (requested - ONE_DAY_SECONDS * go_back_days) with
          | none => rfl
          | some rates =>
              have hfew : ¬ enough_sources rates = true := by
                rw [enough_sources_iff hday]
                exact hsourced
              exact if_neg hfew
        have hskip : ∀ {back}, go_back_days ≤ back →
            (go_back_days + 1 ≤ back → ¬ self.Sourced (requested - ONE_DAY_SECONDS * back)) →
              ¬ self.Sourced (requested - ONE_DAY_SECONDS * back) := by
          intro back hle hlater
          by_cases heq : go_back_days = back
          · subst heq
            exact hsourced
          · exact hlater (by omega)
        rw [hnext]
        rcases ih (go_back_days + 1) (by omega) with ⟨hnone, hall⟩
          | ⟨back, rates, hle, hback, hfound, hday, hat, hbefore⟩
        · left
          exact ⟨hnone, fun back hle hback => hskip hle fun hlater => hall back hlater hback⟩
        · right
          refine ⟨back, rates, by omega, hback, hfound, hday, hat, ?_⟩
          intro back' hle' hlt
          exact hskip hle' fun hlater => hbefore back' hlater hlt

/-- The search fails when no day has enough sources. -/
theorem search_eq_none_iff {self : ForexRateStore} {requested : ℕ} :
    self.search requested 0 = none ↔ self.NoSourcedDay requested := by
  rcases search_cases self requested (MAX_DAYS_TO_GO_BACK + 1) 0 (by omega) with ⟨hnone, hall⟩
    | ⟨back, rates, -, hback, hfound, -, hat, -⟩
  · refine ⟨fun _ => ?_, fun _ => hnone⟩
    rintro day ⟨back, hback, rfl⟩
    exact hall back (Nat.zero_le _) hback
  · rw [hfound]
    refine ⟨nofun, fun hno => ?_⟩
    exact absurd hat (hno _ ⟨back, hback, rfl⟩)

/-- **The search finds the latest day with enough sources.** Rounds are days in reverse, so the
first day at which the search stops is the greatest of those it could stop at. This replaces the
loop by an order in all that follows. -/
theorem search_eq_some_iff {self : ForexRateStore} {requested day : ℕ}
    {rates : ForexMultiRateMap} :
    self.search requested 0 = some (day, rates) ↔ self.LatestDay requested day rates := by
  rcases search_cases self requested (MAX_DAYS_TO_GO_BACK + 1) 0 (by omega) with ⟨hnone, hall⟩
    | ⟨back, rates', -, hback, hfound, hday, hat, hbefore⟩
  · rw [hnone]
    refine ⟨nofun, ?_⟩
    rintro ⟨⟨⟨⟨back, hback, rfl⟩, hsourced⟩, -⟩, -⟩
    exact absurd hsourced (hall back (Nat.zero_le _) hback)
  · -- an earlier round means a later day
    have hlatest : IsGreatest { day | day ∈ lookup_days requested ∧ self.Sourced day }
        (requested - ONE_DAY_SECONDS * back) := by
      refine ⟨⟨⟨back, hback, rfl⟩, hat⟩, ?_⟩
      rintro _ ⟨⟨back', hback', rfl⟩, hsourced⟩
      by_cases hlt : back' < back
      · exact absurd hsourced (hbefore back' (Nat.zero_le _) hlt)
      · exact Nat.sub_le_sub_left (Nat.mul_le_mul_left _ (not_lt.mp hlt)) _
    rw [hfound]
    constructor
    · intro heq
      obtain ⟨rfl, rfl⟩ := Prod.mk.inj (Option.some.inj heq)
      exact ⟨hlatest, hday⟩
    · rintro ⟨hgreatest, hrates⟩
      obtain rfl := hlatest.unique hgreatest
      rw [Option.some.inj (hday.symm.trans hrates)]

end Days

/-! ## The answer of a day

The code has four exits: a currency against itself, two against USD, and the quotient of two.
All of them are the composition of the two entries, with USD for one of them, or name the entry
that is missing. -/

/-- The day has a rate for the asset, which USD does not need. The dollar is what all entries are
against, so there is no entry of its own. -/
def Present (rates : ForexMultiRateMap) (asset : String) : Prop :=
  asset ≠ USD → (rates asset).isSome = true

/-- The rate composed of the entries of a day, which are all against USD. -/
def composed (rates : ForexMultiRateMap) (base_asset quote_asset : String) :
    Option QueriedExchangeRate :=
  if quote_asset = USD then rates base_asset
  else if base_asset = USD then (rates quote_asset).map QueriedExchangeRate.inverted
  else (rates base_asset).bind fun base_rate => (rates quote_asset).map (base_rate / ·)

/-- What a lookup answers from the rates of a day: the composed rate, or an error that names
exactly the assets the day has no rate for. -/
structure AnswerOfDay (rates : ForexMultiRateMap) (requested : ℕ) (base_asset quote_asset : String)
    (answer : Except GetForexRateError QueriedExchangeRate) : Prop where
  found : Present rates base_asset → Present rates quote_asset →
    ∃ rate, composed rates base_asset quote_asset = some rate ∧ answer = .ok rate
  base_missing : ¬ Present rates base_asset → Present rates quote_asset →
    answer = .error (.CouldNotFindBaseAsset requested base_asset)
  quote_missing : Present rates base_asset → ¬ Present rates quote_asset →
    answer = .error (.CouldNotFindQuoteAsset requested quote_asset)
  both_missing : ¬ Present rates base_asset → ¬ Present rates quote_asset →
    answer = .error (.CouldNotFindAssets requested base_asset quote_asset)

theorem present_usd (rates : ForexMultiRateMap) : Present rates USD := fun h => absurd rfl h

theorem present_of_some {rates : ForexMultiRateMap} {asset : String} {rate : QueriedExchangeRate}
    (h : rates asset = some rate) : Present rates asset := by
  intro _
  rw [h]
  rfl

theorem not_present_of_none {rates : ForexMultiRateMap} {asset : String} (hne : asset ≠ USD)
    (h : rates asset = none) : ¬ Present rates asset := by
  intro hpresent
  have hsome := hpresent hne
  rw [h] at hsome
  cases hsome

/-- The four exits of `get` agree on what they answer. The arms for USD are those in which one of
the two entries is not needed, and the errors name exactly what is missing. -/
theorem answerOfDay_rate_on_day (rates : ForexMultiRateMap) (requested : ℕ)
    {base_asset quote_asset : String} (hne : base_asset ≠ quote_asset) :
    AnswerOfDay rates requested base_asset quote_asset
      (rate_on_day rates requested base_asset quote_asset) := by
  unfold rate_on_day
  by_cases hquote : quote_asset = USD
  · -- a rate against USD is the entry itself
    subst hquote
    have hthere := present_usd rates
    rw [if_pos rfl]
    cases hbase : rates base_asset with
    | none =>
        have habsent := not_present_of_none hne hbase
        exact ⟨fun h => absurd h habsent, fun _ _ => rfl, fun h => absurd h habsent,
          fun _ h => absurd hthere h⟩
    | some base =>
        have hpresent := present_of_some hbase
        have hcomposed : composed rates base_asset USD = some base := (if_pos rfl).trans hbase
        exact ⟨fun _ _ => ⟨base, hcomposed, rfl⟩, fun h => absurd hpresent h,
          fun _ h => absurd hthere h, fun h => absurd hpresent h⟩
  rw [if_neg hquote]
  by_cases hbase : base_asset = USD
  · -- a rate of USD is the inverse of the entry
    subst hbase
    have hthere := present_usd rates
    rw [if_pos rfl]
    cases hentry : rates quote_asset with
    | none =>
        have habsent := not_present_of_none hquote hentry
        exact ⟨fun _ h => absurd h habsent, fun h => absurd hthere h, fun _ _ => rfl,
          fun h => absurd hthere h⟩
    | some quote =>
        have hpresent := present_of_some hentry
        have hcomposed : composed rates USD quote_asset = some quote.inverted := by
          rw [composed, if_neg hquote, if_pos rfl, hentry, Option.map_some]
        exact ⟨fun _ _ => ⟨_, hcomposed, rfl⟩, fun h => absurd hthere h,
          fun _ h => absurd hpresent h, fun h => absurd hthere h⟩
  -- any other rate is a quotient of two entries
  rw [if_neg hbase]
  cases hbrate : rates base_asset with
  | none =>
      have hbnot := not_present_of_none hbase hbrate
      cases hqrate : rates quote_asset with
      | none =>
          have hqnot := not_present_of_none hquote hqrate
          exact ⟨fun h => absurd h hbnot, fun _ h => absurd h hqnot, fun h => absurd h hbnot,
            fun _ _ => rfl⟩
      | some quote_rate =>
          have hqpresent := present_of_some hqrate
          exact ⟨fun h => absurd h hbnot, fun _ _ => rfl, fun h => absurd h hbnot,
            fun _ h => absurd hqpresent h⟩
  | some base_rate =>
      have hbpresent := present_of_some hbrate
      cases hqrate : rates quote_asset with
      | none =>
          have hqnot := not_present_of_none hquote hqrate
          exact ⟨fun _ h => absurd h hqnot, fun h => absurd hbpresent h, fun _ _ => rfl,
            fun h => absurd hbpresent h⟩
      | some quote_rate =>
          have hqpresent := present_of_some hqrate
          have hcomposed : composed rates base_asset quote_asset
              = some (base_rate / quote_rate) := by
            rw [composed, if_neg hquote, if_neg hbase, hbrate, hqrate]
            rfl
          exact ⟨fun _ _ => ⟨_, hcomposed, rfl⟩, fun h => absurd hbpresent h,
            fun _ h => absurd hqpresent h, fun h => absurd hbpresent h⟩

/-- Both orders of two assets are answered alike, with the roles exchanged. Which entries are
there does not depend on the order, and this decides between a rate and each of the errors. -/
theorem AnswerOfDay.mirrored {rates : ForexMultiRateMap} {requested : ℕ}
    {base_asset quote_asset : String} {answer answer' : Except GetForexRateError QueriedExchangeRate}
    (h : AnswerOfDay rates requested base_asset quote_asset answer)
    (h' : AnswerOfDay rates requested quote_asset base_asset answer') :
    ((∃ rate, answer = .ok rate) ↔ ∃ rate, answer' = .ok rate)
      ∧ ∀ error, answer = .error error → answer' = .error error.exchanged := by
  by_cases hbase : Present rates base_asset <;> by_cases hquote : Present rates quote_asset
  · -- with both currencies there, both lookups find a rate
    obtain ⟨rate, -, rfl⟩ := h.found hbase hquote
    obtain ⟨rate', -, rfl⟩ := h'.found hquote hbase
    exact ⟨⟨fun _ => ⟨rate', rfl⟩, fun _ => ⟨rate, rfl⟩⟩, nofun⟩
  · rw [h.quote_missing hbase hquote, h'.base_missing hquote hbase]
    refine ⟨⟨nofun, nofun⟩, fun error herror => ?_⟩
    rw [← Except.error.inj herror]
    rfl
  · rw [h.base_missing hbase hquote, h'.quote_missing hquote hbase]
    refine ⟨⟨nofun, nofun⟩, fun error herror => ?_⟩
    rw [← Except.error.inj herror]
    rfl
  · -- two missing currencies are reported together, the base first
    rw [h.both_missing hbase hquote, h'.both_missing hquote hbase]
    refine ⟨⟨nofun, nofun⟩, fun error herror => ?_⟩
    rw [← Except.error.inj herror]
    rfl

/-! ## The lookup

The search and the answer of a day are put together. Since neither looks at the order of the two
assets, both orders are answered from the same day, with the roles of base and quote exchanged. -/

section Lookup

variable [Features] [Unicode]

/-- What `get` answers is what the search found. -/
theorem get_eq_of_search (self : ForexRateStore) (requested current : ℕ)
    {base_asset quote_asset : String} (hne : to_uppercase base_asset ≠ to_uppercase quote_asset) :
    self.get requested current base_asset quote_asset
      = match self.search (shifted_timestamp requested current) 0 with
        | none => .error (.InvalidTimestamp (shifted_timestamp requested current))
        | some (_, rates) => rate_on_day rates (shifted_timestamp requested current)
            (to_uppercase base_asset) (to_uppercase quote_asset) := by
  unfold get
  exact if_neg hne

theorem get_of_noSourcedDay {self : ForexRateStore} {requested current : ℕ}
    {base_asset quote_asset : String} (hne : to_uppercase base_asset ≠ to_uppercase quote_asset)
    (h : self.NoSourcedDay (shifted_timestamp requested current)) :
    self.get requested current base_asset quote_asset
      = .error (.InvalidTimestamp (shifted_timestamp requested current)) := by
  rw [get_eq_of_search self requested current hne, search_eq_none_iff.mpr h]

theorem get_of_latestDay {self : ForexRateStore} {requested current day : ℕ}
    {rates : ForexMultiRateMap} {base_asset quote_asset : String}
    (hne : to_uppercase base_asset ≠ to_uppercase quote_asset)
    (h : self.LatestDay (shifted_timestamp requested current) day rates) :
    AnswerOfDay rates (shifted_timestamp requested current) (to_uppercase base_asset)
      (to_uppercase quote_asset) (self.get requested current base_asset quote_asset) := by
  rw [get_eq_of_search self requested current hne, search_eq_some_iff.mpr h]
  exact answerOfDay_rate_on_day rates _ hne

omit [Unicode] in
/-- There is a latest day or none at all. -/
theorem noSourcedDay_or_latestDay (self : ForexRateStore) (requested : ℕ) :
    self.NoSourcedDay requested ∨ ∃ day rates, self.LatestDay requested day rates := by
  cases hsearch : self.search requested 0 with
  | none => exact Or.inl (search_eq_none_iff.mp hsearch)
  | some found => exact Or.inr ⟨found.1, found.2, search_eq_some_iff.mp hsearch⟩

/-- **The forex lookup.** For two different assets, `get` fails with the shifted timestamp when
none of the days it may ask has enough sources. Otherwise it answers from the latest one that has:
the rate composed of its entries if it has one for every asset but USD, and an error that names
exactly the others if not. It depends on nothing else in the store, and the two orders of the
assets succeed together, from the same day, or fail with the roles exchanged.

The recursion of the search is described by `search_eq_some_iff`: it finds the latest day with
enough sources, and that depends on nothing but the days looked at. The two orders of the assets
search alike, and what they make of the day found is compared by its entries. -/
theorem lookup_answers_from_latest_day (self : ForexRateStore) (requested current : ℕ)
    (base_asset quote_asset : String)
    (hne : to_uppercase base_asset ≠ to_uppercase quote_asset) :
    (self.NoSourcedDay (shifted_timestamp requested current)
        ∨ ∃ day rates, self.LatestDay (shifted_timestamp requested current) day rates)
      ∧ (self.NoSourcedDay (shifted_timestamp requested current) →
          self.get requested current base_asset quote_asset
            = .error (.InvalidTimestamp (shifted_timestamp requested current)))
      ∧ (∀ day rates, self.LatestDay (shifted_timestamp requested current) day rates →
          AnswerOfDay rates (shifted_timestamp requested current) (to_uppercase base_asset)
              (to_uppercase quote_asset) (self.get requested current base_asset quote_asset)
            ∧ AnswerOfDay rates (shifted_timestamp requested current) (to_uppercase quote_asset)
              (to_uppercase base_asset) (self.get requested current quote_asset base_asset))
      ∧ (∀ other : ForexRateStore,
          (∀ day rates, self.LatestDay (shifted_timestamp requested current) day rates
            ↔ other.LatestDay (shifted_timestamp requested current) day rates) →
          other.get requested current base_asset quote_asset
            = self.get requested current base_asset quote_asset)
      ∧ ((∃ rate, self.get requested current base_asset quote_asset = .ok rate)
          ↔ ∃ rate, self.get requested current quote_asset base_asset = .ok rate)
      ∧ ∀ error, self.get requested current base_asset quote_asset = .error error →
          self.get requested current quote_asset base_asset = .error error.exchanged := by
  have hother : ∀ other : ForexRateStore,
      (∀ day rates, self.LatestDay (shifted_timestamp requested current) day rates
        ↔ other.LatestDay (shifted_timestamp requested current) day rates) →
      other.get requested current base_asset quote_asset
        = self.get requested current base_asset quote_asset := by
    intro other hsame
    have hsearch : other.search (shifted_timestamp requested current) 0
        = self.search (shifted_timestamp requested current) 0 := by
      apply Option.ext
      intro found
      rw [search_eq_some_iff, search_eq_some_iff]
      exact (hsame found.1 found.2).symm
    rw [get_eq_of_search other requested current hne, get_eq_of_search self requested current hne,
      hsearch]
  refine ⟨noSourcedDay_or_latestDay self _, get_of_noSourcedDay hne, ?_, hother, ?_⟩
  · intro day rates hlatest
    exact ⟨get_of_latestDay hne hlatest, get_of_latestDay hne.symm hlatest⟩
  · rcases noSourcedDay_or_latestDay self (shifted_timestamp requested current) with hno
      | ⟨day, rates, hlatest⟩
    · -- both orders fail alike
      rw [get_of_noSourcedDay hne hno, get_of_noSourcedDay hne.symm hno]
      refine ⟨⟨nofun, nofun⟩, fun error herror => ?_⟩
      rw [← Except.error.inj herror]
      rfl
    · exact (get_of_latestDay hne hlatest).mirrored (get_of_latestDay hne.symm hlatest)

end Lookup

/-- Two days after the day of `oneEurDay`, both orders are answered from it. -/
theorem lookup_goes_back_to_the_euro :
    letI := defaultBuild
    letI := asciiUnicode
    (∃ rate, oneEurDay.get 1_700_006_400 1_700_100_000 "EUR" "USD" = .ok rate)
      ↔ ∃ rate, oneEurDay.get 1_700_006_400 1_700_100_000 "USD" "EUR" = .ok rate := by
  let _ := defaultBuild
  let _ := asciiUnicode
  exact (lookup_answers_from_latest_day oneEurDay 1_700_006_400 1_700_100_000 "EUR" "USD"
    (by decide)).2.2.2.2.1

end ForexRateStore

end Xrc
