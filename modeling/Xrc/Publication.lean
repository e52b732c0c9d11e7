/-
What a forex source publishes, against what the canister takes out of its responses. A response
is groups of quoted rates, each group under one date. Eleven parsers, each with its own place
for the date and its own way with a wrong one, come to the same (`extract_rate_publishes`): the
rates are those of the groups dated the day asked for, against USD, and nothing else.
-/
import Xrc.ForexSources

set_option autoImplicit false

namespace Xrc

open Machine

/-! ## What a response says

The specification does not parse. A response quotes rates in groups, each under at most one
date, and a rate for a day must stand in a group of that date; the source's own currency need
not be quoted. What is published is such a choice of rates, turned against USD. -/

/-- The rates quoted under one date. -/
abbrev Group : Type := Option ℤ × List (String × ℕ)

/-- All rates are words. -/
def Words (groups : List Group) : Prop := ∀ group ∈ groups, ∀ entry ∈ group.2, entry.2 < 2 ^ 64

/-- A rate is quoted for a day, or it is the home currency against itself. The unit is added by
the code for the sources of a currency that has no rate against itself. -/
def Quoted (groups : List Group) (home : Option String) (day : ℕ) (entry : String × ℕ) : Prop :=
  (∃ group ∈ groups, group.1 = some (day : ℤ) ∧ entry ∈ group.2)
    ∨ (home = some entry.1 ∧ entry.2 = RATE_UNIT)

/-- The rates against USD that groups of rates hold for a day. All quotes are in the home
currency, so the rate of a symbol against USD is the quotient of its quote and that of USD. -/
structure Published (groups : List Group) (home : Option String) (day : ℕ)
    (rates : ForexRateMap) : Prop where
  usd : rates.get USD = some RATE_UNIT
  quoted : ∃ usd_value, 0 < usd_value ∧ Quoted groups home day (USD, usd_value)
    ∧ ∀ symbol rate, rates.get symbol = some rate →
        ∃ value, Quoted groups home day (symbol, value)
          ∧ rate = RATE_UNIT * value / usd_value % 2 ^ 64

/-! ## From entries to rates

All parsers end in the same step, `normalize_to_usd` on a map of entries. It is taken apart here
once, so that for every parser it is left to show where the entries come from. -/

/-- Rates that are the normalization of collected entries, all of them quoted for the day. -/
def Taken (groups : List Group) (home : Option String) (day : ℕ) (rates : ForexRateMap) : Prop :=
  ∃ entries, normalize_to_usd (ForexRateMap.collect entries) = some (.ok rates)
    ∧ ∀ entry ∈ entries, Quoted groups home day entry

section Taken

variable {groups : List Group} {home : Option String} {day : ℕ} {rates : ForexRateMap}
  {entries : List (String × ℕ)}

theorem Taken.of_home {currency : String}
    (h : normalize_to_usd ((ForexRateMap.collect entries).insert (currency, RATE_UNIT))
      = some (.ok rates))
    (hentries : ∀ entry ∈ entries, Quoted groups (some currency) day entry) :
    Taken groups (some currency) day rates := by
  rw [← ForexRateMap.collect_concat] at h
  refine ⟨_, h, fun entry hentry => ?_⟩
  rcases List.mem_append.mp hentry with hold | hnew
  · exact hentries entry hold
  · rw [List.mem_singleton.mp hnew]
    exact Or.inr ⟨rfl, rfl⟩

/-- **What is taken is published**, as long as the values are words. Normalization multiplies by
the unit of rates in 128 bits, which no word overflows, and casts the quotient; the cast is part
of what is published here. -/
theorem Taken.published (h : Taken groups home day rates)
    (hwords : Words groups) : Published groups home day rates := by
  obtain ⟨entries, hnormalize, hquoted⟩ := h
  -- every entry is a quoted rate or the unit of the home currency
  have hword : ∀ {symbol : String} {value : ℕ},
      (ForexRateMap.collect entries).get symbol = some value → value < 2 ^ 64 := by
    intro symbol value hvalue
    rcases hquoted _ (ForexRateMap.mem_of_get_collect hvalue) with ⟨g, hg, -, hentry⟩ | ⟨-, hunit⟩
    · exact hwords g hg _ hentry
    · rw [show value = RATE_UNIT from hunit]
      decide
  -- so the product with the unit does not wrap, and only the cast is left
  have hrate : ∀ {usd_value value : ℕ}, value < 2 ^ 64 →
      normalized_value usd_value value = RATE_UNIT * value / usd_value % 2 ^ 64 := by
    intro usd_value value hvalue
    have hproduct : RATE_UNIT * value < 2 ^ 128 := by
      simp only [RATE_UNIT]
      omega
    rw [normalized_value, wrapping_mul_eq hproduct, truncate]
  rw [normalize_to_usd] at hnormalize
  cases husd : (ForexRateMap.collect entries).get USD with
  -- without a USD value there would be an error
  | none =>
      rw [husd] at hnormalize
      cases hnormalize
  | some usd_value =>
      simp only [husd, Option.ite_none_left_eq_some, Option.some.injEq, Except.ok.injEq]
        at hnormalize
      obtain ⟨hzero, rfl⟩ := hnormalize
      have hpos := Nat.pos_of_ne_zero hzero
      constructor
      · rw [ForexRateMap.get_map_values, husd, Option.map_some, hrate (hword husd),
          Nat.mul_div_cancel _ hpos]
        rfl
      · refine ⟨usd_value, hpos, hquoted _ (ForexRateMap.mem_of_get_collect husd), ?_⟩
        intro symbol rate hget
        rw [ForexRateMap.get_map_values, Option.map_eq_some_iff] at hget
        obtain ⟨value, hvalue, rfl⟩ := hget
        exact ⟨value, hquoted _ (ForexRateMap.mem_of_get_collect hvalue), hrate (hword hvalue)⟩

/-- The entries of one group of the day. -/
theorem Quoted.of_group {group : Group} (hmem : group ∈ groups) (hdate : group.1 = some (day : ℤ)) :
    ∀ entry ∈ group.2, Quoted groups home day entry :=
  fun _ hentry => Or.inl ⟨group, hmem, hdate, hentry⟩

end Taken

/-! ## The parsers, one by one

Each source gets its groups, read off the response without regard to the day asked for, and a
lemma that its parser takes entries of the groups of that day only. The two loops that stop at a
wrong date, of Canada and Uzbekistan, have an induction of their own. -/

/-- An answer is not the error of a check before it. -/
theorem answer_of_check {refused : Prop} [Decidable refused] {error : ExtractError}
    {result : Extracted} {rates : ForexRateMap}
    (h : (if refused then some (.error error) else result) = some (.ok rates)) :
    ¬ refused ∧ result = some (.ok rates) := by
  by_cases hrefused : refused
  · rw [if_pos hrefused] at h
    cases h
  · rw [if_neg hrefused] at h
    exact ⟨hrefused, h⟩

namespace forex

variable [Chrono] {day : ℕ} {rates : ForexRateMap}

/-- The rates of a response that has one date. -/
def one_group (date format : String) (entries : List (String × ℕ)) : List Group :=
  [(Chrono.parse_from_str date format, entries)]

/-- One date covers all the entries of a response. -/
theorem quoted_one_group {date format : String} {entries : List (String × ℕ)}
    {home : Option String} (hday : 0 < day) (hword : day < 2 ^ 63)
    (hdate : ¬ extracted_timestamp date format ≠ day) :
    ∀ entry ∈ entries, Quoted (one_group date format entries) home day entry :=
  Quoted.of_group (List.mem_singleton_self (_, entries))
    (date_of_extracted_timestamp hday hword (not_not.mp hdate))

/-- The entries of one part of a response, which has a date of its own. -/
theorem quoted_part {α : Type} {parts : List α} {part : α} {date : α → String} {format : String}
    {entries : α → List (String × ℕ)} {home : Option String} (hpart : part ∈ parts)
    (hday : 0 < day) (hword : day < 2 ^ 63)
    (hdate : extracted_timestamp (date part) format = day) {entry : String × ℕ}
    (hentry : entry ∈ entries part) :
    Quoted (parts.flatMap fun part => one_group (date part) format (entries part)) home day
      entry := by
  have hgroup : (Chrono.parse_from_str (date part) format, entries part)
      ∈ parts.flatMap fun part => one_group (date part) format (entries part) :=
    List.mem_flatMap.mpr ⟨part, hpart, List.mem_singleton_self _⟩
  apply Quoted.of_group hgroup
  · exact date_of_extracted_timestamp hday hword hdate
  · exact hentry

section Groups

variable [F64] [Unicode]

omit [Chrono] in
def myanmar.groups (response : myanmar.Response) : List Group :=
  [(some (response.timestamp : ℤ), response.rates.filterMap myanmar.item_rate)]

def bosnia_herzegovina.groups (response : bosnia_herzegovina.Response) : List Group :=
  one_group response.date "%Y-%m-%dT%H:%M:%S"
    (response.currency_exchange_items.filterMap bosnia_herzegovina.item_rate)

def europe.groups (data : europe.XmlEcbEnvelope) : List Group :=
  match europe.first_cube data with
  | .Cube cube => one_group (cube.time ++ " 00:00:00") "%Y-%m-%d %H:%M:%S"
      (cube.cubes.map europe.cube_rate)
  | _ => []

def canada.groups (response : canada.Response) : List Group :=
  response.observations.flatMap fun observation =>
    one_group (observation.d ++ " 00:00:00") "%Y-%m-%d %H:%M:%S"
      (observation.rates.filterMap (canada.value_rate response.series_detail))

def uzbekistan.groups (response : List uzbekistan.Detail) : List Group :=
  response.flatMap fun detail =>
    one_group (detail.date ++ " 00:00:00") "%d.%m.%Y %H:%M:%S"
      (uzbekistan.detail_rate detail).toList

def australia.groups (data : australia.XmlRdfEnvelope) : List Group :=
  data.items.flatMap fun item =>
    one_group (item.period ++ " 00:00:00") "%Y-%m-%d %H:%M:%S"
      (australia.item_rate item).toList

def nepal.groups (response : nepal.Response) : List Group :=
  response.payload.flatMap fun day =>
    one_group (day.date ++ " 00:00:00") "%Y-%m-%d %H:%M:%S"
      (day.rates.filterMap nepal.item_rate)

def georgia.groups (response : List georgia.Day) : List Group :=
  response.flatMap fun day =>
    one_group day.date "%Y-%m-%dT%H:%M:%S%.3fZ" (day.currencies.map georgia.currency_rate)

def italy.groups (response : italy.Response) : List Group :=
  response.rates.flatMap fun rate =>
    one_group (rate.reference_date ++ " 00:00:00") "%Y-%m-%d %H:%M:%S"
      (italy.item_rate rate).toList

def switzerland.groups (data : switzerland.XmlRdfEnvelope) : List Group :=
  one_group (data.datum ++ " 00:00:00") "%d.%m.%Y %H:%M:%S"
    (data.items.filterMap switzerland.item_rate)

def turkey.groups (data : turkey.XmlRdfEnvelope) : List Group :=
  one_group (data.date ++ " 00:00:00") "%d.%m.%Y %H:%M:%S"
    (data.items.filterMap turkey.item_rate)

end Groups

section Parsers

variable [F64]

/-- The loop goes on as long as the details are of the day. One of another day ends it with an
error, so all that was collected is of the day that was asked for. -/
theorem uzbekistan.collected {details : List uzbekistan.Detail} {values collected : ForexRateMap}
    (h : uzbekistan.collect_details day details values = .ok collected) :
    (∀ detail ∈ details, uzbekistan.detail_timestamp detail = day)
      ∧ collected = (details.filterMap uzbekistan.detail_rate).foldl ForexRateMap.insert
          values := by
  induction details generalizing values with
  | nil => exact ⟨fun _ hnil => absurd hnil List.not_mem_nil, (Except.ok.inj h).symm⟩
  | cons detail details ih =>
      rw [uzbekistan.collect_details] at h
      by_cases hdate : uzbekistan.detail_timestamp detail ≠ day
      · rw [if_pos hdate] at h
        cases h
      · rw [if_neg hdate] at h
        obtain ⟨hdates, hcollected⟩ := ih h
        refine ⟨List.forall_mem_cons.mpr ⟨not_not.mp hdate, hdates⟩, ?_⟩
        rw [hcollected, List.filterMap_cons]
        cases uzbekistan.detail_rate detail <;> rfl

variable (hday : 0 < day) (hword : day < 2 ^ 63) (hstart : start_of_day day = day)
include hday hword hstart

theorem bosnia_herzegovina.taken {response : bosnia_herzegovina.Response}
    (h : bosnia_herzegovina.extract_rate response day = some (.ok rates)) :
    Taken (bosnia_herzegovina.groups response) none day rates := by
  rw [bosnia_herzegovina.extract_rate, hstart] at h
  obtain ⟨hdate, hnormalize⟩ := answer_of_check h
  exact ⟨_, hnormalize, quoted_one_group hday hword hdate⟩

theorem uzbekistan.taken {response : List uzbekistan.Detail}
    (h : uzbekistan.extract_rate response day = some (.ok rates)) :
    Taken (uzbekistan.groups response) none day rates := by
  rw [uzbekistan.extract_rate, hstart] at h
  split at h
  · cases h
  · rename_i collected hcollect
    obtain ⟨hdates, rfl⟩ := uzbekistan.collected hcollect
    refine ⟨_, h, fun entry hentry => ?_⟩
    obtain ⟨detail, hdetail, hrate⟩ := List.mem_filterMap.mp hentry
    have hdate := hdates detail hdetail
    rw [uzbekistan.detail_timestamp] at hdate
    exact quoted_part hdetail hday hword hdate (Option.mem_toList.mpr hrate)

theorem australia.taken {data : australia.XmlRdfEnvelope}
    (h : australia.extract_rate data day = some (.ok rates)) :
    Taken (australia.groups data) (some "AUD") day rates := by
  rw [australia.extract_rate, hstart] at h
  apply Taken.of_home h
  intro entry hentry
  obtain ⟨item, hitem, hsome⟩ := List.mem_filterMap.mp hentry
  rw [Option.ite_none_left_eq_some, australia.item_timestamp, not_not] at hsome
  exact quoted_part hitem hday hword hsome.1.symm (Option.mem_toList.mpr hsome.2)

theorem nepal.taken {response : nepal.Response}
    (h : nepal.extract_rate response day = some (.ok rates)) :
    Taken (nepal.groups response) none day rates := by
  rw [nepal.extract_rate, hstart] at h
  obtain ⟨-, hanswer⟩ := answer_of_check h
  dsimp only at hanswer
  split at hanswer
  · cases hanswer
  · rename_i found hfind
    rw [Option.ite_none_left_eq_some] at hanswer
    obtain ⟨-, hnormalize⟩ := answer_of_check hanswer.2
    have hdate : nepal.day_timestamp found = day := by simpa using List.find?_some hfind
    rw [nepal.day_timestamp] at hdate
    refine ⟨_, hnormalize, fun entry hentry => ?_⟩
    exact quoted_part (List.mem_of_find?_eq_some hfind) hday hword hdate hentry

theorem georgia.taken {response : List georgia.Day}
    (h : georgia.extract_rate response day = some (.ok rates)) :
    Taken (georgia.groups response) none day rates := by
  rw [georgia.extract_rate, hstart] at h
  cases response with
  | nil => cases h
  | cons obj later =>
      obtain ⟨hdate, hanswer⟩ := answer_of_check h
      obtain ⟨-, hnormalize⟩ := answer_of_check hanswer
      refine ⟨_, hnormalize, fun entry hentry => ?_⟩
      exact quoted_part List.mem_cons_self hday hword (not_not.mp hdate) hentry

theorem italy.taken {response : italy.Response}
    (h : italy.extract_rate response day = some (.ok rates)) :
    Taken (italy.groups response) (some "EUR") day rates := by
  rw [italy.extract_rate, hstart] at h
  obtain ⟨-, hnormalize⟩ := answer_of_check h
  apply Taken.of_home hnormalize
  intro entry hentry
  obtain ⟨rate, hrate, hsome⟩ := List.mem_filterMap.mp hentry
  rw [Option.ite_none_right_eq_some, italy.item_timestamp] at hsome
  exact quoted_part hrate hday hword hsome.1 (Option.mem_toList.mpr hsome.2)

variable [Unicode]

theorem europe.taken {bytes : Bytes} {data : europe.XmlEcbEnvelope}
    (h : europe.extract_rate bytes data day = some (.ok rates)) :
    Taken (europe.groups data) (some "EUR") day rates := by
  rw [europe.extract_rate, hstart] at h
  rw [europe.groups]
  -- the first cube is a cube
  cases hcube : europe.first_cube data with
  | Subject subject =>
      rw [hcube] at h
      cases h
  | Sender name =>
      rw [hcube] at h
      cases h
  | Cube cube =>
      rw [hcube] at h
      obtain ⟨hdate, hnormalize⟩ := answer_of_check h
      exact Taken.of_home hnormalize (quoted_one_group hday hword hdate)

theorem switzerland.taken {data : switzerland.XmlRdfEnvelope}
    (h : switzerland.extract_rate data day = some (.ok rates)) :
    Taken (switzerland.groups data) (some "CHF") day rates := by
  rw [switzerland.extract_rate, hstart] at h
  obtain ⟨hdate, hnormalize⟩ := answer_of_check h
  exact Taken.of_home hnormalize (quoted_one_group hday hword hdate)

theorem turkey.taken {data : turkey.XmlRdfEnvelope}
    (h : turkey.extract_rate data day = some (.ok rates)) :
    Taken (turkey.groups data) (some "TRY") day rates := by
  rw [turkey.extract_rate, hstart] at h
  obtain ⟨hdate, hanswer⟩ := answer_of_check h
  obtain ⟨-, hnormalize⟩ := answer_of_check hanswer
  exact Taken.of_home hnormalize (quoted_one_group hday hword hdate)

omit hday hword hstart in
/-- The loop goes on as long as the observations are of the day. What is inserted later replaces
what was there, as the response lists every series once for each day. -/
theorem canada.collected {series_detail : List (String × String)}
    {observations : List canada.Observation} {values collected : ForexRateMap}
    (h : canada.collect_observations series_detail day observations values = .ok collected) :
    (∀ observation ∈ observations, canada.observation_timestamp observation = day)
      ∧ collected = (observations.flatMap fun observation =>
          observation.rates.filterMap (canada.value_rate series_detail)).foldl
            ForexRateMap.insert values := by
  induction observations generalizing values with
  | nil => exact ⟨fun _ hnil => absurd hnil List.not_mem_nil, (Except.ok.inj h).symm⟩
  | cons observation observations ih =>
      rw [canada.collect_observations] at h
      -- an observation of another day ends the loop with an error
      by_cases hdate : canada.observation_timestamp observation ≠ day
      · rw [if_pos hdate] at h
        cases h
      · rw [if_neg hdate] at h
        obtain ⟨hdates, hcollected⟩ := ih h
        refine ⟨List.forall_mem_cons.mpr ⟨not_not.mp hdate, hdates⟩, ?_⟩
        rw [List.flatMap_cons, List.foldl_append]
        exact hcollected

theorem canada.taken {response : canada.Response}
    (h : canada.extract_rate response day = some (.ok rates)) :
    Taken (canada.groups response) (some "CAD") day rates := by
  rw [canada.extract_rate, hstart] at h
  split at h
  · cases h
  · rename_i collected hcollect
    obtain ⟨hdates, rfl⟩ := canada.collected hcollect
    apply Taken.of_home h
    intro entry hentry
    obtain ⟨observation, hobservation, hrate⟩ := List.mem_flatMap.mp hentry
    have hdate := hdates observation hobservation
    rw [canada.observation_timestamp] at hdate
    exact quoted_part hobservation hday hword hdate hrate

omit [Chrono] hday hword in
theorem myanmar.taken {response : myanmar.Response}
    (h : myanmar.extract_rate response day = some (.ok rates)) :
    Taken (myanmar.groups response) none day rates := by
  rw [myanmar.extract_rate, hstart] at h
  obtain ⟨hdate, hnormalize⟩ := answer_of_check h
  have heq : response.timestamp = day := not_not.mp hdate
  refine ⟨_, hnormalize, fun entry hentry => ?_⟩
  exact Or.inl ⟨_, List.mem_singleton_self _, congrArg (fun n : ℕ => some (n : ℤ)) heq, hentry⟩

end Parsers

/-! ### The values are words

The cast from a double saturates, so every quoted value is a word whatever the double was. This
is shown for all groups at once, as the normalization needs it of the whole map. -/

section Words

variable {α : Type} {date format : String}

theorem words_filterMap {f : α → Option (String × ℕ)}
    (hf : ∀ {x : α} {entry : String × ℕ}, f x = some entry → entry.2 < 2 ^ 64) (xs : List α) :
    Words (one_group date format (xs.filterMap f)) := by
  intro group hgroup entry hentry
  rw [List.mem_singleton.mp hgroup] at hentry
  obtain ⟨x, -, hx⟩ := List.mem_filterMap.mp hentry
  exact hf hx

theorem words_toList {rate : Option (String × ℕ)}
    (hrate : ∀ {entry : String × ℕ}, rate = some entry → entry.2 < 2 ^ 64) :
    Words (one_group date format rate.toList) := by
  intro group hgroup entry hentry
  rw [List.mem_singleton.mp hgroup] at hentry
  exact hrate (Option.mem_toList.mp hentry)

theorem words_map {f : α → String × ℕ} (hf : ∀ x, (f x).2 < 2 ^ 64) (xs : List α) :
    Words (one_group date format (xs.map f)) := by
  intro group hgroup entry hentry
  rw [List.mem_singleton.mp hgroup] at hentry
  obtain ⟨x, -, rfl⟩ := List.mem_map.mp hentry
  exact hf x

omit [Chrono] in
theorem words_flatMap {f : α → List Group} (hf : ∀ x, Words (f x)) (xs : List α) :
    Words (xs.flatMap f) := by
  intro group hgroup
  obtain ⟨x, -, hx⟩ := List.mem_flatMap.mp hgroup
  exact hf x group hx

end Words

section Values

variable [F64]

theorem australia.words (data : australia.XmlRdfEnvelope) : Words (australia.groups data) := by
  refine words_flatMap (fun item => words_toList fun hrate => ?_) data.items
  grind [australia.item_rate, F64.to_u64_lt]

theorem bosnia_herzegovina.words (response : bosnia_herzegovina.Response) :
    Words (bosnia_herzegovina.groups response) := by
  refine words_filterMap (fun hrate => ?_) response.currency_exchange_items
  grind [bosnia_herzegovina.item_rate, F64.to_u64_lt]

theorem uzbekistan.words (response : List uzbekistan.Detail) :
    Words (uzbekistan.groups response) := by
  refine words_flatMap (fun detail => words_toList fun hrate => ?_) response
  grind [uzbekistan.detail_rate, F64.to_u64_lt]

theorem nepal.words (response : nepal.Response) : Words (nepal.groups response) := by
  refine words_flatMap (fun day => words_filterMap (fun hrate => ?_) day.rates) response.payload
  rw [nepal.item_rate] at hrate
  split at hrate
  · rw [← Option.some.inj hrate]
    exact (Nat.div_le_self _ _).trans_lt (F64.to_u64_lt _)
  · cases hrate

theorem georgia.words (response : List georgia.Day) : Words (georgia.groups response) := by
  refine words_flatMap (fun day => words_map (fun currency => ?_) day.currencies) response
  apply F64.to_u64_lt

theorem italy.words (response : italy.Response) : Words (italy.groups response) := by
  refine words_flatMap (fun rate => words_toList fun hrate => ?_) response.rates
  grind [italy.item_rate, F64.to_u64_lt]

variable [Unicode]

omit [Chrono] in
theorem myanmar.words (response : myanmar.Response) : Words (myanmar.groups response) := by
  intro group hgroup entry hentry
  rw [List.mem_singleton.mp hgroup] at hentry
  obtain ⟨item, -, hrate⟩ := List.mem_filterMap.mp hentry
  grind [myanmar.item_rate, F64.to_u64_lt]

theorem europe.words (data : europe.XmlEcbEnvelope) : Words (europe.groups data) := by
  rw [europe.groups]
  split
  · refine words_map (fun cube => ?_) _
    apply F64.to_u64_lt
  · exact fun group hgroup => absurd hgroup List.not_mem_nil

theorem canada.words (response : canada.Response) : Words (canada.groups response) := by
  refine words_flatMap (fun observation => words_filterMap (fun hrate => ?_) observation.rates)
    response.observations
  grind [canada.value_rate, F64.to_u64_lt]

theorem switzerland.words (data : switzerland.XmlRdfEnvelope) :
    Words (switzerland.groups data) := by
  refine words_filterMap (fun hrate => ?_) data.items
  grind [switzerland.item_rate, F64.to_u64_lt]

theorem turkey.words (data : turkey.XmlRdfEnvelope) : Words (turkey.groups data) := by
  refine words_filterMap (fun hrate => ?_) data.items
  grind [turkey.item_rate, F64.to_u64_lt]

end Values

end forex

/-! ## All sources

The lemmas of the sources put together by a case distinction on the source. From here on no
result speaks of a single one any more. -/

namespace Forex

/-- The currency a source's rates are in, where the source does not quote it. -/
def home_currency : Forex → Option String
  | BankOfCanada => some "CAD"
  | EuropeanCentralBank | BankOfItaly => some "EUR"
  | ReserveBankOfAustralia => some "AUD"
  | SwissFederalOfficeForCustoms => some "CHF"
  | CentralBankOfTurkey => some "TRY"
  | CentralBankOfMyanmar | CentralBankOfBosniaHerzegovina | CentralBankOfUzbekistan
  | CentralBankOfNepal | CentralBankOfGeorgia => none

variable [F64] [Chrono] [Unicode]

/-- The rates of a response by their dates, whatever day was asked for. -/
def groups : (self : Forex) → self.Response → List Group
  | CentralBankOfMyanmar => forex.myanmar.groups
  | CentralBankOfBosniaHerzegovina => forex.bosnia_herzegovina.groups
  | EuropeanCentralBank => forex.europe.groups
  | BankOfCanada => forex.canada.groups
  | CentralBankOfUzbekistan => forex.uzbekistan.groups
  | ReserveBankOfAustralia => forex.australia.groups
  | CentralBankOfNepal => forex.nepal.groups
  | CentralBankOfGeorgia => forex.georgia.groups
  | BankOfItaly => forex.italy.groups
  | SwissFederalOfficeForCustoms => forex.switzerland.groups
  | CentralBankOfTurkey => forex.turkey.groups

/-- Every source takes its rates from the groups of the day it was asked for. There are eleven
formats, and one lemma for each of them above. -/
theorem extract_taken {self : Forex} {bytes : Bytes} {response : self.Response} {day : ℕ}
    {rates : ForexRateMap} (hday : 0 < day) (hword : day < 2 ^ 63)
    (hstart : start_of_day day = day)
    (h : self.extract bytes response day = some (.ok rates)) :
    Taken (self.groups response) self.home_currency day rates := by
  cases self with
  | CentralBankOfMyanmar => exact forex.myanmar.taken hstart h
  | CentralBankOfBosniaHerzegovina =>
      exact forex.bosnia_herzegovina.taken hday hword hstart h
  | EuropeanCentralBank => exact forex.europe.taken hday hword hstart h
  | BankOfCanada => exact forex.canada.taken hday hword hstart h
  | CentralBankOfUzbekistan => exact forex.uzbekistan.taken hday hword hstart h
  | ReserveBankOfAustralia => exact forex.australia.taken hday hword hstart h
  | CentralBankOfNepal => exact forex.nepal.taken hday hword hstart h
  | CentralBankOfGeorgia => exact forex.georgia.taken hday hword hstart h
  | BankOfItaly => exact forex.italy.taken hday hword hstart h
  | SwissFederalOfficeForCustoms => exact forex.switzerland.taken hday hword hstart h
  | CentralBankOfTurkey => exact forex.turkey.taken hday hword hstart h

/-- Whatever a source quotes is a word. -/
theorem groups_are_words (self : Forex) (response : self.Response) :
    Words (self.groups response) := by
  cases self with
  | CentralBankOfMyanmar => exact forex.myanmar.words response
  | CentralBankOfBosniaHerzegovina => exact forex.bosnia_herzegovina.words response
  | EuropeanCentralBank => exact forex.europe.words response
  | BankOfCanada => exact forex.canada.words response
  | CentralBankOfUzbekistan => exact forex.uzbekistan.words response
  | ReserveBankOfAustralia => exact forex.australia.words response
  | CentralBankOfNepal => exact forex.nepal.words response
  | CentralBankOfGeorgia => exact forex.georgia.words response
  | BankOfItaly => exact forex.italy.words response
  | SwissFederalOfficeForCustoms => exact forex.switzerland.words response
  | CentralBankOfTurkey => exact forex.turkey.words response

/-- A body is a response with the rates of a day. -/
def PublishedIn [ForexSerde] (self : Forex) (body : Bytes) (day : ℕ) (rates : ForexRateMap) :
    Prop :=
  ∃ response, ForexSerde.from_slice self body = .ok response
    ∧ Published (self.groups response) self.home_currency day rates

/-- **Rates are those published for the day.** Whatever a source sends, the rates that are taken
out of it for a day after the epoch are quoted in it under the date of that day. -/
theorem extract_rate_publishes [ForexSerde] {self : Forex} {body : Bytes} {day : ℕ}
    {rates : ForexRateMap} (hday : 0 < day) (hword : day < 2 ^ 63)
    (hstart : start_of_day day = day) (h : self.extract_rate body day = some (.ok rates)) :
    self.PublishedIn body day rates := by
  rw [extract_rate] at h
  cases hresponse : ForexSerde.from_slice self body with
  | error err =>
      rw [hresponse] at h
      cases h
  | ok response =>
      rw [hresponse] at h
      have htaken := extract_taken hday hword hstart h
      exact ⟨response, hresponse, htaken.published (self.groups_are_words response)⟩

end Forex

end Xrc
