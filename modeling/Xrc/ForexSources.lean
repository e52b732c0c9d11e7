/-
`forex/*.rs`: what the eleven forex sources make of a response. Each of them reads the dates in
its own responses, drops or refuses what is of another day than the one asked for, takes the
rates out of what is left, and turns them against USD.

A response is the value its body is deserialized into, a hash map in it the list of its entries
in the order they are visited. A rate is taken out of the response as a double.
-/
import Xrc.Extraction
import Xrc.Urls

set_option autoImplicit false

namespace Xrc

open Machine

/-! ## Maps of rates

A `ForexRateMap` keeps its entries sorted by their symbols, as a `BTreeMap` does, which makes
two maps with the same values equal. The parsers build theirs by inserting one entry after the
other, so that of two rates for one symbol the later one counts. -/

namespace ForexRateMap

/-- `BTreeMap::insert`, on the entries. -/
def insert_entry (symbol : String) (value : ℕ) : List (String × ℕ) → List (String × ℕ)
  | [] => [(symbol, value)]
  | (other, old) :: entries =>
    if symbol < other then (symbol, value) :: (other, old) :: entries
    else if symbol = other then (symbol, value) :: entries
    else (other, old) :: insert_entry symbol value entries

theorem mem_insert_entry {symbol : String} {value : ℕ} {entry : String × ℕ}
    {entries : List (String × ℕ)} (h : entry ∈ insert_entry symbol value entries) :
    entry = (symbol, value) ∨ entry ∈ entries := by
  induction entries with
  | nil => exact Or.inl (List.mem_singleton.mp h)
  | cons first entries ih =>
      rw [insert_entry] at h
      split_ifs at h
      · exact List.mem_cons.mp h
      · exact (List.mem_cons.mp h).imp_right (List.mem_cons_of_mem _)
      · rcases List.mem_cons.mp h with rfl | hrest
        · exact Or.inr List.mem_cons_self
        · exact (ih hrest).imp_right (List.mem_cons_of_mem _)

theorem pairwise_insert_entry {symbol : String} {value : ℕ} {entries : List (String × ℕ)}
    (h : (entries.map Prod.fst).Pairwise (· < ·)) :
    ((insert_entry symbol value entries).map Prod.fst).Pairwise (· < ·) := by
  induction entries with
  | nil => exact List.pairwise_singleton _ _
  | cons first entries ih =>
      obtain ⟨hfirst, hentries⟩ := List.pairwise_cons.mp h
      rw [insert_entry]
      split_ifs with hlt heq
      · refine List.pairwise_cons.mpr ⟨fun other hother => ?_, h⟩
        rcases List.mem_cons.mp hother with rfl | hrest
        · exact hlt
        · exact hlt.trans (hfirst other hrest)
      · exact List.pairwise_cons.mpr ⟨heq ▸ hfirst, hentries⟩
      · refine List.pairwise_cons.mpr ⟨fun other hother => ?_, ih hentries⟩
        obtain ⟨entry, hentry, rfl⟩ := List.mem_map.mp hother
        rcases mem_insert_entry hentry with rfl | hrest
        · exact lt_of_le_of_ne (not_lt.mp hlt) (Ne.symm heq)
        · exact hfirst _ (List.mem_map_of_mem hrest)

theorem lookup_cons_entry (key : String) (entry : String × ℕ) (entries : List (String × ℕ)) :
    (entry :: entries).lookup key
      = if key = entry.1 then some entry.2 else entries.lookup key := by
  obtain ⟨other, old⟩ := entry
  by_cases h : key = other <;> simp [List.lookup_cons, h, beq_eq_false_iff_ne.mpr]

theorem lookup_insert_entry (symbol : String) (value : ℕ) (key : String)
    (entries : List (String × ℕ)) :
    (insert_entry symbol value entries).lookup key
      = if key = symbol then some value else entries.lookup key := by
  induction entries with
  | nil => exact lookup_cons_entry key (symbol, value) []
  | cons first entries ih =>
      obtain ⟨other, old⟩ := first
      rw [insert_entry]
      by_cases hlt : symbol < other
      · rw [if_pos hlt, lookup_cons_entry]
      · rw [if_neg hlt]
        by_cases heq : symbol = other
        · rw [if_pos heq, lookup_cons_entry, lookup_cons_entry, ← heq]
          by_cases hkey : key = symbol <;> simp [hkey]
        · rw [if_neg heq, lookup_cons_entry, lookup_cons_entry, ih]
          by_cases hkey : key = symbol <;> simp [hkey, heq]

/-- `BTreeMap::new`. -/
def empty : ForexRateMap := ⟨[], List.Pairwise.nil⟩

/-- `BTreeMap::insert`. -/
def insert (self : ForexRateMap) (entry : String × ℕ) : ForexRateMap :=
  ⟨insert_entry entry.1 entry.2 self.entries, pairwise_insert_entry self.ascending⟩

@[simp] theorem get_insert (self : ForexRateMap) (entry : String × ℕ) (key : String) :
    (self.insert entry).get key = if key = entry.1 then some entry.2 else self.get key :=
  lookup_insert_entry entry.1 entry.2 key self.entries

/-- `collect::<ForexRateMap>()`; of two values for one symbol the last one stays. -/
def collect (entries : List (String × ℕ)) : ForexRateMap := entries.foldl insert empty

@[simp] theorem collect_concat (entries : List (String × ℕ)) (entry : String × ℕ) :
    collect (entries ++ [entry]) = (collect entries).insert entry := by
  rw [collect, List.foldl_append]
  rfl

/-- Whatever was collected for a symbol is there. -/
theorem mem_of_get_collect {entries : List (String × ℕ)} {symbol : String} {value : ℕ}
    (h : (collect entries).get symbol = some value) : (symbol, value) ∈ entries := by
  induction entries using List.reverseRecOn with
  | nil => cases h
  | append_singleton entries entry ih =>
      rw [collect_concat, get_insert] at h
      split_ifs at h with hkey
      · apply List.mem_append_right
        rw [hkey, ← Option.some.inj h]
        exact List.mem_singleton_self entry
      · exact List.mem_append_left _ (ih h)

end ForexRateMap

/-! ## Dates

Dates are read and written by the `chrono` crate, in formats of strftime. The formats are those
of the sources; which texts are dates in them is left to the class, and a date that cannot be
read is the epoch. -/

/-- `chrono`, as far as the sources use it. -/
class Chrono where
  /-- `NaiveDateTime::parse_from_str`, of a text and a format, as UNIX time. -/
  parse_from_str : String → String → Option ℤ
  /-- A UNIX time in a format; there is none out of the range of the dates. -/
  format : ℤ → String → Option String
  parse_from_str_lt : ∀ {text format : String} {timestamp : ℤ},
    parse_from_str text format = some timestamp → timestamp.natAbs < 2 ^ 63

section Dates

variable [Chrono]

/-- The UNIX time of a date in a response, cast to `u64`; a date that cannot be read is the
epoch. -/
def extracted_timestamp (date format : String) : ℕ :=
  match Chrono.parse_from_str date format with
  | some timestamp => (timestamp % (2 ^ 64 : ℕ)).toNat
  | none => 0

/-- A day after the epoch is read off a date only if it is the date's. -/
theorem date_of_extracted_timestamp {date format : String} {day : ℕ} (hday : 0 < day)
    (hword : day < 2 ^ 63) (h : extracted_timestamp date format = day) :
    Chrono.parse_from_str date format = some (day : ℤ) := by
  rw [extracted_timestamp] at h
  cases hparse : Chrono.parse_from_str date format with
  | none =>
      rw [hparse] at h
      exact absurd h hday.ne
  | some timestamp =>
      rw [hparse] at h
      have hlt := Chrono.parse_from_str_lt hparse
      simp only [Nat.reducePow] at h hlt hword
      congr 1
      omega

/-- A day in a format. -/
def format_date (timestamp : ℕ) (format : String) : String :=
  (Chrono.format (if timestamp < 2 ^ 63 then timestamp else 0) format).getD ""

end Dates

/-! ## The sources

Every parser has the same three parts: the date of its response, the rate of one item, and the
loop over the items. They are written out one by one, since they differ in what they skip, in
what they refuse as a whole, and in whether rates are per unit or per hundred. -/

/-- A whole number as a double. -/
abbrev f64 [F64] (value : ℕ) : F64.Val := F64.of_u64 value

/-- A parsed double, zero when there is none. -/
def parse_or_default [F64] (text : String) : F64.Val :=
  match F64.parse text with
  | .ok value => value
  | .error _ => f64 0

/-- What `extract_rate` returns: `none` when it panics. -/
abbrev Extracted : Type := Option (Except ExtractError ForexRateMap)

def INVALID_TIMESTAMP : ExtractError := .RateNotFound "Invalid timestamp"
def NO_DATA_FOR_TIMESTAMP : ExtractError := .RateNotFound "Cannot find data for timestamp"

namespace forex

section Sources

variable [F64] [Chrono] [Unicode]

/-! ### Reserve Bank of Australia

Every observation has a date of its own and is dropped unless it is of the day. Rates are quoted
per Australian dollar and are inverted here, so that a value which is not positive, or too large
to be inverted, is dropped as well. -/

structure australia.XmlItem where
  target_currency : String
  value : F64.Val
  frequency : String
  period : String

structure australia.XmlRdfEnvelope where
  items : List australia.XmlItem

/-- The value of an observation, in AUD per unit of its currency. -/
def australia.item_rate (item : australia.XmlItem) : Option (String × ℕ) :=
  if item.target_currency = "XXX" then none
  else if item.frequency ≠ "daily" then none
  else if !F64.is_finite item.value || F64.le item.value (f64 0) then none
  else
    let rate := F64.to_u64 (F64.div (f64 RATE_UNIT) item.value)
    if rate = 0 then none else some (item.target_currency, rate)

def australia.item_timestamp (item : australia.XmlItem) : ℕ :=
  extracted_timestamp (item.period ++ " 00:00:00") "%Y-%m-%d %H:%M:%S"

def australia.extract_rate (data : australia.XmlRdfEnvelope) (timestamp : ℕ) : Extracted :=
  let timestamp := start_of_day timestamp
  let rate_map := ForexRateMap.collect (data.items.filterMap fun item =>
    if timestamp ≠ australia.item_timestamp item then none else australia.item_rate item)
  normalize_to_usd (rate_map.insert ("AUD", RATE_UNIT))

/-! ### Central Bank of Bosnia-Herzegovina

One date for the whole response, and decimal commas. The units of an item are a text, which may
be zero; the division by them is one of doubles and does not panic. -/

structure bosnia_herzegovina.CurrencyExchangeItem where
  alpha_code : String
  units : String
  middle : String

structure bosnia_herzegovina.Response where
  currency_exchange_items : List bosnia_herzegovina.CurrencyExchangeItem
  date : String

/-- `s.replace(',', by)`. -/
def replace_commas (s new : String) : String :=
  String.ofList (s.toList.flatMap fun c => if c = ',' then new.toList else [c])

def bosnia_herzegovina.item_rate (item : bosnia_herzegovina.CurrencyExchangeItem) :
    Option (String × ℕ) :=
  match parse_u64 item.units with
  | none => none
  | some units =>
    match F64.parse (replace_commas item.middle ".") with
    | .error _ => none
    | .ok middle => some (item.alpha_code,
        F64.to_u64 (F64.div (F64.mul middle (f64 RATE_UNIT)) (f64 units)))

def bosnia_herzegovina.extract_rate (response : bosnia_herzegovina.Response) (timestamp : ℕ) :
    Extracted :=
  let timestamp := start_of_day timestamp
  if extracted_timestamp response.date "%Y-%m-%dT%H:%M:%S" ≠ timestamp then
    some (.error INVALID_TIMESTAMP)
  else
    normalize_to_usd (ForexRateMap.collect
      (response.currency_exchange_items.filterMap bosnia_herzegovina.item_rate))

/-! ### Bank of Canada

The symbol of a rate is in the label of its series, which is looked up for every observation. A
single observation of another day refuses the response. -/

structure canada.Observation where
  d : String
  rates : List (String × String)

structure canada.Response where
  /-- The labels of the series. -/
  series_detail : List (String × String)
  observations : List canada.Observation

def canada.value_rate (series_detail : List (String × String)) (entry : String × String) :
    Option (String × ℕ) :=
  match series_detail.lookup entry.1 with
  | none => none
  | some label =>
    let symbol := first_piece label '/'
    match F64.parse entry.2 with
    | .error _ => none
    | .ok value =>
        some (to_uppercase symbol, F64.to_u64 (F64.mul value (f64 RATE_UNIT)))

def canada.observation_timestamp (observation : canada.Observation) : ℕ :=
  extracted_timestamp (observation.d ++ " 00:00:00") "%Y-%m-%d %H:%M:%S"

/-- The loop over the observations. -/
def canada.collect_observations (series_detail : List (String × String)) (timestamp : ℕ) :
    List canada.Observation → ForexRateMap → Except ExtractError ForexRateMap
  | [], values => .ok values
  | observation :: observations, values =>
    if canada.observation_timestamp observation ≠ timestamp then .error INVALID_TIMESTAMP
    else
      canada.collect_observations series_detail timestamp observations
        ((observation.rates.filterMap (canada.value_rate series_detail)).foldl
          ForexRateMap.insert values)

def canada.extract_rate (response : canada.Response) (timestamp : ℕ) : Extracted :=
  let timestamp := start_of_day timestamp
  match canada.collect_observations response.series_detail timestamp response.observations
    ForexRateMap.empty with
  | .error error => some (.error error)
  | .ok values => normalize_to_usd (values.insert ("CAD", RATE_UNIT))

/-! ### European Central Bank

The entries of the envelope come in any order, and only the first cube counts. Rates are per
euro and are inverted before they are scaled. -/

structure europe.XmlEcbCube where
  currency : String
  rate : F64.Val

structure europe.XmlEcbCubeObject where
  time : String
  cubes : List europe.XmlEcbCube

inductive europe.XmlEcbOptions where
  | Subject (subject : String)
  | Sender (name : String)
  | Cube (cube : europe.XmlEcbCubeObject)

structure europe.XmlEcbEnvelope where
  entries : List europe.XmlEcbOptions

def europe.XmlEcbOptions.is_cube : europe.XmlEcbOptions → Bool
  | .Cube _ => true
  | _ => false

def europe.cube_rate (cube : europe.XmlEcbCube) : String × ℕ :=
  (to_uppercase cube.currency,
    F64.to_u64 (F64.mul (F64.div (f64 1) cube.rate) (f64 RATE_UNIT)))

/-- The first cube, or one without rates and without a date. -/
def europe.first_cube (data : europe.XmlEcbEnvelope) : europe.XmlEcbOptions :=
  (data.entries.find? europe.XmlEcbOptions.is_cube).getD (.Cube ⟨"0", []⟩)

/-- `String::from_utf8(bytes).unwrap_or_default()`. -/
def from_utf8_or_default (bytes : Bytes) : String :=
  (String.fromUTF8? ⟨bytes.toArray⟩).getD ""

def europe.extract_rate (bytes : Bytes) (data : europe.XmlEcbEnvelope) (timestamp : ℕ) :
    Extracted :=
  let timestamp := start_of_day timestamp
  match europe.first_cube data with
  | .Cube cube =>
    if extracted_timestamp (cube.time ++ " 00:00:00") "%Y-%m-%d %H:%M:%S" ≠ timestamp then
      some (.error INVALID_TIMESTAMP)
    else
      normalize_to_usd
        ((ForexRateMap.collect (cube.cubes.map europe.cube_rate)).insert ("EUR", RATE_UNIT))
  | _ => some (.error (.XmlDeserialize (from_utf8_or_default bytes)))

/-! ### Central Bank of Georgia

The response is a list, of which only the first day is looked at. A wrong date refuses it, and
so does an empty list of currencies. -/

structure georgia.Currency where
  code : String
  quantity : ℕ
  rate : F64.Val

structure georgia.Day where
  date : String
  currencies : List georgia.Currency

def georgia.currency_rate (currency : georgia.Currency) : String × ℕ :=
  (currency.code,
    F64.to_u64 (F64.mul (F64.div currency.rate (f64 currency.quantity)) (f64 RATE_UNIT)))

def georgia.extract_rate (response : List georgia.Day) (timestamp : ℕ) : Extracted :=
  let timestamp := start_of_day timestamp
  match response.head? with
  | none => some (.error NO_DATA_FOR_TIMESTAMP)
  | some obj =>
    let extracted_timestamp := extracted_timestamp obj.date "%Y-%m-%dT%H:%M:%S%.3fZ"
    if extracted_timestamp ≠ timestamp then
      some (.error (.RateNotFound
        s!"Incorrect timestamp returned: {extracted_timestamp} (requested: {timestamp})"))
    else
      let values := ForexRateMap.collect (obj.currencies.map georgia.currency_rate)
      if values.entries.isEmpty then some (.error NO_DATA_FOR_TIMESTAMP)
      else normalize_to_usd values

/-! ### Bank of Italy

Every rate has its date, and the convention code tells which way round it is quoted. What is of
another day is dropped, and the response refused only if nothing is left. -/

structure italy.Rate where
  iso_code : String
  avg_rate : String
  exchange_convention_code : String
  reference_date : String

structure italy.Response where
  rates : List italy.Rate

def italy.item_rate (rate : italy.Rate) : Option (String × ℕ) :=
  match F64.parse rate.avg_rate with
  | .error _ => none
  | .ok avg_rate =>
    if F64.le avg_rate (f64 0) then none
    else
      let calculated_rate :=
        if rate.exchange_convention_code = "C" then F64.div (f64 1) avg_rate else avg_rate
      some (rate.iso_code, F64.to_u64 (F64.mul calculated_rate (f64 RATE_UNIT)))

def italy.item_timestamp (rate : italy.Rate) : ℕ :=
  extracted_timestamp (rate.reference_date ++ " 00:00:00") "%Y-%m-%d %H:%M:%S"

def italy.extract_rate (response : italy.Response) (timestamp : ℕ) : Extracted :=
  let timestamp := start_of_day timestamp
  let values := ForexRateMap.collect (response.rates.filterMap fun rate =>
    if italy.item_timestamp rate = timestamp then italy.item_rate rate else none)
  if values.entries.isEmpty then some (.error NO_DATA_FOR_TIMESTAMP)
  else normalize_to_usd (values.insert ("EUR", RATE_UNIT))

/-! ### Central Bank of Myanmar

The date is a time stamp already. Rates have commas between thousands, and the one of the yen is
for a hundred. -/

structure myanmar.Response where
  timestamp : ℕ
  rates : List (String × String)

def myanmar.item_rate (entry : String × String) : Option (String × ℕ) :=
  match F64.parse (replace_commas entry.2 "") with
  | .error _ => none
  | .ok parsed =>
    let rate := F64.to_u64 (F64.mul parsed (f64 RATE_UNIT))
    some (to_uppercase entry.1, if entry.1 = "JPY" then rate / 100 else rate)

def myanmar.extract_rate (response : myanmar.Response) (timestamp : ℕ) : Extracted :=
  let timestamp := start_of_day timestamp
  if response.timestamp ≠ timestamp then some (.error INVALID_TIMESTAMP)
  else normalize_to_usd (ForexRateMap.collect (response.rates.filterMap myanmar.item_rate))

/-! ### Central Bank of Nepal

The day is searched for in the payload. A rate is the mean of the buying and the selling price,
divided by its units as whole numbers; with zero units the division panics. -/

structure nepal.Rate where
  iso3 : String
  unit : ℕ
  buy : String
  sell : String

structure nepal.OneDay where
  date : String
  rates : List nepal.Rate

structure nepal.Response where
  status_code : ℕ
  payload : List nepal.OneDay

def nepal.day_timestamp (day : nepal.OneDay) : ℕ :=
  extracted_timestamp (day.date ++ " 00:00:00") "%Y-%m-%d %H:%M:%S"

/-- The mean of the two prices for one unit. -/
def nepal.item_rate (rate : nepal.Rate) : Option (String × ℕ) :=
  match F64.parse rate.buy, F64.parse rate.sell with
  | .ok buy, .ok sell =>
    let value :=
      F64.to_u64 (F64.mul (F64.div (F64.add buy sell) (f64 2)) (f64 RATE_UNIT))
    some (rate.iso3, value / rate.unit)
  | _, _ => none

/-- The division by the units panics on zero. -/
def nepal.divides_by_zero (rate : nepal.Rate) : Bool :=
  (nepal.item_rate rate).isSome && rate.unit == 0

def nepal.extract_rate (response : nepal.Response) (timestamp : ℕ) : Extracted :=
  if response.status_code ≠ 200 then
    let code := response.status_code
    some (.error (.RateNotFound s!"Cannot find data for timestamp (status code: {code})"))
  else
    let timestamp := start_of_day timestamp
    match response.payload.find? fun day => nepal.day_timestamp day = timestamp with
    | none => some (.error NO_DATA_FOR_TIMESTAMP)
    | some day =>
      if day.rates.any nepal.divides_by_zero then none
      else
        let values := ForexRateMap.collect (day.rates.filterMap nepal.item_rate)
        if values.entries.isEmpty then some (.error NO_DATA_FOR_TIMESTAMP)
        else normalize_to_usd values

/-! ### Swiss Federal Office for Customs

The units of an item stand before its currency in one text. Whatever cannot be read is zero, and
an item with a zero is skipped. -/

structure switzerland.XmlItem where
  code : String
  waehrung : String
  kurs : String

structure switzerland.XmlRdfEnvelope where
  datum : String
  items : List switzerland.XmlItem

def switzerland.item_rate (item : switzerland.XmlItem) : Option (String × ℕ) :=
  let units := parse_or_default (first_piece item.waehrung ' ')
  if F64.le units (f64 0) then none
  else
    let value := parse_or_default item.kurs
    if F64.le value (f64 0) then none
    else some (to_uppercase item.code,
      F64.to_u64 (F64.div (F64.mul (f64 RATE_UNIT) value) units))

def switzerland.extract_rate (data : switzerland.XmlRdfEnvelope) (timestamp : ℕ) : Extracted :=
  let timestamp := start_of_day timestamp
  if extracted_timestamp (data.datum ++ " 00:00:00") "%d.%m.%Y %H:%M:%S" ≠ timestamp then
    some (.error NO_DATA_FOR_TIMESTAMP)
  else
    normalize_to_usd ((ForexRateMap.collect (data.items.filterMap switzerland.item_rate)).insert
      ("CHF", RATE_UNIT))

/-! ### Central Bank of Turkey

The units are a number of the response, and the division by them is one of doubles. Tags may be
empty, which counts as a zero; an item is skipped when one of its prices is zero. -/

/-- An item; its two prices are the texts of their tags. -/
structure turkey.XmlItem where
  forex_buying : String
  forex_selling : String
  unit : F64.Val
  currency_code : String

structure turkey.XmlRdfEnvelope where
  date : String
  items : List turkey.XmlItem

/-- An empty tag is a zero. -/
def turkey.val_deserializer (s : String) : String := if s = "" then "0.0" else s

def turkey.item_rate (item : turkey.XmlItem) : Option (String × ℕ) :=
  let buying := parse_or_default (turkey.val_deserializer item.forex_buying)
  let selling := parse_or_default (turkey.val_deserializer item.forex_selling)
  if F64.eq buying (f64 0) || F64.eq selling (f64 0) then none
  else
    let rate := F64.div (F64.add buying selling) (f64 2)
    some (to_uppercase item.currency_code,
      F64.to_u64 (F64.div (F64.mul (f64 RATE_UNIT) rate) item.unit))

def turkey.extract_rate (data : turkey.XmlRdfEnvelope) (timestamp : ℕ) : Extracted :=
  let timestamp := start_of_day timestamp
  if extracted_timestamp (data.date ++ " 00:00:00") "%d.%m.%Y %H:%M:%S" ≠ timestamp then
    some (.error NO_DATA_FOR_TIMESTAMP)
  else
    let rate_map := ForexRateMap.collect (data.items.filterMap turkey.item_rate)
    if rate_map.entries.isEmpty then some (.error (.RateNotFound "No rates found"))
    else normalize_to_usd (rate_map.insert ("TRY", RATE_UNIT))

/-! ### Central Bank of Uzbekistan

A detail of another day refuses the response, as with Canada. There is no test of the rate
itself, so that a quoted zero is taken over, also that of USD. -/

structure uzbekistan.Detail where
  currency : String
  rate : String
  date : String

def uzbekistan.detail_timestamp (detail : uzbekistan.Detail) : ℕ :=
  extracted_timestamp (detail.date ++ " 00:00:00") "%d.%m.%Y %H:%M:%S"

def uzbekistan.detail_rate (detail : uzbekistan.Detail) : Option (String × ℕ) :=
  match F64.parse detail.rate with
  | .ok rate => some (detail.currency, F64.to_u64 (F64.mul rate (f64 RATE_UNIT)))
  | .error _ => none

/-- The loop over the details. -/
def uzbekistan.collect_details (timestamp : ℕ) :
    List uzbekistan.Detail → ForexRateMap → Except ExtractError ForexRateMap
  | [], values => .ok values
  | detail :: details, values =>
    if uzbekistan.detail_timestamp detail ≠ timestamp then .error INVALID_TIMESTAMP
    else
      uzbekistan.collect_details timestamp details
        (match uzbekistan.detail_rate detail with
        | some entry => values.insert entry
        | none => values)

def uzbekistan.extract_rate (response : List uzbekistan.Detail) (timestamp : ℕ) : Extracted :=
  let timestamp := start_of_day timestamp
  match uzbekistan.collect_details timestamp response ForexRateMap.empty with
  | .error error => some (.error error)
  | .ok values => normalize_to_usd values

end Sources

end forex

/-! ## Asking a source

The URL of a source for a day, and what else goes into the request. Bosnia and Georgia are asked
for the day after the one their rates are collected for; Turkey fills in a path of its own
instead of the placeholder. -/

/-- `DATE`: replaced by the day that is asked for. -/
def DATE : String := "DATE"

def ONE_KIB : ℕ := 1_024

/-- `http::DEFAULT_USER_AGENT`. -/
def DEFAULT_USER_AGENT : String := "Exchange Rate Canister"

namespace Forex

section Url

variable [Chrono]

def get_base_url : Forex → String
  | CentralBankOfMyanmar => "https://forex.cbm.gov.mm/api/history/DATE"
  | CentralBankOfBosniaHerzegovina =>
      "https://www.cbbh.ba/CurrencyExchange/GetJson?date=DATE%2000%3A00%3A00"
  | EuropeanCentralBank => "https://www.ecb.europa.eu/stats/eurofxref/eurofxref-daily.xml"
  | BankOfCanada => "https://www.bankofcanada.ca/valet/observations/group/FX_RATES_DAILY/json?start_date=DATE&end_date=DATE"
  | CentralBankOfUzbekistan => "https://cbu.uz/ru/arkhiv-kursov-valyut/json/all/DATE/"
  | ReserveBankOfAustralia => "https://www.rba.gov.au/rss/rss-cb-exchange-rates.xml"
  | CentralBankOfNepal =>
      "https://www.nrb.org.np/api/forex/v1/rates?from=DATE&to=DATE&per_page=100&page=1"
  | CentralBankOfGeorgia =>
      "https://nbg.gov.ge/gw/api/ct/monetarypolicy/currencies/en/json/?date=DATE"
  | BankOfItaly => "https://tassidicambio.bancaditalia.it/terzevalute-wf-web/rest/v1.0/dailyRates?referenceDate=DATE&currencyIsoCode=EUR"
  | SwissFederalOfficeForCustoms =>
      "https://www.backend-rates.bazg.admin.ch/api/xmldaily?d=DATE&locale=en"
  | CentralBankOfTurkey => "https://www.tcmb.gov.tr/kurlar/YM/DMY.xml"

def format_timestamp (self : Forex) (timestamp : ℕ) : String :=
  match self with
  | CentralBankOfMyanmar => format_date timestamp "%d-%m-%Y"
  | CentralBankOfBosniaHerzegovina => format_date timestamp "%m-%d-%Y"
  | EuropeanCentralBank => ""
  | BankOfCanada | CentralBankOfUzbekistan | CentralBankOfNepal | CentralBankOfGeorgia
  | BankOfItaly => format_date timestamp "%Y-%m-%d"
  | SwissFederalOfficeForCustoms => format_date timestamp "%Y%m%d"
  | ReserveBankOfAustralia | CentralBankOfTurkey => toString timestamp

/-- `CentralBankOfTurkey::get_url`. -/
def turkey_url (timestamp : ℕ) : String :=
  let date : ℤ := (timestamp : ℤ).bmod (2 ^ 64)
  let year_month := (Chrono.format date "%Y%m").getD ""
  let day_month_year := (Chrono.format date "%d%m%Y").getD ""
  str_replace (str_replace CentralBankOfTurkey.get_base_url "YM" year_month) "DMY" day_month_year

def get_url (self : Forex) (timestamp : ℕ) : String :=
  match self with
  | CentralBankOfTurkey => turkey_url timestamp
  | _ =>
    let timestamp := start_of_day timestamp
    str_replace self.get_base_url DATE (self.format_timestamp timestamp)

end Url

/-- The day a source is asked for in order to get the rates of `timestamp`. -/
def offset_timestamp_for_query [Features] (self : Forex) (timestamp : ℕ) : ℕ :=
  if Features.disable_forex_timezone_offset then timestamp
  else
    match self with
    | CentralBankOfBosniaHerzegovina | CentralBankOfGeorgia =>
        wrapping_mul 64 (timestamp / ONE_DAY_SECONDS + 1) ONE_DAY_SECONDS
    | _ => timestamp

def get_additional_http_request_headers : Forex → List (String × String)
  | BankOfItaly => [("Accept", "application/json")]
  | _ => []

def get_user_agent : Forex → String
  | ReserveBankOfAustralia => "curl/8.0"
  | _ => DEFAULT_USER_AGENT

def max_response_bytes : Forex → ℕ
  | CentralBankOfMyanmar | EuropeanCentralBank => ONE_KIB * 3
  | CentralBankOfBosniaHerzegovina | BankOfCanada | CentralBankOfUzbekistan => ONE_KIB * 30
  | CentralBankOfNepal | CentralBankOfGeorgia | BankOfItaly => ONE_KIB * 100
  | ReserveBankOfAustralia | CentralBankOfTurkey => 500 * ONE_KIB
  | SwissFederalOfficeForCustoms => 1000 * ONE_KIB

/-- `Forex::get_id`. -/
def get_id (self : Forex) : ℕ := FOREX_SOURCES.idxOf self

/-- The source at its own position is itself. -/
theorem getElem?_get_id (self : Forex) : FOREX_SOURCES[self.get_id]? = some self := by
  cases self <;> rfl

end Forex

/-! ## From the bytes of a response

Deserializing is left to the classes, one value for a body or one error. What a source makes of
the value is the function above for this source, and what it makes of the error depends on its
format only. -/

/-- The type a response of a source is deserialized into. -/
def Forex.Response [F64] : Forex → Type
  | .CentralBankOfMyanmar => forex.myanmar.Response
  | .CentralBankOfBosniaHerzegovina => forex.bosnia_herzegovina.Response
  | .EuropeanCentralBank => forex.europe.XmlEcbEnvelope
  | .BankOfCanada => forex.canada.Response
  | .CentralBankOfUzbekistan => List forex.uzbekistan.Detail
  | .ReserveBankOfAustralia => forex.australia.XmlRdfEnvelope
  | .CentralBankOfNepal => forex.nepal.Response
  | .CentralBankOfGeorgia => List forex.georgia.Day
  | .BankOfItaly => forex.italy.Response
  | .SwissFederalOfficeForCustoms => forex.switzerland.XmlRdfEnvelope
  | .CentralBankOfTurkey => forex.turkey.XmlRdfEnvelope

/-- `serde_json` and `serde_xml_rs`, for the responses of the sources: the value of a body, or
the text of the error. -/
class ForexSerde [F64] where
  from_slice : (forex : Forex) → Bytes → Except String forex.Response

namespace Forex

section Extract

variable [F64] [Chrono] [Unicode]

/-- What a source makes of a deserialized response. -/
def extract (bytes : Bytes) : (self : Forex) → self.Response → ℕ → Extracted
  | CentralBankOfMyanmar => forex.myanmar.extract_rate
  | CentralBankOfBosniaHerzegovina => forex.bosnia_herzegovina.extract_rate
  | EuropeanCentralBank => forex.europe.extract_rate bytes
  | BankOfCanada => forex.canada.extract_rate
  | CentralBankOfUzbekistan => forex.uzbekistan.extract_rate
  | ReserveBankOfAustralia => forex.australia.extract_rate
  | CentralBankOfNepal => forex.nepal.extract_rate
  | CentralBankOfGeorgia => forex.georgia.extract_rate
  | BankOfItaly => forex.italy.extract_rate
  | SwissFederalOfficeForCustoms => forex.switzerland.extract_rate
  | CentralBankOfTurkey => forex.turkey.extract_rate

/-- The error on a body that cannot be deserialized. -/
def deserialize_error (self : Forex) (bytes : Bytes) (err : String) : ExtractError :=
  match self with
  | EuropeanCentralBank | ReserveBankOfAustralia | SwissFederalOfficeForCustoms
  | CentralBankOfTurkey => .XmlDeserialize err
  | _ => .json_deserialize bytes err

/-- `Forex::extract_rate`. -/
def extract_rate [ForexSerde] (self : Forex) (bytes : Bytes) (timestamp : ℕ) : Extracted :=
  match ForexSerde.from_slice self bytes with
  | .error err => some (.error (self.deserialize_error bytes err))
  | .ok response => self.extract bytes response timestamp

end Extract

end Forex

end Xrc
