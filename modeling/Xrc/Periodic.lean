/-
`periodic.rs`: the scheduled update of the forex store, as the state machine it is
between two messages. A heartbeat either does nothing or calls the sources that are
still missing for yesterday, in their time zones; their answers go through the collector
into the store. An upgrade keeps the store and forgets everything else.

`answered` is a ghost: every answer of a source, with the lifetime of the collector it
arrived in. No transition reads it.
-/
import Xrc.Collector

set_option autoImplicit false

namespace Xrc

open Machine

/-- The weekday computation of the calendar library. -/
class Calendar where
  /-- Whether a UNIX timestamp falls on a Saturday or a Sunday. -/
  is_weekend : ℕ → Bool
  /-- The epoch was a Thursday. -/
  is_weekend_eq : ∀ timestamp < 2 ^ 42,
    is_weekend timestamp = decide (5 ≤ (timestamp / ONE_DAY_SECONDS + 3) % 7)

/-- The proleptic calendar. -/
@[reducible] def weekdays : Calendar where
  is_weekend timestamp := decide (5 ≤ (timestamp / ONE_DAY_SECONDS + 3) % 7)
  is_weekend_eq _ _ := rfl

namespace periodic

def SIX_HOURS : ℕ := 6 * ONE_HOUR_SECONDS

/-! ## The transitions

Between two messages there is either no update under way or one that waits for its sources,
which is the field `updating`. A heartbeat that finds one leaves it alone. The store survives an
upgrade, the collector and the update under way do not. -/

/-- One answer of a source. -/
structure SourceAnswer where
  /-- The collector it went to, counted from the first one. -/
  lifetime : ℕ
  source : String
  timestamp : ℕ
  rates : ForexRateMap

/-- The state of the forex update between two messages. The last two fields are a ghost: the
answers that the collector was given, each with the lifetime it was given in, as an upgrade begins
a new one. -/
structure ForexState where
  forex_store : ForexRateStore
  collector : ForexRatesCollector
  next_run_scheduled_at_timestamp : ℕ
  /-- The start of the update under way, if any, with the sources it has called and the
  days it has called them for. -/
  updating : Option (ℕ × List (Forex × ℕ))
  lifetime : ℕ
  answered : List SourceAnswer

namespace ForexState

/-- An empty store and a fresh collector. -/
def new : ForexState := ⟨ForexRateStore.new, ForexRatesCollector.new, 0, none, 0, []⟩

end ForexState

def start_of_day_timestamp (timestamp : ℕ) : ℕ := timestamp - timestamp % ONE_DAY_SECONDS

def get_next_run_timestamp (timestamp : ℕ) : ℕ :=
  wrapping_add 64 (timestamp - timestamp % SIX_HOURS) SIX_HOURS

section Transitions

variable [Features] [Calendar]

inductive ForexStatusError where
  | IpV4NotSupported
  | Weekend
  | AlreadyCollected
  deriving DecidableEq, Repr

/-- `check_forex_status`. -/
def check_forex_status (collector : ForexRatesCollector) (forex : Forex) (timestamp : ℕ) :
    Except ForexStatusError Unit :=
  if !forex.is_available then .error .IpV4NotSupported
  else if !Features.disable_forex_weekend_check && Calendar.is_weekend timestamp then
    .error .Weekend
  else
    match collector.get_sources timestamp with
    | some exclude =>
      if forex.to_string ∈ exclude then .error .AlreadyCollected else .ok ()
    | none => .ok ()

/-- The day a source is asked for: yesterday, in its time zone. -/
def key_timestamp (forex : Forex) (timestamp : ℕ) : ℕ :=
  start_of_day (wrapping_sub 64 (forex.offset_timestamp_to_timezone timestamp) ONE_DAY_SECONDS)

/-- `get_forexes_with_timestamps_and_context`. -/
def get_forexes_with_timestamps_and_context (collector : ForexRatesCollector)
    (timestamp : ℕ) : List (Forex × ℕ) :=
  FOREX_SOURCES.filterMap fun forex =>
    match check_forex_status collector forex (key_timestamp forex timestamp) with
    | .ok () => some (forex, key_timestamp forex timestamp)
    | .error _ => none

/-- The part of `update_forex_store` before the calls. -/
def start_update (s : ForexState) (timestamp : ℕ) : ForexState :=
  if 0 < s.next_run_scheduled_at_timestamp ∧ timestamp < s.next_run_scheduled_at_timestamp then s
  else if s.updating.isSome then s
  else
    { s with
      updating := some (timestamp,
        get_forexes_with_timestamps_and_context s.collector (start_of_day_timestamp timestamp)) }

/-- The calls that succeeded: a source that fails or answers nothing contributes
nothing. -/
def forex_rates (called : List (Forex × ℕ)) (answer : Forex → Option ForexRateMap) :
    List (String × ℕ × ForexRateMap) :=
  called.filterMap fun (forex, timestamp) =>
    match answer forex with
    | some map => if map.entries.isEmpty then none else some (forex.to_string, timestamp, map)
    | none => none

/-- One round of the first loop over the answers: the collector, and the days to store. -/
def collect_step (acc : ForexRatesCollector × List ℕ)
    (rates : String × ℕ × ForexRateMap) : ForexRatesCollector × List ℕ :=
  let updated := acc.1.update rates.1 rates.2.1 rates.2.2
  (updated.1, if updated.2 then acc.2 ++ [rates.2.1] else acc.2)

/-- One round of the second loop: store what the collector has for a day. -/
def store_step (collector : ForexRatesCollector) (store : ForexRateStore) (timestamp : ℕ) :
    ForexRateStore :=
  match collector.get_rates_map timestamp with
  | some forex_multi_rate_map =>
    store.put timestamp (Function.update forex_multi_rate_map USD none)
  | none => store

/-- The part of `update_forex_store` after the calls. The days are visited in the order
of their first answer; a different order of the hash set stores the same. -/
def finish_update (s : ForexState) (answer : Forex → Option ForexRateMap) : ForexState :=
  match s.updating with
  | none => s
  | some (timestamp, called) =>
    let answers := forex_rates called answer
    let collected := answers.foldl collect_step (s.collector, [])
    { forex_store := collected.2.dedup.foldl (store_step collected.1) s.forex_store
      collector := collected.1
      next_run_scheduled_at_timestamp := get_next_run_timestamp timestamp
      updating := none
      lifetime := s.lifetime
      answered := s.answered ++ answers.map fun a => ⟨s.lifetime, a.1, a.2.1, a.2.2⟩ }

/-- An upgrade: only the store is kept in stable memory. -/
def upgrade (s : ForexState) : ForexState :=
  { forex_store := s.forex_store
    collector := ForexRatesCollector.new
    next_run_scheduled_at_timestamp := 0
    updating := none
    lifetime := s.lifetime + 1
    answered := s.answered }

/-- What can happen to the forex update. -/
inductive ForexEvent where
  | heartbeat (timestamp : ℕ)
  | answers (answer : Forex → Option ForexRateMap)
  | upgraded

/-- One event. -/
def step (s : ForexState) : ForexEvent → ForexState
  | .heartbeat timestamp => start_update s timestamp
  | .answers answer => finish_update s answer
  | .upgraded => upgrade s

/-- A whole run. -/
def run (s : ForexState) (events : List ForexEvent) : ForexState := events.foldl step s

end Transitions

end periodic

end Xrc
