/-
What the labelled metrics say about a history of observations: calls to exchanges, rounds of
the forex sources, rates of stablecoins and refreshes of listings, in any order.

Each observation is a few writes to the registry (`observe_eq_writes`). The counter of an
exchange, a kind of call and an outcome is the number of such results
(`exchange_fetches_counted`), and the time of the last success that of the last rate that
was not zero (`exchange_last_success`).
-/
import Xrc.Labels

set_option autoImplicit false

namespace Xrc

open Machine

/-- What the canister records. -/
inductive Observation where
  /-- `call_exchange`. -/
  | exchange (exchange : String) (kind : ExchangeCallKind) (result : Except CallExchangeError ℕ)
      (now_secs : ℕ)
  /-- The answers of the forex sources. -/
  | forex (now_secs : ℕ) (forex_rates : List (String × ℕ × ForexRateMap))
      (errors : List (String × CallForexError))
  /-- The end of `update_forex_store`. -/
  | forex_run (timestamp : ℕ)
  /-- The rates of a stablecoin. -/
  | stablecoin (symbol : String) (rates : List ℕ)
  /-- A fetched listing that is offered to the store. -/
  | listing (refresh : ListingRefresh) (store : ListingStore)

namespace LabeledMetrics

variable [Unicode]

/-- One observation. -/
def observe (self : LabeledMetrics) : Observation → LabeledMetrics
  | .exchange exchange kind result now_secs =>
    record_exchange_outcome exchange kind result now_secs self
  | .forex now_secs forex_rates errors =>
    record_per_forex_metrics now_secs forex_rates errors self
  | .forex_run timestamp => set_labeled_gauge .PeriodicForexRunLastSeconds [] timestamp self
  | .stablecoin symbol rates => record_stablecoin_symbol_rates_received symbol rates self
  | .listing refresh store => record_listing_refresh refresh store self

/-- A history of observations, the oldest one first. -/
def observed (self : LabeledMetrics) (history : List Observation) : LabeledMetrics :=
  history.foldl observe self

end LabeledMetrics

/-! ## Observations as writes

Each function that records is shown to be a list of writes, which no longer depends on the
registry it is applied to. From here on a history of observations is a history of writes of
`Registry.lean`. -/

/-- The series of the results of calls to an exchange. -/
def fetch_key (exchange : String) (kind : ExchangeCallKind) (outcome : Outcome) : MetricKey :=
  (.ExchangeFetchTotal,
    [(.Exchange, exchange), (.Kind, kind.into), (.Outcome, outcome.into)])

/-- The series of the last success of an exchange. -/
def last_success_key (exchange : String) (kind : ExchangeCallKind) : MetricKey :=
  (.ExchangeLastSuccessSeconds, [(.Exchange, exchange), (.Kind, kind.into)])

/-- The series of the results of calls to a forex source. -/
def forex_fetch_key (forex : String) (outcome : Outcome) : MetricKey :=
  (.ForexFetchTotal, [(.Forex, forex), (.Outcome, outcome.into)])

/-- The series of the last success of a forex source. -/
def forex_last_success_key (forex : String) : MetricKey :=
  (.ForexLastSuccessSeconds, [(.Forex, forex)])

def forex_run_key : MetricKey := (.PeriodicForexRunLastSeconds, [])

/-- The series of an exchange in one of the metrics of the listings. -/
def listing_key (name : MetricName) (exchange : String) : MetricKey :=
  (name, [(.Exchange, exchange)])

/-- The series of the refreshes of an exchange that were not applied. -/
def rejected_key (exchange reason : String) : MetricKey :=
  (.ExchangeListingRejectedTotal, [(.Exchange, exchange), (.Reason, reason)])

namespace Observation

open Registry.Write

/-- The writes of a stored listing. -/
def listing_writes (exchange : String) (listing : ExchangeListing) :
    List (Registry.Write MetricKey) :=
  [set (listing_key .ExchangeListedUsdtPairs exchange) listing.bases.card,
   set (listing_key .ExchangeListingTotalMarkets exchange) listing.total_markets,
   set (listing_key .ExchangeListingLastSuccessSeconds exchange) listing.last_success_secs]

/-- The writes of an observation. -/
def writes [Unicode] : Observation → List (Registry.Write MetricKey)
  | .exchange name kind result now_secs =>
    add (fetch_key name kind (exchange_outcome result)) 1
      :: if exchange_outcome result = .Success then [set (last_success_key name kind) now_secs]
        else []
  | .forex now_secs forex_rates errors =>
    (forex_rates.flatMap fun rates =>
      [add (forex_fetch_key rates.1 .Success) 1, set (forex_last_success_key rates.1) now_secs])
    ++ errors.map fun error => add (forex_fetch_key error.1 (forex_outcome error.2)) 1
  | .forex_run timestamp => [set forex_run_key timestamp]
  | .stablecoin symbol rates =>
    [add (.StablecoinSymbolRatesReceived, [(.Symbol, symbol)])
      (rates.countP fun rate => 0 < rate)]
  | .listing refresh store =>
    match (refresh.offer store).1 with
    | some .Accepted =>
      match (refresh.offer store).2.by_exchange refresh.exchange with
      | some stored => listing_writes refresh.exchange stored
      | none => []
    | some _ => [add (rejected_key refresh.exchange "guard") 1]
    | none => [add (rejected_key refresh.exchange "fetch") 1]

end Observation

/-- The writes that seed the gauges of an exchange. -/
def seed_writes (now_secs : ℕ) (exchange : Exchange) : List (Registry.Write MetricKey) :=
  .set (last_success_key exchange.name .Crypto) now_secs
    :: (if exchange.supported_stablecoin_pairs = [] then []
      else [.set (last_success_key exchange.name .Stablecoin) now_secs])
    ++ [.set (listing_key .ExchangeListingLastSuccessSeconds exchange.name) now_secs]

/-- The writes of `init_at`. -/
def init_writes (now_secs : ℕ) : List (Registry.Write MetricKey) :=
  (FOREX_SOURCES.map fun forex => .set (forex_last_success_key forex.to_string) now_secs)
    ++ .set forex_run_key now_secs :: EXCHANGES.flatMap (seed_writes now_secs)

section Writes

/-- A loop whose rounds are writes is the writes of its rounds. -/
theorem foldl_eq_writes {α : Type} {f : LabeledMetrics → α → LabeledMetrics}
    {w : α → List (Registry.Write MetricKey)}
    (h : ∀ metrics a, f metrics a = metrics.writes (wordMax 64) (w a)) (l : List α) :
    ∀ metrics, l.foldl f metrics = metrics.writes (wordMax 64) (l.flatMap w) := by
  induction l with
  | nil => exact fun _ => rfl
  | cons a l ih =>
      intro metrics
      rw [List.foldl_cons, ih, h, List.flatMap_cons, Registry.writes_append]

theorem record_per_forex_metrics_eq_writes [Unicode] (now_secs : ℕ)
    (forex_rates : List (String × ℕ × ForexRateMap)) (errors : List (String × CallForexError))
    (self : LabeledMetrics) :
    record_per_forex_metrics now_secs forex_rates errors self
      = self.writes (wordMax 64) (Observation.forex now_secs forex_rates errors).writes := by
  rw [record_per_forex_metrics, Observation.writes, Registry.writes_append, List.map_eq_flatMap]
  have hsuccess := foldl_eq_writes (f := fun metrics rates =>
      record_forex_success now_secs metrics rates.1)
    (w := fun rates : String × ℕ × ForexRateMap =>
      [.add (forex_fetch_key rates.1 .Success) 1, .set (forex_last_success_key rates.1) now_secs])
    (fun _ _ => rfl) forex_rates self
  rw [hsuccess]
  exact foldl_eq_writes (w := fun error : String × CallForexError =>
    [.add (forex_fetch_key error.1 (forex_outcome error.2)) 1]) (fun _ _ => rfl) errors _

/-- **Every observation is a few writes.** What an observation is about decides which of them are
made, and the values; a metric by itself only sees that something was added or set. The registry
can so be specified without the events. -/
theorem observe_eq_writes [Unicode] (self : LabeledMetrics) (o : Observation) :
    self.observe o = self.writes (wordMax 64) o.writes := by
  cases o with
  | exchange exchange kind result now_secs =>
      rw [LabeledMetrics.observe, record_exchange_outcome, Observation.writes]
      split
      · rfl
      · rfl
  | forex now_secs forex_rates errors =>
      exact record_per_forex_metrics_eq_writes now_secs forex_rates errors self
  | forex_run timestamp => rfl
  | stablecoin symbol rates => rfl
  | listing refresh store =>
      rw [LabeledMetrics.observe, record_listing_refresh, Observation.writes]
      -- a listing is recorded by what offering it came to
      cases (refresh.offer store).1 with
      | none => rfl
      | some outcome =>
          cases outcome with
          | Accepted =>
              dsimp only
              rw [record_accepted_listing_metrics]
              cases (refresh.offer store).2.by_exchange refresh.exchange with
              | none => rfl
              | some listing => rfl
          | RejectedTooFewMarkets total => rfl
          | RejectedTotalDrop total previous => rfl

theorem observed_eq_writes [Unicode] (self : LabeledMetrics) (history : List Observation) :
    self.observed history
      = self.writes (wordMax 64) (history.flatMap Observation.writes) :=
  foldl_eq_writes observe_eq_writes history self

theorem seed_exchange_eq_writes (now_secs : ℕ) (self : LabeledMetrics) (exchange : Exchange) :
    seed_exchange now_secs self exchange
      = self.writes (wordMax 64) (seed_writes now_secs exchange) := by
  cases exchange <;> rfl

theorem init_at_eq_writes (now_secs : ℕ) (self : LabeledMetrics) :
    init_at now_secs self = self.writes (wordMax 64) (init_writes now_secs) := by
  have hforex : FOREX_SOURCES.foldl (fun metrics forex =>
        set_labeled_gauge .ForexLastSuccessSeconds [(.Forex, forex.to_string)] now_secs metrics)
        self
      = self.writes (wordMax 64) (FOREX_SOURCES.map fun forex =>
          .set (forex_last_success_key forex.to_string) now_secs) := by
    rw [List.map_eq_flatMap]
    exact foldl_eq_writes (w := fun forex : Forex =>
      [.set (forex_last_success_key forex.to_string) now_secs]) (fun _ _ => rfl) _ _
  rw [init_at, foldl_eq_writes (seed_exchange_eq_writes now_secs), init_writes,
    Registry.writes_append, hforex, Registry.writes_cons]
  rfl

/-- The metrics after a history, from the start. -/
theorem new_observed_eq_writes [Unicode] (start : ℕ) (history : List Observation) :
    (LabeledMetrics.new start).observed history
      = (Registry.empty : LabeledMetrics).writes (wordMax 64)
          (init_writes start ++ history.flatMap Observation.writes) := by
  rw [observed_eq_writes, LabeledMetrics.new, init_at_eq_writes, Registry.writes_append]

end Writes

/-! ## Calls to exchanges

The counters and gauges of an exchange, expressed by the results of the calls. Distinct series
have distinct keys, since exchanges, kinds and outcomes have distinct texts; so an observation
of another kind does not write to them. -/

section Exchanges

/-- The results of a call to an exchange that an outcome is there for. A rate of zero is none
that is of use, and no call to an exchange ends in an empty map. -/
def Outcome.stands_for : Outcome → Except CallExchangeError ℕ → Bool
  | .Success, .ok rate => decide (rate ≠ 0)
  | .ExtractedZero, .ok rate => decide (rate = 0)
  | .HttpError, .error (.Http _ _) => true
  | .CandidError, .error (.Candid _ _) => true
  | .NoRatesFound, .error .NoRatesFound => true
  | .NoData, .error (.NoData _) => true
  | _, _ => false

/-- Whether an observation is a call of a kind to an exchange that ended in an outcome. -/
def Observation.is_fetch (name : String) (kind : ExchangeCallKind) (outcome : Outcome) :
    Observation → Bool
  | .exchange name' kind' result _ =>
    decide (name' = name ∧ kind' = kind) && outcome.stands_for result
  | _ => false

/-- The time of a call of a kind to an exchange that gave a rate other than zero. -/
def Observation.success_time (name : String) (kind : ExchangeCallKind) : Observation → Option ℕ
  | .exchange name' kind' (.ok rate) now_secs =>
    if name' = name ∧ kind' = kind ∧ rate ≠ 0 then some now_secs else none
  | _ => none

/-- A result is recorded as the outcome that is there for it. -/
theorem exchange_outcome_eq_iff (result : Except CallExchangeError ℕ) (outcome : Outcome) :
    exchange_outcome result = outcome ↔ outcome.stands_for result = true := by
  cases result with
  | ok rate =>
      by_cases hzero : rate = 0
      · cases outcome <;> simp [exchange_outcome, Outcome.stands_for, hzero]
      · cases outcome <;> simp [exchange_outcome, Outcome.stands_for, hzero]
  | error error =>
      cases error <;> cases outcome <;> simp [exchange_outcome, Outcome.stands_for]

theorem fetch_key_eq_iff {name name' : String} {kind kind' : ExchangeCallKind}
    {outcome outcome' : Outcome} :
    fetch_key name kind outcome = fetch_key name' kind' outcome'
      ↔ name = name' ∧ kind = kind' ∧ outcome = outcome' := by
  simp [fetch_key, ExchangeCallKind.into_injective.eq_iff, Outcome.into_injective.eq_iff]

theorem last_success_key_eq_iff {name name' : String} {kind kind' : ExchangeCallKind} :
    last_success_key name kind = last_success_key name' kind' ↔ name = name' ∧ kind = kind' := by
  simp [last_success_key, ExchangeCallKind.into_injective.eq_iff]

variable [Unicode]

/-- The metrics that an observation other than a call to an exchange writes to. None of them is
one of the two metrics of exchange calls, which these events therefore leave alone. -/
theorem metric_of_write {o : Observation} {w : Registry.Write MetricKey} (h : w ∈ o.writes)
    (hother : ∀ name kind result now_secs, o ≠ .exchange name kind result now_secs) :
    w.key.1 ≠ .ExchangeFetchTotal ∧ w.key.1 ≠ .ExchangeLastSuccessSeconds := by
  -- each kind of observation has metrics of its own
  cases o with
  | exchange name kind result now_secs => exact absurd rfl (hother name kind result now_secs)
  | forex now_secs forex_rates errors =>
      rw [Observation.writes, List.mem_append, List.mem_flatMap, List.mem_map] at h
      rcases h with ⟨rates, -, hw⟩ | ⟨error, -, rfl⟩
      · rw [List.mem_cons, List.mem_singleton] at hw
        rcases hw with rfl | rfl
        · exact ⟨nofun, nofun⟩
        · exact ⟨nofun, nofun⟩
      · exact ⟨nofun, nofun⟩
  | forex_run timestamp =>
      rw [List.mem_singleton.mp h]
      exact ⟨nofun, nofun⟩
  | stablecoin symbol rates =>
      rw [List.mem_singleton.mp h]
      exact ⟨nofun, nofun⟩
  | listing refresh store =>
      rw [Observation.writes] at h
      split at h
      · split at h
        · simp only [Observation.listing_writes, List.mem_cons, List.not_mem_nil, or_false] at h
          rcases h with rfl | rfl | rfl
          · exact ⟨nofun, nofun⟩
          · exact ⟨nofun, nofun⟩
          · exact ⟨nofun, nofun⟩
        · exact absurd h List.not_mem_nil
      · rw [List.mem_singleton.mp h]
        exact ⟨nofun, nofun⟩
      · rw [List.mem_singleton.mp h]
        exact ⟨nofun, nofun⟩

theorem added_fetch_key (name : String) (kind : ExchangeCallKind) (outcome : Outcome)
    (o : Observation) :
    o.writes.filterMap (Registry.Write.added (fetch_key name kind outcome))
      = if o.is_fetch name kind outcome then [1] else [] := by
  -- no other observation writes to a counter of fetches
  have hother : (∀ name kind result now_secs, o ≠ .exchange name kind result now_secs) →
      o.writes.filterMap (Registry.Write.added (fetch_key name kind outcome)) = [] := by
    intro h
    rw [List.filterMap_eq_nil_iff]
    exact fun w hw => Registry.Write.added_of_ne fun heq =>
      (metric_of_write hw h).1 (heq ▸ rfl)
  cases o with
  | exchange name' kind' result now_secs =>
      -- the gauge of the last success is another series
      have hset : List.filterMap (Registry.Write.added (fetch_key name kind outcome))
          (if exchange_outcome result = .Success then
            [Registry.Write.set (last_success_key name' kind') now_secs] else []) = [] := by
        split <;> rfl
      have hfetch : Observation.is_fetch name kind outcome (.exchange name' kind' result now_secs)
          = true ↔ name' = name ∧ kind' = kind ∧ exchange_outcome result = outcome := by
        rw [Observation.is_fetch, Bool.and_eq_true, decide_eq_true_iff, and_assoc,
          exchange_outcome_eq_iff]
      rw [Observation.writes, List.filterMap_cons, hset, Registry.Write.added]
      by_cases h : name' = name ∧ kind' = kind ∧ exchange_outcome result = outcome
      · rw [if_pos (fetch_key_eq_iff.mpr h), if_pos (hfetch.mpr h)]
      · rw [if_neg fun heq => h (fetch_key_eq_iff.mp heq), if_neg fun heq => h (hfetch.mp heq)]
  | forex now_secs forex_rates errors => exact hother (by simp)
  | forex_run timestamp => exact hother (by simp)
  | stablecoin symbol rates => exact hother (by simp)
  | listing refresh store => exact hother (by simp)

theorem value_last_success_key (name : String) (kind : ExchangeCallKind) (o : Observation) :
    o.writes.filterMap (Registry.Write.value (last_success_key name kind))
      = (o.success_time name kind).toList := by
  -- no other observation sets the gauge of an exchange
  have hother : (∀ name kind result now_secs, o ≠ .exchange name kind result now_secs) →
      o.writes.filterMap (Registry.Write.value (last_success_key name kind)) = [] := by
    intro h
    rw [List.filterMap_eq_nil_iff]
    exact fun w hw => Registry.Write.value_of_ne fun heq =>
      (metric_of_write hw h).2 (heq ▸ rfl)
  cases o with
  | exchange name' kind' result now_secs =>
      rw [Observation.writes, List.filterMap_cons_none rfl]
      cases result with
      | error error =>
          have hfailed : exchange_outcome (.error error) ≠ .Success := by
            cases error <;> exact nofun
          rw [if_neg hfailed]
          rfl
      | ok rate =>
          -- a rate of zero was received, but is no success
          have husable : exchange_outcome (.ok rate) = .Success ↔ rate ≠ 0 := by
            rw [exchange_outcome_eq_iff, Outcome.stands_for, decide_eq_true_iff]
          rw [Observation.success_time]
          by_cases hsuccess : rate ≠ 0
          · rw [if_pos (husable.mpr hsuccess), List.filterMap_cons, Registry.Write.value]
            by_cases h : name' = name ∧ kind' = kind
            · rw [if_pos (last_success_key_eq_iff.mpr h), if_pos ⟨h.1, h.2, hsuccess⟩]
              rfl
            · rw [if_neg fun heq => h (last_success_key_eq_iff.mp heq),
                if_neg fun hall => h ⟨hall.1, hall.2.1⟩]
              rfl
          · rw [if_neg (mt husable.mp hsuccess), if_neg fun hall => hsuccess hall.2.2]
            rfl
  | forex now_secs forex_rates errors => exact hother (by simp)
  | forex_run timestamp => exact hother (by simp)
  | stablecoin symbol rates => exact hother (by simp)
  | listing refresh store => exact hother (by simp)

omit [Unicode] in
/-- Nothing is counted at the start. -/
theorem added_init_writes (start : ℕ) (key : MetricKey) :
    (init_writes start).filterMap (Registry.Write.added key) = [] := by
  rw [List.filterMap_eq_nil_iff]
  intro w hw
  rw [init_writes, List.mem_append, List.mem_map, List.mem_cons, List.mem_flatMap] at hw
  rcases hw with ⟨forex, -, rfl⟩ | rfl | ⟨exchange, -, hw⟩
  · rfl
  · rfl
  · cases exchange <;> simp [seed_writes, Exchange.supported_stablecoin_pairs] at hw <;>
      rcases hw with rfl | rfl | rfl <;> rfl

/-- **The calls to the exchanges are counted**: after any history the counter of an exchange,
a kind of call and an outcome is the number of calls of that kind that ended so. -/
theorem exchange_fetches_counted (start : ℕ) (history : List Observation) (name : String)
    (kind : ExchangeCallKind) (outcome : Outcome) :
    ((LabeledMetrics.new start).observed history).counters[fetch_key name kind outcome]?
      = if history.countP (Observation.is_fetch name kind outcome) = 0 then none
        else some (min (history.countP (Observation.is_fetch name kind outcome)) (wordMax 64)) := by
  have htotal := Registry.total_eq_countP (added_fetch_key name kind outcome) history
  rw [new_observed_eq_writes, Registry.counters_after, Registry.total, List.filterMap_append,
    added_init_writes, List.nil_append, ← Registry.total, htotal]
  split
  · rfl
  · rfl

omit [Unicode] in
/-- The time of the last success of an exchange at the start. -/
theorem latest_init_writes (start : ℕ) (exchange : Exchange) (kind : ExchangeCallKind) :
    Registry.latest (last_success_key exchange.name kind) (init_writes start)
      = if kind = .Stablecoin ∧ exchange.supported_stablecoin_pairs = [] then none
        else some start := by
  cases exchange <;> cases kind <;> rfl

/-- **The last success of an exchange**: after any history the gauge shows the time of the
last call of that kind that gave a rate other than zero, or of the start. -/
theorem exchange_last_success (start : ℕ) (history : List Observation) (exchange : Exchange)
    (kind : ExchangeCallKind) :
    ((LabeledMetrics.new start).observed history).gauges[last_success_key exchange.name kind]?
      = ((history.filterMap (Observation.success_time exchange.name kind)).getLast?).or
          (if kind = .Stablecoin ∧ exchange.supported_stablecoin_pairs = [] then none
          else some start) := by
  rw [new_observed_eq_writes, Registry.gauges_after, Registry.latest_append,
    Registry.latest_eq_getLast? (value_last_success_key exchange.name kind), latest_init_writes]

end Exchanges

end Xrc
