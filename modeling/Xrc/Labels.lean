/-
The labelled metrics of `lib.rs`: one series for each metric and set of labels, counted or set
where the canister calls an exchange, asks the forex sources, refreshes a listing or collects
the rates of a stablecoin.

The state is a `Registry` whose keys are `MetricKey`s. Each recording function is a history of
writes to it (`observed_eq_writes`), so that what a metric shows after any sequence of
observations is a count or a last value over that sequence.
-/
import Xrc.Registry
import Xrc.Periodic
import Xrc.Listings
import Mathlib.Data.List.Sort

set_option autoImplicit false

namespace Xrc

open Machine

/-! ## Names and labels

The names are enumerations, and what is written to the page is their text. Two names never have
the same text, so a key made of texts is one made of names. -/

inductive MetricName where
  | ExchangeFetchTotal
  | ExchangeLastSuccessSeconds
  | ForexFetchTotal
  | ForexLastSuccessSeconds
  | PeriodicForexRunLastSeconds
  | StablecoinSymbolRatesReceived
  | ExchangeListedUsdtPairs
  | ExchangeListingTotalMarkets
  | ExchangeListingLastSuccessSeconds
  | ExchangeListingRejectedTotal
  deriving DecidableEq, Repr

def MetricName.into : MetricName → String
  | ExchangeFetchTotal => "xrc_exchange_fetch_total"
  | ExchangeLastSuccessSeconds => "xrc_exchange_last_success_seconds"
  | ForexFetchTotal => "xrc_forex_fetch_total"
  | ForexLastSuccessSeconds => "xrc_forex_last_success_seconds"
  | PeriodicForexRunLastSeconds => "xrc_periodic_forex_run_last_seconds"
  | StablecoinSymbolRatesReceived => "xrc_stablecoin_symbol_rates_received"
  | ExchangeListedUsdtPairs => "xrc_exchange_listed_usdt_pairs"
  | ExchangeListingTotalMarkets => "xrc_exchange_listing_total_markets"
  | ExchangeListingLastSuccessSeconds => "xrc_exchange_listing_last_success_seconds"
  | ExchangeListingRejectedTotal => "xrc_exchange_listing_rejected_total"

theorem MetricName.into_injective : Function.Injective MetricName.into := by
  intro a b h
  cases a <;> cases b <;> first | rfl | exact absurd h (by decide)

inductive LabelKey where
  | Exchange
  | Forex
  | Kind
  | Outcome
  | Symbol
  | Reason
  deriving DecidableEq, Repr

def LabelKey.into : LabelKey → String
  | Exchange => "exchange"
  | Forex => "forex"
  | Kind => "kind"
  | Outcome => "outcome"
  | Symbol => "symbol"
  | Reason => "reason"

inductive Outcome where
  | Success
  | HttpError
  | CandidError
  | EmptyMap
  /-- The answer was read, and the rate is zero. -/
  | ExtractedZero
  | NoRatesFound
  /-- The answer was read, and holds no datapoint. -/
  | NoData
  deriving DecidableEq, Repr

def Outcome.into : Outcome → String
  | Success => "success"
  | HttpError => "http_error"
  | CandidError => "candid_error"
  | EmptyMap => "empty_map"
  | ExtractedZero => "extracted_zero"
  | NoRatesFound => "no_rates_found"
  | NoData => "no_data"

theorem Outcome.into_injective : Function.Injective Outcome.into := by
  intro a b h
  cases a <;> cases b <;> first | rfl | exact absurd h (by decide)

/-- The two contexts an exchange is called in. -/
inductive ExchangeCallKind where
  | Crypto
  | Stablecoin
  deriving DecidableEq, Repr

def ExchangeCallKind.into : ExchangeCallKind → String
  | Crypto => "crypto"
  | Stablecoin => "stablecoin"

theorem ExchangeCallKind.into_injective : Function.Injective ExchangeCallKind.into := by
  intro a b h
  cases a <;> cases b <;> first | rfl | exact absurd h (by decide)

abbrev LabelPairs : Type := List (LabelKey × String)

abbrev MetricKey : Type := MetricName × LabelPairs

/-! ## The order of the series

Keys are in a `BTreeMap`, so they need a total order: that of the metrics first and of the
labels then, each in the order of its declaration, and of the values as texts. -/

/-- Labels are compared by their keys, then by their values. -/
def LabelPairs.cmp : LabelPairs → LabelPairs → Ordering :=
  List.compareLex (compareLex (compareOn fun pair => pair.1.ctorIdx) (compareOn Prod.snd))

/-- Series are in the order of their metrics, then of their labels. -/
def MetricKey.cmp : MetricKey → MetricKey → Ordering :=
  compareLex (compareOn fun key => key.1.ctorIdx) fun a b => LabelPairs.cmp a.2 b.2

theorem ctorIdx_labelKey_injective : Function.Injective LabelKey.ctorIdx := by
  intro a b h
  cases a <;> cases b <;> first | rfl | exact absurd h (by decide)

theorem ctorIdx_metricName_injective : Function.Injective MetricName.ctorIdx := by
  intro a b h
  cases a <;> cases b <;> first | rfl | exact absurd h (by decide)

instance : Std.TransCmp LabelPairs.cmp := inferInstanceAs (Std.TransCmp (List.compareLex _))

instance : Std.LawfulEqCmp LabelPairs.cmp :=
  have : Std.LawfulEqCmp
      (compareLex (compareOn fun pair : LabelKey × String => pair.1.ctorIdx)
        (compareOn Prod.snd)) :=
    { eq_of_compare := by
        intro a b h
        rw [compareLex_eq_eq, compareOn, compareOn, Std.LawfulEqCmp.compare_eq_iff_eq,
          Std.LawfulEqCmp.compare_eq_iff_eq] at h
        exact Prod.ext (ctorIdx_labelKey_injective h.1) h.2 }
  inferInstanceAs (Std.LawfulEqCmp (List.compareLex _))

instance : Std.TransCmp fun a b : MetricKey => LabelPairs.cmp a.2 b.2 where
  eq_swap := Std.OrientedCmp.eq_swap
  isLE_trans := Std.TransCmp.isLE_trans

instance : Std.TransCmp MetricKey.cmp := inferInstanceAs (Std.TransCmp (compareLex _ _))

instance : Std.LawfulEqCmp MetricKey.cmp where
  eq_of_compare := by
    intro a b h
    rw [MetricKey.cmp, compareLex_eq_eq, compareOn, Std.LawfulEqCmp.compare_eq_iff_eq,
      Std.LawfulEqCmp.compare_eq_iff_eq] at h
    exact Prod.ext (ctorIdx_metricName_injective h.1) h.2

/-! ## Recording

The functions of the source that record something, each a few writes to the registry. The labels
of a key are sorted, so that the order in which a caller names them is of no account. -/

abbrev LabeledMetrics : Type := Registry MetricKey MetricKey.cmp

/-- The key of a series: the labels in the order of their keys. -/
def make_metric_key (name : MetricName) (labels : LabelPairs) : MetricKey :=
  (name, labels.insertionSort fun a b => a.1.ctorIdx ≤ b.1.ctorIdx)

def add_labeled_counter (name : MetricName) (labels : LabelPairs) (delta : ℕ)
    (self : LabeledMetrics) : LabeledMetrics :=
  self.add (wordMax 64) (make_metric_key name labels) delta

def increment_labeled_counter (name : MetricName) (labels : LabelPairs)
    (self : LabeledMetrics) : LabeledMetrics :=
  add_labeled_counter name labels 1 self

def set_labeled_gauge (name : MetricName) (labels : LabelPairs) (value : ℕ)
    (self : LabeledMetrics) : LabeledMetrics :=
  self.set (make_metric_key name labels) value

/-- The errors of `call_forex`. -/
inductive CallForexError where
  | Http (forex error : String)
  | Candid (forex error : String)
  | Empty (forex : String)
  deriving DecidableEq, Repr

/-- What a call to an exchange is recorded as. -/
def exchange_outcome : Except CallExchangeError ℕ → Outcome
  | .ok rate => if rate = 0 then .ExtractedZero else .Success
  | .error (.Http _ _) => .HttpError
  | .error (.Candid _ _) => .CandidError
  | .error .NoRatesFound => .NoRatesFound
  | .error (.NoData _) => .NoData

/-- `record_exchange_outcome`. The gauge only advances on a rate that is of use. -/
def record_exchange_outcome (exchange : String) (kind : ExchangeCallKind)
    (result : Except CallExchangeError ℕ) (now_secs : ℕ) (self : LabeledMetrics) :
    LabeledMetrics :=
  let outcome := exchange_outcome result
  let counted := increment_labeled_counter .ExchangeFetchTotal
    [(.Exchange, exchange), (.Kind, kind.into), (.Outcome, outcome.into)] self
  if outcome = .Success then
    set_labeled_gauge .ExchangeLastSuccessSeconds [(.Exchange, exchange), (.Kind, kind.into)]
      now_secs counted
  else counted

/-- What a failed call to a forex source is recorded as. -/
def forex_outcome : CallForexError → Outcome
  | .Empty _ => .EmptyMap
  | .Http _ _ => .HttpError
  | .Candid _ _ => .CandidError

/-- A forex source that answered. -/
def record_forex_success (now_secs : ℕ) (self : LabeledMetrics) (forex : String) :
    LabeledMetrics :=
  set_labeled_gauge .ForexLastSuccessSeconds [(.Forex, forex)] now_secs
    (increment_labeled_counter .ForexFetchTotal
      [(.Forex, forex), (.Outcome, Outcome.Success.into)] self)

/-- A forex source that failed. -/
def record_forex_error (self : LabeledMetrics) (error : String × CallForexError) :
    LabeledMetrics :=
  increment_labeled_counter .ForexFetchTotal
    [(.Forex, error.1), (.Outcome, (forex_outcome error.2).into)] self

def record_per_forex_metrics (now_secs : ℕ) (forex_rates : List (String × ℕ × ForexRateMap))
    (errors : List (String × CallForexError)) (self : LabeledMetrics) : LabeledMetrics :=
  errors.foldl record_forex_error
    (forex_rates.foldl (fun metrics rates => record_forex_success now_secs metrics rates.1) self)

/-- The rates that are not zero count. -/
def record_stablecoin_symbol_rates_received (symbol : String) (rates : List ℕ)
    (self : LabeledMetrics) : LabeledMetrics :=
  add_labeled_counter .StablecoinSymbolRatesReceived [(.Symbol, symbol)]
    (rates.countP fun rate => 0 < rate) self

/-- The three gauges of a stored listing. -/
def record_accepted_listing_metrics (exchange : String) (store : ListingStore)
    (self : LabeledMetrics) : LabeledMetrics :=
  match store.by_exchange exchange with
  | some listing =>
    set_labeled_gauge .ExchangeListingLastSuccessSeconds [(.Exchange, exchange)]
      listing.last_success_secs
      (set_labeled_gauge .ExchangeListingTotalMarkets [(.Exchange, exchange)]
        listing.total_markets
        (set_labeled_gauge .ExchangeListedUsdtPairs [(.Exchange, exchange)]
          listing.bases.card self))
  | none => self

/-- What the loop over the fetched listings records of one of them. -/
def record_listing_refresh [Unicode] (refresh : ListingRefresh) (store : ListingStore)
    (self : LabeledMetrics) : LabeledMetrics :=
  match (refresh.offer store).1 with
  | some .Accepted =>
    record_accepted_listing_metrics refresh.exchange (refresh.offer store).2 self
  | some _ =>
    increment_labeled_counter .ExchangeListingRejectedTotal
      [(.Exchange, refresh.exchange), (.Reason, "guard")] self
  | none =>
    increment_labeled_counter .ExchangeListingRejectedTotal
      [(.Exchange, refresh.exchange), (.Reason, "fetch")] self

/-! ## The start

The gauges of the last successes do not start at zero: they are seeded with the time of the
installation, for every source that can ever have a success. -/

/-- The gauge of an exchange and a kind, unless the exchange has nothing to be asked for. -/
def seed_exchange_kind (now_secs : ℕ) (exchange : Exchange) (self : LabeledMetrics)
    (kind : ExchangeCallKind) : LabeledMetrics :=
  if kind = .Stablecoin ∧ exchange.supported_stablecoin_pairs = [] then self
  else
    set_labeled_gauge .ExchangeLastSuccessSeconds
      [(.Exchange, exchange.name), (.Kind, kind.into)] now_secs self

/-- The gauges of an exchange. -/
def seed_exchange (now_secs : ℕ) (self : LabeledMetrics) (exchange : Exchange) :
    LabeledMetrics :=
  set_labeled_gauge .ExchangeListingLastSuccessSeconds [(.Exchange, exchange.name)] now_secs
    ([ExchangeCallKind.Crypto, .Stablecoin].foldl (seed_exchange_kind now_secs exchange) self)

/-- `init_at`: the times of the last successes start at the time of the installation. -/
def init_at (now_secs : ℕ) (self : LabeledMetrics) : LabeledMetrics :=
  EXCHANGES.foldl (seed_exchange now_secs)
    (set_labeled_gauge .PeriodicForexRunLastSeconds [] now_secs
      (FOREX_SOURCES.foldl (fun metrics forex =>
        set_labeled_gauge .ForexLastSuccessSeconds [(.Forex, forex.to_string)] now_secs metrics)
        self))

/-- The metrics of a newly installed or upgraded canister. -/
def LabeledMetrics.new (now_secs : ℕ) : LabeledMetrics := init_at now_secs Registry.empty

end Xrc
