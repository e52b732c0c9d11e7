/-
`api/metrics.rs`: the page of metrics. The encoder writes one line after the other and puts a
header before the first series of a metric; the page is every counter and gauge, then the
labelled series of both maps, metric by metric.

`read_get_metrics` says that the page reads back, through the reader of `Xrc.Exposition`, as
the metrics it was written from, whatever the labels hold.
-/
import Xrc.Endpoint
import Xrc.Exposition
import Xrc.Observations
import Xrc.Urls

set_option autoImplicit false
set_option maxRecDepth 4096

namespace Xrc

open Machine Exposition

/-! ## The encoder

The writer of the source, line by line. It remembers the metrics whose header it has written,
and writes a header before the first series only; that headers and series stand together is up
to the order of its calls. -/

/-- `{}` of a number. -/
def display (value : ℕ) : Text := Nat.toDigits 10 value

structure MetricsEncoder where
  writer : Text
  now_millis : ℕ
  /-- The metrics whose header has been written. -/
  headers_emitted : List String

/-- One character of `write_escaped_label_value`. -/
def escaped_label_char : Char → Text
  | '\\' => ['\\', '\\']
  | '\n' => ['\\', 'n']
  | '"' => ['\\', '"']
  | c => [c]

/-- `write_escaped_label_value`. -/
def escaped_label_value (value : String) : Text := value.toList.flatMap escaped_label_char

namespace MetricsEncoder

def new (now_millis : ℕ) : MetricsEncoder := ⟨[], now_millis, []⟩

/-- `write!`. -/
def print (self : MetricsEncoder) (text : Text) : MetricsEncoder :=
  { self with writer := self.writer ++ text }

def write_header_line (self : MetricsEncoder) (name help typ : String) : MetricsEncoder :=
  (self.print ("# HELP ".toList ++ name.toList ++ ' ' :: help.toList ++ ['\n'])).print
    ("# TYPE ".toList ++ name.toList ++ ' ' :: typ.toList ++ ['\n'])

/-- `headers_emitted.insert`. -/
def emit_header (self : MetricsEncoder) (name : String) : MetricsEncoder :=
  { self with headers_emitted := name :: self.headers_emitted }

def encode_single_value (self : MetricsEncoder) (typ name : String) (value : ℕ)
    (help : String) : MetricsEncoder :=
  ((self.emit_header name).write_header_line name help typ).print
    (name.toList ++ ' ' :: display value ++ ' ' :: display self.now_millis ++ ['\n'])

/-- One label, behind a comma unless it is the first. -/
def label (indexed : (String × String) × ℕ) : Text :=
  (if 0 < indexed.2 then [','] else [])
    ++ indexed.1.1.toList ++ ['=', '"'] ++ escaped_label_value indexed.1.2 ++ ['"']

def encode_labeled_value (self : MetricsEncoder) (typ name : String)
    (labels : List (String × String)) (value : ℕ) (help : String) : MetricsEncoder :=
  let headed :=
    if name ∈ self.headers_emitted then self
    else (self.emit_header name).write_header_line name help typ
  if labels = [] then
    headed.print
      (name.toList ++ ' ' :: display value ++ ' ' :: display self.now_millis ++ ['\n'])
  else
    headed.print (name.toList ++ ['{'] ++ labels.zipIdx.flatMap label
      ++ ['}', ' '] ++ display value ++ ' ' :: display self.now_millis ++ ['\n'])

@[simp] theorem now_millis_encode_labeled_value (self : MetricsEncoder) (typ name : String)
    (labels : List (String × String)) (value : ℕ) (help : String) :
    (self.encode_labeled_value typ name labels value help).now_millis = self.now_millis := by
  unfold encode_labeled_value
  split <;> split <;> rfl

end MetricsEncoder

/-! ## The metrics of the page

What is on the page, in its order: the metrics of a single series with their values, then the
labelled ones, each with the map it is read from. Sizes which the model has no notion of are
parameters. -/

/-- A metric of one series. -/
structure SingleMetric where
  typ : String
  name : String
  value : ℕ
  help : String

/-- A metric whose series are labelled. -/
structure LabeledMetric where
  typ : String
  name : MetricName
  help : String

/-- The sizes on the page that the data structures and the system give. -/
structure Sizes where
  /-- `allocated_bytes` of the forex store. -/
  forex_store : ℕ
  /-- `len` of the cache. -/
  cache : ℕ
  /-- The pages of stable memory. -/
  stable_size : ℕ
  heap_memory_size_bytes : ℕ

/-- The calls of `encode_counter` and `encode_gauge` in `encode_metrics`. The gauges are doubles;
each of them counts seconds, entries, pages or bytes, and is exact. -/
def single_metrics {L : Type} (served : Served L) (sizes : Sizes) : List SingleMetric :=
  [⟨"counter", "xrc_requests", served.metrics .GetExchangeRateRequest,
      "The number of requests the canister has received."⟩,
    ⟨"counter", "xrc_cmc_requests", served.metrics .GetExchangeRateRequestFromCmc,
      "The number of requests from the cycles minting canister."⟩,
    ⟨"counter", "xrc_cycles_related_errors", served.metrics .CycleRelatedErrors,
      "The number of cycle-related errors that have been returned."⟩,
    ⟨"counter", "xrc_errors_returned", served.metrics .ErrorsReturned,
      "The number of errors that have been returned."⟩,
    ⟨"counter", "xrc_cmc_errors_returned", served.metrics .ErrorsReturnedToCmc,
      "The number of errors that have been returned to the cycles minting canister."⟩,
    ⟨"gauge", "xrc_http_outcall_requests", served.state.request_counter,
      "The current number of HTTP outcalls."⟩,
    ⟨"gauge", "xrc_forex_store_size_bytes", sizes.forex_store,
      "The current size of the forex rate store in bytes."⟩,
    ⟨"gauge", "xrc_cache_size", sizes.cache,
      "The current size of the exchange rate cache."⟩,
    ⟨"counter", "xrc_pending_errors", served.metrics .PendingErrorsReturned,
      "The number of pending errors returned."⟩,
    ⟨"counter", "xrc_rate_limited_errors", served.metrics .RateLimitedErrors,
      "The number of rate limited errors returned."⟩,
    ⟨"counter", "xrc_stablecoin_errors", served.metrics .StablecoinErrorsReturned,
      "The number of stablecoin errors returned (aggregate; see xrc_stablecoin_symbol_rates_received for per-symbol liquidity health)."⟩,
    ⟨"counter", "xrc_crypto_asset_errors", served.metrics .CryptoAssetRelatedErrorsReturned,
      "The number of crypto asset related errors returned (aggregate; see xrc_exchange_fetch_total for per-exchange outcomes)."⟩,
    ⟨"counter", "xrc_forex_asset_errors", served.metrics .ForexAssetRelatedErrorsReturned,
      "The number of forex asset related errors returned (aggregate; see xrc_forex_fetch_total for per-source outcomes)."⟩,
    ⟨"counter", "xrc_inconsistent_rate_errors", served.metrics .InconsistentRatesErrorsReturned,
      "The number of inconsistent rate errors returned."⟩,
    ⟨"gauge", "ledger_stable_memory_pages", sizes.stable_size,
      "Size of the stable memory allocated by this canister measured in 64K Wasm pages."⟩,
    ⟨"gauge", "stable_memory_bytes", wrapping_mul 64 (wrapping_mul 64 sizes.stable_size 64) 1024,
      "Size of the stable memory allocated by this canister measured in bytes."⟩,
    ⟨"gauge", "heap_memory_bytes", sizes.heap_memory_size_bytes,
      "Size of the heap memory allocated by this canister measured in bytes."⟩]

/-- The calls of `encode_labeled_counter_family` and `encode_labeled_gauge_family` in
`encode_metrics`. -/
def labeled_metrics : List LabeledMetric :=
  [⟨"counter", .ExchangeFetchTotal,
      "Per-exchange fetch outcomes, labeled by exchange name, call kind (crypto/stablecoin) and outcome."⟩,
    ⟨"gauge", .ExchangeLastSuccessSeconds,
      "Unix timestamp (seconds) of the most recent successful fetch per exchange and call kind."⟩,
    ⟨"counter", .ForexFetchTotal,
      "Per-forex source fetch outcomes, labeled by forex source name and outcome."⟩,
    ⟨"gauge", .ForexLastSuccessSeconds,
      "Unix timestamp (seconds) of the most recent successful fetch per forex source."⟩,
    ⟨"gauge", .PeriodicForexRunLastSeconds,
      "Unix timestamp (seconds) of the most recent periodic forex-update task run (heartbeat - not contingent on rate-fetch success)."⟩,
    ⟨"counter", .StablecoinSymbolRatesReceived,
      "Count of individual exchange rate samples received per stablecoin symbol; its rate drops to zero when an upstream symbol stops returning data (e.g. after a rebrand)."⟩,
    ⟨"gauge", .ExchangeListedUsdtPairs,
      "Number of base assets each exchange currently lists against USDT, from the last accepted listing refresh (the set the crypto path is gated on)."⟩,
    ⟨"gauge", .ExchangeListingTotalMarkets,
      "Total spot markets parsed (across all quotes) per exchange in the last accepted listing refresh; a structural-health signal that stays stable across delistings and USDT-to-USD migrations."⟩,
    ⟨"gauge", .ExchangeListingLastSuccessSeconds,
      "Unix timestamp (seconds) of the most recent accepted listing refresh per exchange."⟩,
    ⟨"counter", .ExchangeListingRejectedTotal,
      "Total per-exchange listing refreshes not applied, labeled by reason: 'fetch' (no listing could be fetched and parsed - an HTTP outcall error, transform trap, or candid encode/decode failure) or 'guard' (a 200 that failed the structural acceptance guard - API change or parser break). A rising 'guard' rate points at a parser/API issue; a rising 'fetch' rate at connectivity or a malformed/oversized response."⟩]

/-- The series of a metric, in the order of their labels: those of its map that have its name. -/
def LabeledMetric.entries (self : LabeledMetric) (labeled : LabeledMetrics) :
    List (MetricKey × ℕ) :=
  (if self.typ = "counter" then labeled.counters.toList else labeled.gauges.toList).filter
    fun entry => decide (entry.1.1 = self.name)

/-- The labels of a series as they are written. -/
def label_refs (labels : LabelPairs) : List (String × String) :=
  labels.map fun pair => (pair.1.into, pair.2)

namespace MetricsEncoder

/-- `encode_counter` and `encode_gauge`. -/
def encode_single (self : MetricsEncoder) (metric : SingleMetric) : MetricsEncoder :=
  self.encode_single_value metric.typ metric.name metric.value metric.help

/-- `encode_labeled_counter_family` and `encode_labeled_gauge_family`. -/
def encode_family (labeled : LabeledMetrics) (self : MetricsEncoder) (metric : LabeledMetric) :
    MetricsEncoder :=
  (metric.entries labeled).foldl (fun w entry =>
    w.encode_labeled_value metric.typ metric.name.into (label_refs entry.1.2) entry.2
      metric.help) self

end MetricsEncoder

def encode_metrics {L : Type} (served : Served L) (labeled : LabeledMetrics) (sizes : Sizes)
    (w : MetricsEncoder) : MetricsEncoder :=
  labeled_metrics.foldl (MetricsEncoder.encode_family labeled)
    ((single_metrics served sizes).foldl MetricsEncoder.encode_single w)

structure HttpResponse where
  status_code : ℕ
  headers : List (String × String)
  body : Text

/-- `get_metrics`. A vector takes every write, so that the encoding does not fail. -/
def get_metrics {L : Type} (served : Served L) (labeled : LabeledMetrics) (sizes : Sizes)
    (now : UInt64) : HttpResponse :=
  let body := (encode_metrics served labeled sizes
    (MetricsEncoder.new (now.toNat / 1_000_000))).writer
  { status_code := 200
    headers := [("Content-Type", "text/plain; version=0.0.4"),
      ("Content-Length", toString (String.ofList body).utf8ByteSize)]
    body := body }

/-! ## Lines

The texts the encoder puts together are those of the format. The encoder writes a comma before
every label but the first, the format one between labels, so the two agree by an induction that
starts at the second. -/

theorem escaped_label_char_eq (c : Char) : escaped_label_char c = escape_char c := by
  unfold escaped_label_char escape_char
  split
  · rfl
  · rfl
  · rfl
  · rename_i hslash hnewline hquote
    rw [if_neg hslash, if_neg hnewline, if_neg hquote]

theorem escaped_label_value_eq (value : String) : escaped_label_value value = escape value.toList :=
  congrArg value.toList.flatMap (funext escaped_label_char_eq)

/-- The texts of labels. -/
def label_texts (labels : List (String × String)) : List (Text × Text) :=
  labels.map fun pair => (pair.1.toList, pair.2.toList)

theorem label_texts_cons (pair : String × String) (labels : List (String × String)) :
    label_texts (pair :: labels) = (pair.1.toList, pair.2.toList) :: label_texts labels := rfl

namespace MetricsEncoder

theorem label_zero (pair : String × String) :
    label (pair, 0) = write_pair (pair.1.toList, pair.2.toList) := by
  simp [label, write_pair, escaped_label_value_eq]

theorem label_succ (pair : String × String) (i : ℕ) :
    label (pair, i + 1) = ',' :: write_pair (pair.1.toList, pair.2.toList) := by
  simp [label, write_pair, escaped_label_value_eq]

/-- The labels behind the first one. -/
theorem flatMap_label_succ (labels : List (String × String)) :
    ∀ i, (labels.zipIdx (i + 1)).flatMap label
      = (label_texts labels).flatMap fun pair => ',' :: write_pair pair := by
  induction labels with
  | nil => exact fun _ => rfl
  | cons pair labels ih =>
      intro i
      rw [List.zipIdx_cons, List.flatMap_cons, label_succ, ih, label_texts_cons,
        List.flatMap_cons]

theorem flatMap_label (labels : List (String × String)) :
    labels.zipIdx.flatMap label = write_pairs (label_texts labels) := by
  cases labels with
  | nil => rfl
  | cons pair labels =>
      rw [List.zipIdx_cons, List.flatMap_cons, label_zero, flatMap_label_succ, label_texts_cons,
        write_pairs]

@[simp] theorem writer_print (self : MetricsEncoder) (text : Text) :
    (self.print text).writer = self.writer ++ text := rfl

@[simp] theorem headers_emitted_print (self : MetricsEncoder) (text : Text) :
    (self.print text).headers_emitted = self.headers_emitted := rfl

@[simp] theorem writer_emit_header (self : MetricsEncoder) (name : String) :
    (self.emit_header name).writer = self.writer := rfl

@[simp] theorem headers_emitted_emit_header (self : MetricsEncoder) (name : String) :
    (self.emit_header name).headers_emitted = name :: self.headers_emitted := rfl

@[simp] theorem headers_emitted_write_header_line (self : MetricsEncoder)
    (name help typ : String) :
    (self.write_header_line name help typ).headers_emitted = self.headers_emitted := rfl

@[simp] theorem writer_write_header_line (self : MetricsEncoder) (name help typ : String) :
    (self.write_header_line name help typ).writer
      = self.writer ++ unlines (write_header name.toList help.toList typ.toList) := by
  have hhelp : "# HELP ".toList = HELP := rfl
  have htype : "# TYPE ".toList = TYPE := rfl
  simp [write_header_line, unlines, write_header, hhelp, htype]

/-- The line of a series, with or without labels. -/
theorem writer_series_line (self : MetricsEncoder) (name : String)
    (labels : List (String × String)) (value now_millis : ℕ) :
    (if labels = [] then
        self.print (name.toList ++ ' ' :: display value ++ ' ' :: display now_millis ++ ['\n'])
      else
        self.print (name.toList ++ ['{'] ++ labels.zipIdx.flatMap label
          ++ ['}', ' '] ++ display value ++ ' ' :: display now_millis ++ ['\n']))
      = self.print (unlines [write_series name.toList
          ⟨label_texts labels, display value, display now_millis⟩]) := by
  cases labels with
  | nil => simp [unlines, write_series, label_texts, write_labels]
  | cons pair labels =>
      rw [if_neg (List.cons_ne_nil pair labels), flatMap_label]
      simp [unlines, write_series, label_texts, write_labels]

end MetricsEncoder

/-! ## Pages

`Wrote w families` is the invariant of the encoder: its text is that of these families, and
their names are the headers written so far. A call either opens a family or adds a series to the
last one. -/

/-- The family of a metric of one series. -/
def SingleMetric.family (now_millis : ℕ) (self : SingleMetric) : Family :=
  ⟨self.name.toList, self.help.toList, self.typ.toList,
    [⟨[], display self.value, display now_millis⟩]⟩

/-- A labelled series. -/
def labeled_series (now_millis : ℕ) (entry : MetricKey × ℕ) : Series :=
  ⟨label_texts (label_refs entry.1.2), display entry.2, display now_millis⟩

/-- The family of a labelled metric with these series. -/
def LabeledMetric.family_of (now_millis : ℕ) (self : LabeledMetric)
    (entries : List (MetricKey × ℕ)) : Family :=
  ⟨self.name.into.toList, self.help.toList, self.typ.toList,
    entries.map (labeled_series now_millis)⟩

/-- The family of a labelled metric, if it has a series. -/
def LabeledMetric.family (now_millis : ℕ) (labeled : LabeledMetrics) (self : LabeledMetric) :
    Option Family :=
  if self.entries labeled = [] then none
  else some (self.family_of now_millis (self.entries labeled))

/-- What an encoder has written: these families, each under its header. The encoder remembers the
names whose headers it has written, since a header must not be repeated. -/
structure Wrote (w : MetricsEncoder) (families : List Family) : Prop where
  writer : w.writer = write families
  headers : ∀ name : String, name ∈ w.headers_emitted ↔ name.toList ∈ families.map Family.name

namespace Wrote

variable {w : MetricsEncoder} {families : List Family}

theorem new (now_millis : ℕ) : Wrote (MetricsEncoder.new now_millis) [] where
  writer := rfl
  headers _ := by simp [MetricsEncoder.new]

/-- A family is written by its header and its first series. -/
theorem open_family (h : Wrote w families) (name help typ : String) (series : Series) :
    Wrote (((w.emit_header name).write_header_line name help typ).print
        (unlines [write_series name.toList series]))
      (families ++ [⟨name.toList, help.toList, typ.toList, [series]⟩]) where
  writer := by
    simp [h.writer, write, write_family, unlines]
  headers other := by
    simp [h.headers, or_comm, String.toList_inj]

/-- Another series of the last family. -/
theorem extend_family {name help typ : String} {before : List Series}
    (h : Wrote w (families ++ [⟨name.toList, help.toList, typ.toList, before⟩]))
    (series : Series) :
    Wrote (w.print (unlines [write_series name.toList series]))
      (families ++ [⟨name.toList, help.toList, typ.toList, before ++ [series]⟩]) where
  writer := by
    simp [h.writer, write, write_family, unlines]
  headers other := by
    simpa using h.headers other

/-- A metric of one series. -/
theorem encode_single (h : Wrote w families) (metric : SingleMetric) :
    Wrote (w.encode_single metric) (families ++ [metric.family w.now_millis]) := by
  have hwrote := h.open_family metric.name metric.help metric.typ
    ⟨[], display metric.value, display w.now_millis⟩
  have hline : unlines [write_series metric.name.toList
        ⟨[], display metric.value, display w.now_millis⟩]
      = metric.name.toList ++ ' ' :: display metric.value ++ ' ' :: display w.now_millis
        ++ ['\n'] := by
    simp [unlines, write_series, write_labels]
  rw [hline] at hwrote
  exact hwrote

/-- The first series of a metric. -/
theorem encode_first (h : Wrote w families) {name : String}
    (hfresh : name.toList ∉ families.map Family.name) (typ help : String)
    (labels : List (String × String)) (value : ℕ) :
    Wrote (w.encode_labeled_value typ name labels value help)
      (families ++ [⟨name.toList, help.toList, typ.toList,
        [⟨label_texts labels, display value, display w.now_millis⟩]⟩]) := by
  have hname : name ∉ w.headers_emitted := fun hmem => hfresh ((h.headers name).mp hmem)
  have hline := MetricsEncoder.writer_series_line
    ((w.emit_header name).write_header_line name help typ) name labels value w.now_millis
  rw [MetricsEncoder.encode_labeled_value, if_neg hname, hline]
  exact h.open_family name help typ _

/-- A further series of the metric that was written last. -/
theorem encode_next {name typ help : String} {before : List Series}
    (h : Wrote w (families ++ [⟨name.toList, help.toList, typ.toList, before⟩]))
    (labels : List (String × String)) (value : ℕ) :
    Wrote (w.encode_labeled_value typ name labels value help)
      (families ++ [⟨name.toList, help.toList, typ.toList,
        before ++ [⟨label_texts labels, display value, display w.now_millis⟩]⟩]) := by
  have hname : name ∈ w.headers_emitted := by
    rw [h.headers]
    simp
  have hline := MetricsEncoder.writer_series_line w name labels value w.now_millis
  rw [MetricsEncoder.encode_labeled_value, if_pos hname, hline]
  exact h.extend_family _

/-- The series of a metric behind the first one. -/
theorem encode_rest (metric : LabeledMetric) (entries : List (MetricKey × ℕ)) :
    ∀ {w : MetricsEncoder} {before : List Series},
      Wrote w (families ++ [⟨metric.name.into.toList, metric.help.toList, metric.typ.toList,
        before⟩]) →
      Wrote (entries.foldl (fun w entry =>
          w.encode_labeled_value metric.typ metric.name.into (label_refs entry.1.2) entry.2
            metric.help) w)
        (families ++ [⟨metric.name.into.toList, metric.help.toList, metric.typ.toList,
          before ++ entries.map (labeled_series w.now_millis)⟩]) := by
  induction entries with
  | nil =>
      intro w before h
      rw [List.map_nil, List.append_nil]
      exact h
  | cons entry entries ih =>
      intro w before h
      have hrest := ih (h.encode_next (label_refs entry.1.2) entry.2)
      rw [MetricsEncoder.now_millis_encode_labeled_value, List.append_assoc] at hrest
      exact hrest

/-- **A labelled metric**: its series stand under one header, and without series there is
none. -/
theorem encode_family (h : Wrote w families) {metric : LabeledMetric}
    (hfresh : metric.name.into.toList ∉ families.map Family.name) (labeled : LabeledMetrics) :
    Wrote (w.encode_family labeled metric)
      (families ++ (metric.family w.now_millis labeled).toList) := by
  rw [MetricsEncoder.encode_family, LabeledMetric.family]
  cases metric.entries labeled with
  | nil =>
      rw [if_pos rfl, Option.toList_none, List.append_nil]
      exact h
  | cons entry entries =>
      have hfirst := h.encode_first hfresh metric.typ metric.help (label_refs entry.1.2) entry.2
      have hrest := encode_rest metric entries hfirst
      rw [MetricsEncoder.now_millis_encode_labeled_value] at hrest
      rw [if_neg (List.cons_ne_nil entry entries), List.foldl_cons]
      exact hrest

end Wrote

/-! ## The whole page

All names and texts of help on the page are fixed, and that they can be read back is checked on
them. For the labels nothing has to be checked, whatever their values are. -/

@[simp] theorem now_millis_encode_single (w : MetricsEncoder) (metric : SingleMetric) :
    (w.encode_single metric).now_millis = w.now_millis := rfl

@[simp] theorem now_millis_encode_family (labeled : LabeledMetrics) (w : MetricsEncoder)
    (metric : LabeledMetric) : (w.encode_family labeled metric).now_millis = w.now_millis := by
  have hfold : ∀ (entries : List (MetricKey × ℕ)) (w : MetricsEncoder),
      (entries.foldl (fun w entry =>
        w.encode_labeled_value metric.typ metric.name.into (label_refs entry.1.2) entry.2
          metric.help) w).now_millis = w.now_millis := by
    intro entries
    induction entries with
    | nil => exact fun _ => rfl
    | cons entry entries ih =>
        intro w
        rw [List.foldl_cons, ih, MetricsEncoder.now_millis_encode_labeled_value]
  exact hfold _ w

theorem wrote_single_metrics (metrics : List SingleMetric) :
    ∀ {w : MetricsEncoder} {families : List Family}, Wrote w families →
      Wrote (metrics.foldl MetricsEncoder.encode_single w)
          (families ++ metrics.map (SingleMetric.family w.now_millis))
        ∧ (metrics.foldl MetricsEncoder.encode_single w).now_millis = w.now_millis := by
  induction metrics with
  | nil =>
      intro w families h
      rw [List.map_nil, List.append_nil]
      exact ⟨h, rfl⟩
  | cons metric metrics ih =>
      intro w families h
      have hrest := ih (h.encode_single metric)
      rw [now_millis_encode_single, List.append_assoc] at hrest
      exact hrest

theorem name_family {now_millis : ℕ} {labeled : LabeledMetrics} {metric : LabeledMetric}
    {family : Family} (h : metric.family now_millis labeled = some family) :
    family = metric.family_of now_millis (metric.entries labeled) := by
  rw [LabeledMetric.family] at h
  split at h
  · exact absurd h (by simp)
  · exact (Option.some.inj h).symm

theorem wrote_labeled_metrics (labeled : LabeledMetrics) (metrics : List LabeledMetric) :
    ∀ {w : MetricsEncoder} {families : List Family}, Wrote w families →
      (metrics.map LabeledMetric.name).Nodup →
      (∀ metric ∈ metrics, metric.name.into.toList ∉ families.map Family.name) →
      Wrote (metrics.foldl (MetricsEncoder.encode_family labeled) w)
        (families ++ metrics.filterMap (LabeledMetric.family w.now_millis labeled)) := by
  induction metrics with
  | nil =>
      intro w families h _ _
      rw [List.filterMap_nil, List.append_nil]
      exact h
  | cons metric metrics ih =>
      intro w families h hnodup hfresh
      rw [List.map_cons, List.nodup_cons] at hnodup
      have hfirst := h.encode_family (hfresh metric List.mem_cons_self) labeled
      -- the names of the metrics that follow differ from this one
      have hrest := ih hfirst hnodup.2 (by
        intro other hother
        rw [List.map_append, List.mem_append, not_or]
        refine ⟨hfresh other (List.mem_cons_of_mem _ hother), ?_⟩
        intro hmem
        obtain ⟨family, hfamily, hname⟩ := List.mem_map.mp hmem
        rw [name_family (Option.mem_toList.mp hfamily)] at hname
        have heq := MetricName.into_injective (String.toList_inj.mp hname)
        exact hnodup.1 (heq ▸ List.mem_map_of_mem hother))
      rw [now_millis_encode_family, List.append_assoc] at hrest
      rw [List.foldl_cons]
      convert hrest using 2
      cases hfamily : metric.family w.now_millis labeled with
      | none => rw [List.filterMap_cons_none hfamily]; rfl
      | some family => rw [List.filterMap_cons_some hfamily]; rfl

/-- What may stand in a name, a text of help and a type. -/
def printable_texts (name help typ : Text) : Bool :=
  name.all (fun c => c.isAlpha || c == '_') && help.all (· != '\n') && typ.all (· != '\n')

/-- A metric whose texts keep to their lines. -/
def Printable (name help typ : String) : Prop :=
  printable_texts name.toList help.toList typ.toList = true

theorem printable_of_characters {name help typ : String} {names helps typs : List Char}
    (hname : name = String.ofList names) (hhelp : help = String.ofList helps)
    (htyp : typ = String.ofList typs) (h : printable_texts names helps typs = true) :
    Printable name help typ := by
  rw [Printable, hname, hhelp, htyp, String.toList_ofList, String.toList_ofList,
    String.toList_ofList]
  exact h

theorem printable_single_metrics {L : Type} (served : Served L) (sizes : Sizes) :
    ∀ metric ∈ single_metrics served sizes, Printable metric.name metric.help metric.typ := by
  simp only [single_metrics, List.forall_mem_cons, List.not_mem_nil, false_implies,
    implies_true, and_true]
  refine ⟨?_, ?_, ?_, ?_, ?_, ?_, ?_, ?_, ?_, ?_, ?_, ?_, ?_, ?_, ?_, ?_, ?_⟩ <;>
    exact printable_of_characters rfl rfl rfl (by decide +kernel)

theorem printable_labeled_metrics :
    ∀ metric ∈ labeled_metrics, Printable metric.name.into metric.help metric.typ := by
  simp only [labeled_metrics, List.forall_mem_cons, List.not_mem_nil, false_implies,
    implies_true, and_true, MetricName.into]
  refine ⟨?_, ?_, ?_, ?_, ?_, ?_, ?_, ?_, ?_, ?_⟩ <;>
    exact printable_of_characters rfl rfl rfl (by decide +kernel)

theorem Printable.wellFormed {name help typ : String} (h : Printable name help typ)
    {series : List Series} (hseries : ∀ s ∈ series, s.WellFormed) :
    Family.WellFormed ⟨name.toList, help.toList, typ.toList, series⟩ := by
  rw [Printable, printable_texts, Bool.and_eq_true, Bool.and_eq_true, List.all_eq_true,
    List.all_eq_true, List.all_eq_true] at h
  obtain ⟨⟨hname, hhelp⟩, htyp⟩ := h
  refine ⟨⟨?_, ?_, ?_, ?_⟩, ?_, ?_, hseries⟩
  · exact fun hmem => absurd (hname _ hmem) (by decide)
  · exact fun hmem => absurd (hname _ hmem) (by decide)
  · exact fun hmem => absurd (hname _ hmem) (by decide)
  · exact fun hmem => absurd (hname _ hmem) (by decide)
  · exact fun hmem => absurd (hhelp _ hmem) (by decide)
  · exact fun hmem => absurd (htyp _ hmem) (by decide)

theorem notMem_display {c : Char} (h : c.isDigit = false) (value : ℕ) : c ∉ display value := by
  intro hmem
  rw [Nat.isDigit_of_mem_toDigits (by decide) (by decide) hmem] at h
  exact Bool.noConfusion h

/-- A series is well-formed whatever the values of its labels. -/
theorem wellFormed_series (labels : LabelPairs) (value now_millis : ℕ) :
    Series.WellFormed ⟨label_texts (label_refs labels), display value, display now_millis⟩ where
  labels := by
    have hkey : ∀ key : LabelKey, '=' ∉ key.into.toList ∧ '\n' ∉ key.into.toList := by
      intro key
      cases key <;> simp [LabelKey.into]
    intro pair hpair
    rw [label_texts, label_refs, List.map_map] at hpair
    obtain ⟨label, -, rfl⟩ := List.mem_map.mp hpair
    exact hkey label.1
  value := ⟨notMem_display rfl value, notMem_display rfl value⟩
  stamp := notMem_display rfl now_millis

/-- The families of a page. -/
def page_families {L : Type} (served : Served L) (labeled : LabeledMetrics) (sizes : Sizes)
    (now_millis : ℕ) : List Family :=
  (single_metrics served sizes).map (SingleMetric.family now_millis)
    ++ labeled_metrics.filterMap (LabeledMetric.family now_millis labeled)

/-- The names of the metrics of a page. -/
def page_names {L : Type} (served : Served L) (sizes : Sizes) : List String :=
  (single_metrics served sizes).map SingleMetric.name
    ++ labeled_metrics.map fun metric => metric.name.into

theorem nodup_page_names {L : Type} (served : Served L) (sizes : Sizes) :
    (page_names served sizes).Nodup := by
  have hnames : ["xrc_requests", "xrc_cmc_requests", "xrc_cycles_related_errors",
      "xrc_errors_returned", "xrc_cmc_errors_returned", "xrc_http_outcall_requests",
      "xrc_forex_store_size_bytes", "xrc_cache_size", "xrc_pending_errors",
      "xrc_rate_limited_errors", "xrc_stablecoin_errors", "xrc_crypto_asset_errors",
      "xrc_forex_asset_errors", "xrc_inconsistent_rate_errors", "ledger_stable_memory_pages",
      "stable_memory_bytes", "heap_memory_bytes", "xrc_exchange_fetch_total",
      "xrc_exchange_last_success_seconds", "xrc_forex_fetch_total",
      "xrc_forex_last_success_seconds", "xrc_periodic_forex_run_last_seconds",
      "xrc_stablecoin_symbol_rates_received", "xrc_exchange_listed_usdt_pairs",
      "xrc_exchange_listing_total_markets", "xrc_exchange_listing_last_success_seconds",
      "xrc_exchange_listing_rejected_total"].Nodup := by
    decide
  exact hnames

section Page

variable {L : Type} (served : Served L) (labeled : LabeledMetrics) (sizes : Sizes)

theorem wellFormed_page_families (now_millis : ℕ) :
    ∀ family ∈ page_families served labeled sizes now_millis, family.WellFormed := by
  intro family hfamily
  rw [page_families, List.mem_append, List.mem_map, List.mem_filterMap] at hfamily
  rcases hfamily with ⟨metric, hmetric, rfl⟩ | ⟨metric, hmetric, hsome⟩
  · refine (printable_single_metrics served sizes metric hmetric).wellFormed ?_
    intro series hseries
    rw [List.mem_singleton.mp hseries]
    exact wellFormed_series [] metric.value now_millis
  · rw [name_family hsome]
    refine (printable_labeled_metrics metric hmetric).wellFormed ?_
    intro series hseries
    obtain ⟨entry, -, rfl⟩ := List.mem_map.mp hseries
    exact wellFormed_series entry.1.2 entry.2 now_millis

theorem nodup_page_families (now_millis : ℕ) :
    ((page_families served labeled sizes now_millis).map Family.name).Nodup := by
  have hall : ((page_names served sizes).map String.toList).Nodup :=
    (nodup_page_names served sizes).map fun _ _ heq => String.toList_inj.mp heq
  -- a metric without series is left out, so the names are some of all of them
  refine hall.sublist ?_
  rw [page_names, page_families, List.map_append, List.map_append, List.map_map, List.map_map,
    List.map_map, List.map_filterMap]
  refine List.Sublist.append (List.Sublist.refl _) ?_
  have hfilter : ∀ metrics : List LabeledMetric,
      (metrics.filterMap fun metric =>
          (metric.family now_millis labeled).map Family.name).Sublist
        (metrics.map (String.toList ∘ fun metric => metric.name.into)) := by
    intro metrics
    induction metrics with
    | nil => exact List.Sublist.refl _
    | cons metric metrics ih =>
        rw [List.map_cons]
        cases hfamily : metric.family now_millis labeled with
        | none =>
            rw [List.filterMap_cons_none (by rw [hfamily]; rfl)]
            exact ih.cons _
        | some family =>
            rw [List.filterMap_cons_some (by rw [hfamily]; rfl), name_family hfamily]
            exact ih.cons_cons _
  exact hfilter labeled_metrics

/-- What the encoder writes. -/
theorem wrote_page (now_millis : ℕ) :
    Wrote (encode_metrics served labeled sizes (MetricsEncoder.new now_millis))
      (page_families served labeled sizes now_millis) := by
  obtain ⟨hsingle, hmillis⟩ :=
    wrote_single_metrics (single_metrics served sizes) (Wrote.new now_millis)
  have hnames := (List.nodup_append.mp (nodup_page_names served sizes))
  have hlabeled := wrote_labeled_metrics labeled labeled_metrics hsingle (by decide) (by
    intro metric hmetric hmem
    rw [List.nil_append, List.map_map] at hmem
    obtain ⟨single, hmember, heq⟩ := List.mem_map.mp hmem
    exact hnames.2.2 single.name (List.mem_map_of_mem hmember) metric.name.into
      (List.mem_map_of_mem (f := fun metric => metric.name.into) hmetric)
      (String.toList_inj.mp heq))
  rw [hmillis] at hlabeled
  exact hlabeled

theorem label_texts_refs_injective :
    Function.Injective fun labels : LabelPairs => label_texts (label_refs labels) := by
  have hkey : Function.Injective fun key : LabelKey => key.into.toList := by
    intro a b h
    cases a <;> cases b <;> first | rfl | exact absurd (String.toList_inj.mp h) (by decide)
  have hpair : Function.Injective fun pair : LabelKey × String =>
      (pair.1.into.toList, pair.2.toList) := by
    rintro ⟨key, value⟩ ⟨key', value'⟩ h
    rw [Prod.mk.injEq] at h
    exact Prod.ext (hkey h.1) (String.toList_inj.mp h.2)
  have heq : (fun labels : LabelPairs => label_texts (label_refs labels))
      = List.map fun pair => (pair.1.into.toList, pair.2.toList) := by
    funext labels
    rw [label_texts, label_refs, List.map_map]
    rfl
  rw [heq]
  exact List.map_injective_iff.mpr hpair

/-- The map a labelled metric is read from. -/
def LabeledMetric.map (self : LabeledMetric) (labeled : LabeledMetrics) :
    Std.TreeMap MetricKey ℕ MetricKey.cmp :=
  if self.typ = "counter" then labeled.counters else labeled.gauges

theorem LabeledMetric.entries_eq (self : LabeledMetric) :
    self.entries labeled
      = (self.map labeled).toList.filter fun entry => decide (entry.1.1 = self.name) := by
  rw [entries, LabeledMetric.map]
  split <;> rfl

theorem LabeledMetric.mem_entries {self : LabeledMetric} {labels : LabelPairs} {value : ℕ} :
    ((self.name, labels), value) ∈ self.entries labeled
      ↔ (self.map labeled)[(self.name, labels)]? = some value := by
  rw [entries_eq, List.mem_filter, Std.TreeMap.mem_toList_iff_getElem?_eq_some]
  simp

/-- No two series of a metric have the same labels. -/
theorem LabeledMetric.nodup_labels (self : LabeledMetric) (now_millis : ℕ) :
    (((self.entries labeled).map (labeled_series now_millis)).map Series.labels).Nodup := by
  rw [List.map_map, entries_eq]
  have hkeys : ((self.map labeled).toList.filter fun entry => decide (entry.1.1 = self.name))
      |>.Pairwise fun a b => a.1 ≠ b.1 := by
    refine (Std.TreeMap.distinct_keys_toList.imp ?_).filter _
    exact fun h heq => h (Std.LawfulEqCmp.compare_eq_iff_eq.mpr heq)
  rw [List.Nodup, List.pairwise_map]
  refine hkeys.imp_of_mem ?_
  intro a b ha hb hne heq
  have hname : a.1.1 = b.1.1 :=
    (of_decide_eq_true (List.mem_filter.mp ha).2).trans
      (of_decide_eq_true (List.mem_filter.mp hb).2).symm
  exact hne (Prod.ext hname (label_texts_refs_injective heq))

theorem nodup_page_labels (now_millis : ℕ) :
    ∀ family ∈ page_families served labeled sizes now_millis,
      (family.series.map Series.labels).Nodup := by
  intro family hfamily
  rw [page_families, List.mem_append, List.mem_map, List.mem_filterMap] at hfamily
  rcases hfamily with ⟨metric, -, rfl⟩ | ⟨metric, -, hsome⟩
  · exact List.nodup_singleton _
  · rw [name_family hsome]
    exact metric.nodup_labels labeled now_millis

/-- What a reader gets from the page. -/
theorem read_page (now : UInt64) : read (get_metrics served labeled sizes now).body
    = some (page_families served labeled sizes (now.toNat / 1_000_000)) := by
  have hbody : (get_metrics served labeled sizes now).body
      = write (page_families served labeled sizes (now.toNat / 1_000_000)) :=
    (wrote_page served labeled sizes (now.toNat / 1_000_000)).writer
  rw [hbody, read_write (wellFormed_page_families served labeled sizes _)
    (nodup_page_families served labeled sizes _)]

/-- **The page of metrics reads back**: for every state of the canister and every registry, with
any texts in the labels, a reader of the format gets each counter and gauge once, and each
labelled metric that has a series once, with its series, no two of them with the same labels.

What the encoder writes is the text that `Exposition.write` gives for the families of the page
(`wrote_page`), and the round trip of that module does the rest. It needs the names of the page to
be distinct and all fixed texts to keep to their lines, both of which are checked. -/
theorem read_get_metrics (now : UInt64) :
    read (get_metrics served labeled sizes now).body
        = some (page_families served labeled sizes (now.toNat / 1_000_000))
      ∧ ∀ family ∈ page_families served labeled sizes (now.toNat / 1_000_000),
          (family.series.map Series.labels).Nodup := by
  refine ⟨read_page served labeled sizes now, ?_⟩
  exact nodup_page_labels served labeled sizes _

/-! ## A series on the page

The page read back, and the registry after a history of observations, put together: from the
numbers a reader gets one can tell how many calls ended in which way. -/

/-- A series that a reader of a page finds. Labels and values are compared as texts, after the
reader has undone the escapes. -/
def Shown (families : List Family) (name : String) (labels : LabelPairs) (value : Text) : Prop :=
  ∃ family ∈ families, family.name = name.toList
    ∧ ∃ series ∈ family.series,
        series.labels = label_texts (label_refs labels) ∧ series.value = value

/-- The page shows the series of a labelled metric that its map holds, and no others. The names of
the page are distinct, so the series of a metric are found in one place only. -/
theorem shown_iff {metric : LabeledMetric} (hmetric : metric ∈ labeled_metrics) (now_millis : ℕ)
    (labels : LabelPairs) (value : Text) :
    Shown (page_families served labeled sizes now_millis) metric.name.into labels value
      ↔ ∃ n, (metric.map labeled)[(metric.name, labels)]? = some n ∧ value = display n := by
  constructor
  · rintro ⟨family, hfamily, hname, series, hseries, hlabels, hvalue⟩
    rw [page_families, List.mem_append, List.mem_map, List.mem_filterMap] at hfamily
    rcases hfamily with ⟨single, hsingle, rfl⟩ | ⟨other, hother, hsome⟩
    · -- no metric of one series has the name of a labelled one
      have hnames := (List.nodup_append.mp (nodup_page_names served sizes)).2.2
      exact absurd (String.toList_inj.mp hname)
        (hnames single.name (List.mem_map_of_mem hsingle) metric.name.into
          (List.mem_map_of_mem (f := fun metric => metric.name.into) hmetric))
    · rw [name_family hsome] at hname hseries
      have hnodup : (labeled_metrics.map LabeledMetric.name).Nodup := by decide
      have heq : other = metric := List.inj_on_of_nodup_map hnodup hother hmetric
        (MetricName.into_injective (String.toList_inj.mp hname))
      subst heq
      obtain ⟨⟨⟨entry_name, entry_labels⟩, n⟩, hentry, rfl⟩ := List.mem_map.mp hseries
      have hentry_name : entry_name = other.name := by
        rw [LabeledMetric.entries_eq] at hentry
        exact of_decide_eq_true (List.mem_filter.mp hentry).2
      subst hentry_name
      have hentry_labels : entry_labels = labels := label_texts_refs_injective hlabels
      subst hentry_labels
      exact ⟨n, (LabeledMetric.mem_entries labeled).mp hentry, hvalue.symm⟩
  · rintro ⟨n, hn, rfl⟩
    have hentry := (LabeledMetric.mem_entries labeled).mpr hn
    have hsome : metric.family now_millis labeled
        = some (metric.family_of now_millis (metric.entries labeled)) := by
      rw [LabeledMetric.family, if_neg (List.ne_nil_of_mem hentry)]
    refine ⟨metric.family_of now_millis (metric.entries labeled), ?_, rfl,
      labeled_series now_millis ((metric.name, labels), n), List.mem_map_of_mem hentry, rfl, rfl⟩
    rw [page_families, List.mem_append]
    exact Or.inr (List.mem_filterMap.mpr ⟨metric, hmetric, hsome⟩)

/-- The page shows the series of a counter. -/
theorem shown_counter {name : MetricName}
    (hname : ∃ help, LabeledMetric.mk "counter" name help ∈ labeled_metrics) (now_millis : ℕ)
    (labels : LabelPairs) (value : Text) :
    Shown (page_families served labeled sizes now_millis) name.into labels value
      ↔ ∃ n, labeled.counters[(name, labels)]? = some n ∧ value = display n := by
  obtain ⟨help, hmetric⟩ := hname
  exact shown_iff served labeled sizes hmetric now_millis labels value

/-- The page shows the series of a gauge. -/
theorem shown_gauge {name : MetricName}
    (hname : ∃ help, LabeledMetric.mk "gauge" name help ∈ labeled_metrics) (now_millis : ℕ)
    (labels : LabelPairs) (value : Text) :
    Shown (page_families served labeled sizes now_millis) name.into labels value
      ↔ ∃ n, labeled.gauges[(name, labels)]? = some n ∧ value = display n := by
  obtain ⟨help, hmetric⟩ := hname
  exact shown_iff served labeled sizes hmetric now_millis labels value

end Page

/-- **What monitoring reads off the page about an exchange**: after any history of calls, rounds
of the forex sources and refreshes, in any order, the page shows for an exchange, a kind of call
and an outcome the number of calls that ended so, if there were any, and for an exchange and a
kind the time of the last call that gave a rate other than zero.

Three results in a row: what the registry holds after the history (`exchange_fetches_counted`,
`exchange_last_success`), what the page shows of a registry (`shown_iff`), and what a reader gets
of the page. -/
theorem scraped_exchange_calls [Unicode] {L : Type} (served : Served L) (sizes : Sizes)
    (start : ℕ) (history : List Observation) (now : UInt64) :
    ∃ families,
      read (get_metrics served ((LabeledMetrics.new start).observed history) sizes now).body
          = some families
        ∧ (∀ name kind outcome value,
          Shown families "xrc_exchange_fetch_total"
              [(.Exchange, name), (.Kind, kind.into), (.Outcome, outcome.into)] value
            ↔ 0 < history.countP (Observation.is_fetch name kind outcome)
              ∧ value = display
                (min (history.countP (Observation.is_fetch name kind outcome)) (2 ^ 64 - 1)))
        ∧ ∀ (exchange : Exchange) kind value,
          Shown families "xrc_exchange_last_success_seconds"
              [(.Exchange, exchange.name), (.Kind, kind.into)] value
            ↔ ∃ secs, ((history.filterMap
                  (Observation.success_time exchange.name kind)).getLast?).or
                (if kind = .Stablecoin ∧ exchange.supported_stablecoin_pairs = [] then none
                else some start) = some secs ∧ value = display secs := by
  refine ⟨_, read_page served _ sizes now, ?_, ?_⟩
  · intro name kind outcome value
    have hshown := shown_counter served ((LabeledMetrics.new start).observed history) sizes
      ⟨_, List.mem_cons_self⟩ (now.toNat / 1_000_000)
      [(.Exchange, name), (.Kind, kind.into), (.Outcome, outcome.into)] value
    -- the series of the counter is there once something was counted
    have hcount := exchange_fetches_counted start history name kind outcome
    rw [fetch_key] at hcount
    refine hshown.trans ?_
    rw [hcount]
    split
    · rename_i hzero
      simp [hzero]
    · rename_i hne
      simp [Nat.pos_of_ne_zero hne, wordMax]
  · intro exchange kind value
    have hshown := shown_gauge served ((LabeledMetrics.new start).observed history) sizes
      ⟨_, List.mem_cons_of_mem _ List.mem_cons_self⟩ (now.toNat / 1_000_000)
      [(.Exchange, exchange.name), (.Kind, kind.into)] value
    -- the gauge is there from the start, unless the exchange has no stablecoins
    have hlast := exchange_last_success start history exchange kind
    rw [last_success_key] at hlast
    refine hshown.trans ?_
    rw [hlast]

end Xrc
