/-
From the responses of the forex sources to the forex store, over whole runs. A round of outcalls
asks the sources that are due, each for its own day under its own URL, and what comes back goes
through the transforms, the parsers, the collector and the medians.

`QuotedBy` says of a single number that a source published it for a day. It holds of everything
the collector and the store ever contain, or, for the computed XDR rate, of all it is computed of
(`stored_rates_were_published`).
-/
import Xrc.HttpOutcall
import Xrc.Publication
import Xrc.StoredDays
import Xrc.ForexSchedule

set_option autoImplicit false

namespace Xrc.periodic

open Machine

/-- A source's own day. -/
theorem lookup_of_mem {days : List (Forex × ℕ)} (hnodup : (days.map Prod.fst).Nodup)
    {p : Forex × ℕ} (hp : p ∈ days) : days.lookup p.1 = some p.2 := by
  induction days with
  | nil => cases hp
  | cons first days ih =>
      rw [List.map_cons, List.nodup_cons] at hnodup
      rw [List.lookup_cons]
      rcases List.mem_cons.mp hp with rfl | hrest
      · rw [beq_self_eq_true]
      · have hne : p.1 ≠ first.1 := by
          intro heq
          exact hnodup.1 (heq ▸ List.mem_map_of_mem hrest)
        rw [beq_eq_false_iff_ne.mpr hne]
        exact ih hnodup.2 hrest

section Calls

variable [Features] [F64] [Chrono] [Unicode] [Encoding] [ExchangeSerde] [ForexSerde] [Subnet]

/-! ## A round of outcalls

The loop over the sources that are due. Each is called once, for its own day, with its own
answer from the management canister; an empty map counts as an error. -/

/-- The call of a source for a day, the empty answer being an error. -/
def call_source (management : Management) (p : Forex × ℕ) :
    Except CallForexError ForexRateMap :=
  match call_forex management p.1 ⟨p.1.offset_timestamp_for_query p.2⟩ with
  | .ok map => if map.entries.isEmpty then .error (.Empty p.1.to_string) else .ok map
  | .error error => .error error

/-- `ForexSourcesImpl::call`, of the sources that are due: the rates and the errors. -/
def ForexSources.call (management : Management) (called : List (Forex × ℕ)) :
    List (String × ℕ × ForexRateMap) × List (String × CallForexError) :=
  (called.filterMap fun p =>
      match call_source management p with
      | .ok map => some (p.1.to_string, p.2, map)
      | .error _ => none,
    called.filterMap fun p =>
      match call_source management p with
      | .ok _ => none
      | .error error => some (p.1.to_string, error))

/-- What each source answers in a round. -/
def answer_of (management : Management) (called : List (Forex × ℕ)) (forex : Forex) :
    Option ForexRateMap :=
  (called.lookup forex).bind fun day =>
    (call_forex management forex ⟨forex.offset_timestamp_for_query day⟩).toOption

/-- The answers of a round are the rates that `ForexSourcesImpl::call` returns. -/
theorem forex_rates_answer_of (management : Management) {called : List (Forex × ℕ)}
    (hnodup : (called.map Prod.fst).Nodup) :
    forex_rates called (answer_of management called) = (ForexSources.call management called).1 := by
  rw [forex_rates, ForexSources.call]
  apply List.filterMap_congr
  intro p hp
  dsimp only
  rw [answer_of, lookup_of_mem hnodup hp, Option.bind_some, call_source]
  cases call_forex management p.1 ⟨p.1.offset_timestamp_for_query p.2⟩ with
  | error error => rfl
  | ok map =>
      dsimp only [Except.toOption]
      split <;> rfl

/-! ## What a source published

The property that is followed through the canister, on a single number: some source's raw
response quotes it for the symbol, under the date of the day. For Bosnia and Georgia that date
is the next day, as this is what they are asked for. -/

/-- The day a source's response must be dated for a day of the collector. -/
def queried_day (forex : Forex) (day : ℕ) : ℕ := forex.offset_timestamp_for_query day

/-- A raw response of a source to the request for a day held the rates, under that date. The day
in the response is the one that was queried, which for two of the sources is the day after. -/
structure PublishedFor (managements : List Management) (forex : Forex) (day : ℕ)
    (rates : ForexRateMap) : Prop where
  received : ∃ management ∈ managements, ∃ context raw,
    forex.encode_context ⟨queried_day forex day⟩ = .ok context
      ∧ management.Received (forex_request management forex ⟨queried_day forex day⟩ context) raw
      ∧ forex.PublishedIn raw.body (queried_day forex day) rates

/-- A number was published as the rate of a symbol on a day. The source need not be known, since
the collector keeps the numbers of a day without their sources. -/
def QuotedBy (managements : List Management) (day : ℕ) (symbol : String) (value : ℕ) : Prop :=
  ∃ forex rates, PublishedFor managements forex day rates ∧ value ∈ rates.quotes symbol

theorem PublishedFor.mono {managements more : List Management} (h : managements ⊆ more)
    {forex : Forex} {day : ℕ} {rates : ForexRateMap}
    (hpublished : PublishedFor managements forex day rates) :
    PublishedFor more forex day rates := by
  obtain ⟨management, hmem, hreceived⟩ := hpublished.received
  exact ⟨management, h hmem, hreceived⟩

theorem QuotedBy.mono {managements more : List Management} (h : managements ⊆ more) {day : ℕ}
    {symbol : String} {value : ℕ} (hquoted : QuotedBy managements day symbol value) :
    QuotedBy more day symbol value := by
  obtain ⟨forex, rates, hpublished, hvalue⟩ := hquoted
  exact ⟨forex, rates, hpublished.mono h, hvalue⟩

/-- A day a source can be asked for: its response is dated after the epoch. All days that
heartbeats lead to are of this kind, as long as their times are in range. -/
structure Askable (forex : Forex) (day : ℕ) : Prop where
  start : start_of_day day = day
  queried_start : start_of_day (queried_day forex day) = queried_day forex day
  queried_pos : 0 < queried_day forex day
  queried_lt : queried_day forex day < 2 ^ 63

/-- What a source answers it published. It is filed under the day the source was called for, and
that is the day of the response up to the shift of the source. -/
theorem published_of_answer {management : Management} {called : List (Forex × ℕ)}
    (hcalled : ∀ p ∈ called, Askable p.1 p.2) {answer : String × ℕ × ForexRateMap}
    (h : answer ∈ (ForexSources.call management called).1) :
    start_of_day answer.2.1 = answer.2.1
      ∧ ∃ forex, PublishedFor [management] forex answer.2.1 answer.2.2 := by
  obtain ⟨p, hp, hsome⟩ := List.mem_filterMap.mp h
  have haskable := hcalled p hp
  rw [call_source] at hsome
  have hreads := call_forex_reads management p.1 ⟨p.1.offset_timestamp_for_query p.2⟩
  -- only an answer with rates in it is collected
  cases hcall : call_forex management p.1 ⟨p.1.offset_timestamp_for_query p.2⟩ with
  | error error =>
      rw [hcall] at hsome
      cases hsome
  | ok map =>
      rw [hcall] at hsome hreads
      dsimp only at hsome
      split_ifs at hsome
      cases hsome
      obtain ⟨context, raw, hcontext, hreceived, hextract⟩ := hreads
      -- and its rates were extracted from a response for the day that was queried
      have hpublished := Forex.extract_rate_publishes haskable.queried_pos haskable.queried_lt
        haskable.queried_start hextract
      exact ⟨haskable.start, p.1, management, List.mem_singleton_self _, context, raw, hcontext,
        hreceived, hpublished⟩

/-! ## The invariant

The collector only adds numbers and the filter of a stored rate only leaves some out, so each
remains one that was published. The computed rate is none, but it is made of the medians of
numbers that are. -/

/-- Every entry of a store has a property. -/
def Entries (P : ℕ → String → QueriedExchangeRate → Prop) (store : ForexRateStore) : Prop :=
  ∀ day rates, store.rates day = some rates → ∀ symbol rate, rates symbol = some rate →
    P day symbol rate

/-- What is collected for a day was published for it. What is collected are numbers, and computed
rates are not among them. -/
def DayQuoted (managements : List Management) (odc : OneDayRatesCollector) : Prop :=
  ∀ symbol, ∀ value ∈ odc.quotes symbol, QuotedBy managements odc.timestamp symbol value

/-- All numbers behind a rate were published, or it is the XDR rate, computed of the medians of
numbers that were. The collector in the second case need not be the one of the present state; it
is the one the rate was computed from. -/
inductive RateQuoted (managements : List Management) (day : ℕ) (symbol : String)
    (rate : QueriedExchangeRate) : Prop where
  | quoted (h : ∀ value ∈ rate.rates, QuotedBy managements day symbol value) :
      RateQuoted managements day symbol rate
  | computed (hsymbol : symbol = COMPUTED_XDR_SYMBOL) (odc : OneDayRatesCollector)
      (hday : odc.timestamp = day) (hquoted : DayQuoted managements odc)
      (hrate : odc.get_computed_xdr_rate = some rate) : RateQuoted managements day symbol rate

/-- What the collector holds was published, for the beginning of each of its days. -/
structure CollectorQuoted (managements : List Management) (collector : ForexRatesCollector) :
    Prop where
  aligned : Aligned collector
  quoted : ∀ odc ∈ collector.days, DayQuoted managements odc

/-- What holds between two events. -/
structure AllPublished (managements : List Management) (s : ForexState) : Prop where
  collected : CollectorQuoted managements s.collector
  stored : Entries (RateQuoted managements) s.forex_store
  calls : ∀ timestamp called, s.updating = some (timestamp, called) →
    (called.map Prod.fst).Nodup ∧ ∀ p ∈ called, Askable p.1 p.2

theorem DayQuoted.mono {managements more : List Management} (h : managements ⊆ more)
    {odc : OneDayRatesCollector} (hquoted : DayQuoted managements odc) : DayQuoted more odc :=
  fun symbol value hvalue => (hquoted symbol value hvalue).mono h

theorem RateQuoted.mono {managements more : List Management} (h : managements ⊆ more) {day : ℕ}
    {symbol : String} {rate : QueriedExchangeRate}
    (hquoted : RateQuoted managements day symbol rate) : RateQuoted more day symbol rate := by
  cases hquoted with
  | quoted hquoted => exact .quoted fun value hvalue => (hquoted value hvalue).mono h
  | computed hsymbol odc hday hquoted hrate =>
      exact .computed hsymbol odc hday (hquoted.mono h) hrate

theorem allPublished_new (managements : List Management) :
    AllPublished managements ForexState.new where
  collected := ⟨fun odc hodc => absurd hodc List.not_mem_nil,
    fun odc hodc => absurd hodc List.not_mem_nil⟩
  stored := fun day rates hrates => by cases hrates
  calls := fun timestamp called hcalled => by cases hcalled

section Collecting

variable {managements : List Management} {collector : ForexRatesCollector}

/-- One answer. -/
theorem CollectorQuoted.update (h : CollectorQuoted managements collector) (source : String)
    {timestamp : ℕ} {rates : ForexRateMap} (hstart : start_of_day timestamp = timestamp)
    (hrates : ∃ forex, PublishedFor managements forex timestamp rates) :
    CollectorQuoted managements (collector.update source timestamp rates).1 := by
  refine ⟨h.aligned.update source timestamp rates, ?_⟩
  obtain ⟨forex, hpublished⟩ := hrates
  -- a number was there before, or it is one of the answer's
  intro odc hodc symbol value hvalue
  rcases ForexRatesCollector.mem_days_update hodc with hold | ⟨old, hold, htime, rfl⟩ | ⟨-, rfl⟩
  · exact h.quoted odc hold symbol value hvalue
  · rw [OneDayRatesCollector.quotes_update, Multiset.mem_add] at hvalue
    rw [OneDayRatesCollector.update_timestamp]
    rcases hvalue with hbefore | hnew
    · exact h.quoted old hold symbol value hbefore
    · rw [htime, hstart]
      exact ⟨forex, rates, hpublished, hnew⟩
  · rw [OneDayRatesCollector.quotes_update, Multiset.mem_add] at hvalue
    rw [OneDayRatesCollector.update_timestamp]
    rcases hvalue with hbefore | hnew
    · exact absurd hbefore (Multiset.notMem_zero _)
    · rw [show (OneDayRatesCollector.new (start_of_day timestamp)).timestamp = timestamp from hstart]
      exact ⟨forex, rates, hpublished, hnew⟩

/-- All answers of a round. -/
theorem CollectorQuoted.collect (answers : List (String × ℕ × ForexRateMap)) :
    ∀ {acc : ForexRatesCollector × List ℕ}, CollectorQuoted managements acc.1 →
      (∀ answer ∈ answers, start_of_day answer.2.1 = answer.2.1
        ∧ ∃ forex, PublishedFor managements forex answer.2.1 answer.2.2) →
      CollectorQuoted managements (answers.foldl collect_step acc).1 := by
  induction answers with
  | nil => exact fun h _ => h
  | cons answer answers ih =>
      intro acc h hanswers
      obtain ⟨hstart, hpublished⟩ := hanswers answer List.mem_cons_self
      apply ih (h.update answer.1 hstart hpublished)
      exact fun a ha => hanswers a (List.mem_cons_of_mem _ ha)

/-- What a day of the collector is stored as. -/
theorem CollectorQuoted.rateQuoted (h : CollectorQuoted managements collector)
    {odc : OneDayRatesCollector} (hodc : odc ∈ collector.days) {symbol : String}
    {rate : QueriedExchangeRate} (hrate : odc.get_rates_map symbol = some rate) :
    RateQuoted managements odc.timestamp symbol rate := by
  have hquoted := h.quoted odc hodc
  -- the filter of the constructor only leaves rates out
  have hcollected : odc.collected_rate symbol = some rate →
      RateQuoted managements odc.timestamp symbol rate := by
    intro hcollected
    rw [OneDayRatesCollector.collected_rate] at hcollected
    split at hcollected
    · cases hcollected
    · obtain ⟨rates, hrates, rfl⟩ := Option.map_eq_some_iff.mp hcollected
      apply RateQuoted.quoted
      intro value hvalue
      rw [QueriedExchangeRate.new_rates, mem_sort, List.mem_filter] at hvalue
      apply hquoted symbol value
      rw [OneDayRatesCollector.quotes, hrates]
      exact hvalue.1
  by_cases hcxdr : symbol = COMPUTED_XDR_SYMBOL
  · rw [hcxdr, OneDayRatesCollector.get_rates_map_cxdr, Option.or_eq_some_iff] at hrate
    -- the computed rate comes first, then one that was quoted under its symbol
    rcases hrate with hcomputed | ⟨-, hrate⟩
    · exact .computed hcxdr odc rfl hquoted hcomputed
    · exact hcollected (hcxdr ▸ hrate)
  · rw [OneDayRatesCollector.get_rates_map_of_ne odc hcxdr] at hrate
    exact hcollected hrate

/-- A day that is stored. -/
theorem CollectorQuoted.store (h : CollectorQuoted managements collector) {store : ForexRateStore}
    (hstore : Entries (RateQuoted managements) store) (timestamp : ℕ) :
    Entries (RateQuoted managements) (store_step collector store timestamp) := by
  rw [store_step]
  cases hmap : collector.get_rates_map timestamp with
  | none => exact hstore
  | some rates =>
      obtain ⟨odc, hodc, rfl⟩ := Option.map_eq_some_iff.mp hmap
      have hmem := List.mem_of_find?_eq_some hodc
      have htime : odc.timestamp = timestamp := by simpa using List.find?_some hodc
      have hday : start_of_day timestamp = odc.timestamp := by
        rw [← htime]
        exact h.aligned odc hmem
      intro day stored hstored symbol rate hrate
      by_cases hsame : day = start_of_day timestamp
      · -- an entry of a merged day is one of the two
        subst hsame
        rw [ForexRateStore.put_rates_self] at hstored
        rw [← Option.some.inj hstored] at hrate
        rcases (ForexRateStore.merge_entry_spec hrate).1 with hold | hnew
        · obtain ⟨before, hbefore, hentry⟩ := Option.bind_eq_some_iff.mp hold
          exact hstore _ before hbefore symbol rate hentry
        · have hne : symbol ≠ USD := by
            rintro rfl
            rw [Function.update_self] at hnew
            cases hnew
          rw [Function.update_of_ne hne] at hnew
          rw [hday]
          exact h.rateQuoted hmem hnew
      · rw [ForexRateStore.put_rates_of_ne _ _ hsame] at hstored
        exact hstore day stored hstored symbol rate hrate

/-- All days that are stored. -/
theorem CollectorQuoted.store_all (h : CollectorQuoted managements collector) (days : List ℕ) :
    ∀ {store : ForexRateStore}, Entries (RateQuoted managements) store →
      Entries (RateQuoted managements) (days.foldl (store_step collector) store) := by
  induction days with
  | nil => exact fun hstore => hstore
  | cons day days ih => exact fun hstore => ih (h.store hstore day)

end Collecting

/-! ## Runs

Rounds of outcalls may find the canister in any state, and upgrades keep the store only. The
managements of all rounds so far are the witnesses, so the property is monotone in them. -/

section Runs

variable [Calendar]

/-- What can happen to the forex update, with the management canister that answers a round. -/
inductive OutcallEvent where
  | heartbeat (timestamp : ℕ)
  | outcalls (management : Management)
  | upgraded

/-- The event of the forex update. -/
def OutcallEvent.forex_event (s : ForexState) : OutcallEvent → ForexEvent
  | .heartbeat timestamp => .heartbeat timestamp
  | .outcalls management => .answers
      (match s.updating with
      | some (_, called) => answer_of management called
      | none => fun _ => none)
  | .upgraded => .upgraded

/-- One event. -/
def outcall_step (s : ForexState) (event : OutcallEvent) : ForexState :=
  step s (event.forex_event s)

/-- A whole run. -/
def outcall_run (s : ForexState) (events : List OutcallEvent) : ForexState :=
  events.foldl outcall_step s

/-- The rounds of outcalls in a run. -/
def rounds (events : List OutcallEvent) : List Management :=
  events.filterMap fun event =>
    match event with
    | .outcalls management => some management
    | _ => none

/-- The time of a heartbeat is three days after the epoch, and the end of the calendar is far. The
bounds keep the days that are queried, a day or two before the heartbeat, in the range of the
calendar as well. -/
def OutcallEvent.Timely : OutcallEvent → Prop
  | .heartbeat timestamp => 3 * ONE_DAY_SECONDS ≤ timestamp ∧ timestamp < 2 ^ 42
  | _ => True

omit [F64] [Chrono] [Unicode] [Encoding] [ExchangeSerde] [ForexSerde] [Subnet] [Calendar] in
/-- The day a source is asked for. It is at least one day after the epoch, so that the date of the
response is a positive number. -/
theorem askable_key_timestamp {timestamp : ℕ}
    (h : 3 * ONE_DAY_SECONDS ≤ timestamp ∧ timestamp < 2 ^ 42) (forex : Forex) :
    Askable forex (key_timestamp forex (start_of_day_timestamp timestamp)) := by
  have hday : ONE_DAY_SECONDS = 86_400 := by decide
  have hrange : InRange timestamp := ⟨by omega, h.2⟩
  obtain ⟨hdvd, hle, hge⟩ := key_timestamp_spec hrange forex
  generalize key_timestamp forex (start_of_day_timestamp timestamp) = key at hdvd hle hge
  unfold yesterday start_of_day_timestamp at hle hge
  rw [hday] at hdvd hle hge h
  have hstart : start_of_day key = key := by
    rw [start_of_day, hday]
    omega
  -- the day itself, or the one after it
  have hquery : queried_day forex key = key
      ∨ queried_day forex key = wrapping_mul 64 (key / ONE_DAY_SECONDS + 1) ONE_DAY_SECONDS := by
    unfold queried_day Forex.offset_timestamp_for_query
    split
    · exact Or.inl rfl
    · cases forex <;> first | exact Or.inl rfl | exact Or.inr rfl
  rcases hquery with heq | heq
  · refine ⟨hstart, ?_, ?_, ?_⟩ <;> rw [heq]
    · exact hstart
    · omega
    · omega
  · rw [hday, wrapping_mul_eq (by omega)] at heq
    refine ⟨hstart, ?_, ?_, ?_⟩ <;> rw [heq]
    · rw [start_of_day, hday]
      omega
    · omega
    · omega

omit [F64] [Chrono] [Unicode] [Encoding] [ExchangeSerde] [ForexSerde] [Subnet] in
/-- An update calls a source at most once. The sources are those of a list without duplicates,
each with its own day. -/
theorem nodup_called (collector : ForexRatesCollector) (timestamp : ℕ) :
    ((get_forexes_with_timestamps_and_context collector timestamp).map Prod.fst).Nodup := by
  have hsources : FOREX_SOURCES.Nodup := by decide
  rw [get_forexes_with_timestamps_and_context, List.map_filterMap]
  apply hsources.filterMap
  intro forex other called hforex hother
  rw [Option.mem_def, Option.map_eq_some_iff] at hforex hother
  obtain ⟨p, hp, rfl⟩ := hforex
  obtain ⟨q, hq, hfst⟩ := hother
  -- both entries carry the source they were made for
  have hp' : p.1 = forex := by
    split at hp
    · cases hp
      rfl
    · cases hp
  have hq' : q.1 = other := by
    split at hq
    · cases hq
      rfl
    · cases hq
  rw [← hp', ← hq', hfst]

namespace AllPublished

variable {managements : List Management} {s : ForexState}

omit [Calendar] in
theorem mono (h : AllPublished managements s) {more : List Management}
    (hsub : managements ⊆ more) : AllPublished more s where
  collected := ⟨h.collected.aligned, fun odc hodc => (h.collected.quoted odc hodc).mono hsub⟩
  stored := fun day rates hrates symbol rate hrate =>
    (h.stored day rates hrates symbol rate hrate).mono hsub
  calls := h.calls

/-- A heartbeat calls sources for days they can be asked for. -/
theorem heartbeat (h : AllPublished managements s) {timestamp : ℕ}
    (htimely : (OutcallEvent.heartbeat timestamp).Timely) :
    AllPublished managements (start_update s timestamp) := by
  unfold start_update
  split_ifs
  · exact h
  · exact h
  · refine ⟨h.collected, h.stored, ?_⟩
    intro started called hcalled
    obtain ⟨rfl, rfl⟩ := Prod.mk.inj (Option.some.inj hcalled)
    refine ⟨nodup_called _ _, ?_⟩
    rintro ⟨forex, day⟩ hmem
    rw [(mem_called_iff.mp hmem).1]
    exact askable_key_timestamp htimely forex

/-- A round of outcalls brings in what the sources published. -/
theorem outcalls (h : AllPublished managements s) (management : Management) :
    AllPublished (managements ++ [management])
      (outcall_step s (.outcalls management)) := by
  have hold : managements ⊆ managements ++ [management] := List.subset_append_left _ _
  have hfinish : outcall_step s (.outcalls management) = finish_update s
      (match s.updating with
      | some (_, called) => answer_of management called
      | none => fun _ => none) := rfl
  rw [hfinish, finish_update]
  -- answers without an update under way are ignored
  cases hupdating : s.updating with
  | none => exact h.mono hold
  | some update =>
      obtain ⟨timestamp, called⟩ := update
      dsimp only
      obtain ⟨hnodup, haskable⟩ := h.calls timestamp called hupdating
      rw [forex_rates_answer_of management hnodup]
      -- what is collected was published in this round, or in an earlier one
      have hcollected : CollectorQuoted (managements ++ [management])
          ((ForexSources.call management called).1.foldl collect_step (s.collector, [])).1 := by
        apply CollectorQuoted.collect _ (h.mono hold).collected
        intro answer hanswer
        obtain ⟨hstart, forex, hpublished⟩ := published_of_answer haskable hanswer
        exact ⟨hstart, forex, hpublished.mono (List.subset_append_right _ _)⟩
      refine ⟨hcollected, hcollected.store_all _ (h.mono hold).stored, ?_⟩
      rintro _ _ ⟨⟩

omit [Calendar] in
/-- An upgrade keeps the store only. -/
theorem upgraded (h : AllPublished managements s) : AllPublished managements (upgrade s) where
  collected := (allPublished_new managements).collected
  stored := h.stored
  calls := (allPublished_new managements).calls

/-- Every event. -/
theorem step (h : AllPublished managements s) {event : OutcallEvent} (htimely : event.Timely) :
    AllPublished (managements ++ rounds [event]) (outcall_step s event) := by
  cases event with
  | heartbeat timestamp =>
      apply (h.heartbeat htimely).mono
      exact List.subset_append_left _ _
  | outcalls management => exact h.outcalls management
  | upgraded =>
      apply h.upgraded.mono
      exact List.subset_append_left _ _

end AllPublished

/-- What holds after every run. -/
theorem allPublished_run (events : List OutcallEvent) :
    (∀ event ∈ events, event.Timely) →
      AllPublished (rounds events) (outcall_run ForexState.new events) := by
  -- from the last event back, each round of which adds the management canister it had
  induction events using List.reverseRecOn with
  | nil => exact fun _ => allPublished_new []
  | append_singleton events event ih =>
      intro htimely
      have hbefore := ih fun e he => htimely e (List.mem_append_left _ he)
      rw [outcall_run, List.foldl_append, rounds, List.filterMap_append]
      exact hbefore.step (htimely event (List.mem_append_right _ List.mem_cons_self))

end Runs

end Calls

/-! ## The run

The invariant at the end of a run, for heartbeats at least three days after the epoch: up to
then the yesterday of a source can be the epoch itself, which is also what a date that cannot be
read counts as. -/

section Published

variable [Features] [F64] [Chrono] [Unicode] [Encoding] [ExchangeSerde] [ForexSerde] [Subnet]
  [Calendar]

/-- **Every rate of the forex store was published.** Whatever the sources, the network and the
clock do, each number the collector holds for a day, and each number behind a stored rate, is the
rate that the raw response of some source quotes for that symbol under the date of that day, in a
response the management canister received for the source's request for the day. The XDR rate that
is stored with them is computed of such numbers.

The days are those the collector counts by. A heartbeat is three days after the epoch at least,
and before `2 ^ 42` seconds; Bosnia's and Georgia's responses are dated the next day, as
`queried_day` says; and the currency a source quotes in need not be quoted itself but counts as
one. -/
theorem stored_rates_were_published (events : List OutcallEvent)
    (htimely : ∀ event ∈ events, event.Timely) :
    (∀ odc ∈ (outcall_run ForexState.new events).collector.days, DayQuoted (rounds events) odc)
    ∧ ∀ day rates, (outcall_run ForexState.new events).forex_store.rates day = some rates →
        ∀ symbol rate, rates symbol = some rate →
          RateQuoted (rounds events) day symbol rate := by
  have hall := allPublished_run events htimely
  exact ⟨hall.collected.quoted, fun day rates hrates symbol rate hrate =>
    hall.stored day rates hrates symbol rate hrate⟩

end Published

/-! ### One answer, of Myanmar's central bank

A single round, with one source that answers, whose euro ends up in the store. -/

/-- `{"timestamp":1699833600,"rates":{"USD":"2100","EUR":"2310"}}`. -/
def kyatBody : Bytes :=
  [123, 34, 116, 105, 109, 101, 115, 116, 97, 109, 112, 34, 58, 49, 54, 57, 57, 56, 51, 51, 54, 48,
    48, 44, 34, 114, 97, 116, 101, 115, 34, 58, 123, 34, 85, 83, 68, 34, 58, 34, 50, 49, 48, 48, 34,
    44, 34, 69, 85, 82, 34, 58, 34, 50, 51, 49, 48, 34, 125, 125]

/-- The day, encoded. -/
def kyatPayload : Bytes := [68, 73, 68, 76, 0, 1, 120, 0, 103, 81, 101, 0, 0, 0, 0]

/-- The rates of the body in dollars. -/
def kyatRates : ForexRateMap :=
  ForexRateMap.collect [("USD", 1_000_000_000), ("EUR", 1_100_000_000)]

@[reducible] def kyatEncoding : Encoding :=
  oneOfEach (0, []) (none, []) ((∅, 0), []) (1_699_833_600, kyatPayload)
    (⟨0, kyatPayload⟩,
      [68, 73, 68, 76, 2, 108, 2, 219, 183, 1, 120, 142, 255, 214, 233, 14, 1, 109, 123, 1, 0, 0, 0,
        0, 0, 0, 0, 0, 0, 15] ++ kyatPayload)
    (kyatRates,
      [68, 73, 68, 76, 2, 109, 1, 108, 2, 0, 113, 1, 120, 1, 0, 2, 3, 69, 85, 82, 0, 171, 144, 65, 0,
        0, 0, 0, 3, 85, 83, 68, 0, 202, 154, 59, 0, 0, 0, 0])

/-- A deserializer that knows this body only. -/
@[reducible] def kyatSerde : @ForexSerde fractions :=
  let _ := fractions
  { from_slice := fun forex body =>
      match forex with
      | .CentralBankOfMyanmar =>
        if body = kyatBody then .ok ⟨1_699_833_600, [("USD", "2100"), ("EUR", "2310")]⟩
        else .error "expected value"
      | _ => .error "expected value" }

theorem stored_euro_was_published :
    letI := defaultBuild
    letI := weekdays
    letI := asciiUnicode
    letI := fractions
    letI := oneDate
    letI := kyatEncoding
    letI : ExchangeSerde := ⟨fun _ _ => .error "expected value", fun _ _ => .error "expected value"⟩
    letI := kyatSerde
    letI : Subnet := ⟨false⟩
    QuotedBy [oneBody kyatBody] 1_699_833_600 "EUR" 1_100_000_000 := by
  let _ := defaultBuild
  let _ := weekdays
  let _ := asciiUnicode
  let _ := fractions
  let _ := oneDate
  let _ := kyatEncoding
  let _ : ExchangeSerde := ⟨fun _ _ => .error "expected value", fun _ _ => .error "expected value"⟩
  let _ := kyatSerde
  let _ : Subnet := ⟨false⟩
  -- the euro is in the store after the round
  have hstored : (((outcall_run ForexState.new
        [.heartbeat 1_700_000_000, .outcalls (oneBody kyatBody)]).forex_store.rates
          1_699_833_600).bind fun rates => rates "EUR").map QueriedExchangeRate.rates
      = some [1_100_000_000] := by
    decide +kernel
  obtain ⟨rate, hrate, hvalues⟩ := Option.map_eq_some_iff.mp hstored
  obtain ⟨rates, hrates, hsymbol⟩ := Option.bind_eq_some_iff.mp hrate
  have htimely : ∀ event ∈ [OutcallEvent.heartbeat 1_700_000_000, .outcalls (oneBody kyatBody)],
      event.Timely := by
    intro event hevent
    rcases List.mem_cons.mp hevent with rfl | hsecond
    · exact ⟨by decide, by decide⟩
    · rw [List.mem_singleton.mp hsecond]
      trivial
  cases (stored_rates_were_published _ htimely).2 _ rates hrates _ rate hsymbol with
  | quoted hquoted =>
      apply hquoted
      rw [hvalues]
      exact List.mem_singleton_self _
  | computed heuro => exact absurd heuro (by decide)

end Xrc.periodic
