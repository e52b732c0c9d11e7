/-
The listing refresh with its metrics. `update_listing_store` records every fetched listing as
it offers it to the store: the gauges of an accepted one, the reason of one that is not.

`Monitored` is the state of `Xrc.ListingSchedule` with the registry beside it. Over every run
the gauges of an exchange are those of its stored listing from the first accepted refresh on,
and the refreshes that were refused are those counted under the two reasons
(`listing_metrics`).
-/
import Xrc.ListingSchedule
import Xrc.Observations

set_option autoImplicit false

namespace Xrc

open Machine

namespace periodic

/-- The listing refresh and the labelled metrics. -/
structure Monitored where
  listing : ListingState
  labeled : LabeledMetrics

namespace Monitored

/-- The state after an installation or an upgrade at `start`. -/
def new (listing_store : ListingStore) (start : ℕ) : Monitored :=
  ⟨ListingState.new listing_store, LabeledMetrics.new start⟩

section Transitions

variable [Unicode]

/-- One round of the loop over the fetched listings. -/
def settle (timestamp : ℕ) (answer : String → Except CallExchangeError (List ListedMarket))
    (m : Monitored) (exchange : String) : Monitored :=
  { listing := periodic.settle timestamp answer m.listing exchange
    labeled := record_listing_refresh ⟨exchange, timestamp, answer exchange⟩
      m.listing.listing_store m.labeled }

/-- The part of `update_listing_store` after the fetches. -/
def finish_refresh (m : Monitored) (i : ℕ)
    (answer : String → Except CallExchangeError (List ListedMarket)) : Monitored :=
  match m.listing.updating[i]? with
  | none => m
  | some (timestamp, due) =>
    let settled := due.foldl (settle timestamp answer) m
    { settled with listing :=
        { settled.listing with
          is_updating := false
          updating := m.listing.updating.eraseIdx i } }

variable [Features]

/-- One event. -/
def step (m : Monitored) : ListingEvent → Monitored
  | .fetched i answer => finish_refresh m i answer
  | event => { m with listing := m.listing.step event }

/-- A whole run. -/
def run (m : Monitored) (events : List ListingEvent) : Monitored := events.foldl step m

omit [Features] in
theorem listing_settle_all (timestamp : ℕ)
    (answer : String → Except CallExchangeError (List ListedMarket)) (due : List String) :
    ∀ m : Monitored, (due.foldl (settle timestamp answer) m).listing
      = due.foldl (periodic.settle timestamp answer) m.listing := by
  induction due with
  | nil => exact fun _ => rfl
  | cons exchange due ih => exact fun m => ih (settle timestamp answer m exchange)

/-- The metrics change nothing of the refresh. -/
theorem listing_step (m : Monitored) (event : ListingEvent) :
    (m.step event).listing = m.listing.step event := by
  rcases event with now | i | ⟨i, answer⟩
  · rfl
  · rfl
  · rw [step, finish_refresh, ListingState.step, periodic.finish_refresh]
    cases m.listing.updating[i]? with
    | none => rfl
    | some refresh =>
        dsimp only
        rw [listing_settle_all]

theorem listing_run (events : List ListingEvent) :
    ∀ m : Monitored, (m.run events).listing = m.listing.run events := by
  induction events with
  | nil => exact fun _ => rfl
  | cons event events ih =>
      intro m
      rw [run, List.foldl_cons, ← run, ih, listing_step]
      rfl

end Transitions

/-! ## What the metrics say of an exchange

The invariant speaks of one exchange, and compares its series with the store and with the ghost
of its fetches. Before its first accepted refresh its gauges are those of the start, even when
the store has a listing from before the upgrade. -/

/-- The fetches of an exchange that were refused. -/
def refused (fetches : List ListingFetch) : ℕ :=
  fetches.countP fun fetch => decide (fetch.outcome = .refused)

/-- An exchange had a listing accepted. Until then its gauges show the start of the canister, and
from then on the last accepted listing. -/
def Refreshed (fetches : List ListingFetch) : Prop :=
  ∃ fetch ∈ fetches, fetch.outcome = .accepted

/-- The gauges of an exchange show a listing. -/
structure ShowsListing (labeled : LabeledMetrics) (exchange : String) (listing : ExchangeListing) :
    Prop where
  pairs : labeled.gauges[listing_key .ExchangeListedUsdtPairs exchange]? = some listing.bases.card
  markets : labeled.gauges[listing_key .ExchangeListingTotalMarkets exchange]?
    = some listing.total_markets
  last_success : labeled.gauges[listing_key .ExchangeListingLastSuccessSeconds exchange]?
    = some listing.last_success_secs

/-- The gauges of an exchange whose listing has not been refreshed. The time of the last success
is set when the canister starts, so that its age can be watched from the beginning. -/
structure ShowsStart (labeled : LabeledMetrics) (exchange : String) (start : ℕ) : Prop where
  pairs : labeled.gauges[listing_key .ExchangeListedUsdtPairs exchange]? = none
  markets : labeled.gauges[listing_key .ExchangeListingTotalMarkets exchange]? = none
  last_success : labeled.gauges[listing_key .ExchangeListingLastSuccessSeconds exchange]?
    = some start

/-- The metrics of an exchange agree with the refresh. The two reasons are counted separately, but
which of a fetch's refusals had which reason is not said: their numbers add up to the fetches that
were refused. -/
structure Reported (start : ℕ) (exchange : String) (m : Monitored) : Prop where
  counters : ∃ guard fetch, guard + fetch = refused (m.listing.fetches exchange)
    ∧ m.labeled.Counted (wordMax 64) (rejected_key exchange "guard") guard
    ∧ m.labeled.Counted (wordMax 64) (rejected_key exchange "fetch") fetch
  refreshed : Refreshed (m.listing.fetches exchange) →
    ∃ listing, m.listing.listing_store.by_exchange exchange = some listing
      ∧ ShowsListing m.labeled exchange listing
  unrefreshed : ¬ Refreshed (m.listing.fetches exchange) → ShowsStart m.labeled exchange start

/-! ## One refresh

What is recorded has one of two forms, and both write to series of their own exchange only. So a
round of one exchange can be followed without regard to the others. -/

theorem listing_key_inj {name name' : MetricName} {exchange exchange' : String} :
    listing_key name exchange = listing_key name' exchange'
      ↔ name = name' ∧ exchange = exchange' := by
  simp [listing_key]

theorem rejected_key_inj {exchange exchange' reason reason' : String} :
    rejected_key exchange reason = rejected_key exchange' reason'
      ↔ exchange = exchange' ∧ reason = reason' := by
  simp [rejected_key]

/-- The listing metrics of an exchange are the same. It is what makes the exchanges independent of
each other: what is written for one leaves the metrics of all others the same. -/
structure SameFor (exchange : String) (labeled labeled' : LabeledMetrics) : Prop where
  counters : ∀ reason, labeled'.counters[rejected_key exchange reason]?
    = labeled.counters[rejected_key exchange reason]?
  gauges : ∀ name, labeled'.gauges[listing_key name exchange]?
    = labeled.gauges[listing_key name exchange]?

section Refresh

variable [Unicode] (refresh : ListingRefresh) (store : ListingStore) (labeled : LabeledMetrics)

/-- What is recorded of a refresh: its listing, or the reason it was refused. The reason tells
whether the fetch failed or the guard of the store refused what it had fetched. -/
theorem record_listing_refresh_cases :
    (refresh.AcceptedBy store ∧ record_listing_refresh refresh store labeled
        = ((labeled.set (listing_key .ExchangeListedUsdtPairs refresh.exchange)
              refresh.listing.bases.card).set
            (listing_key .ExchangeListingTotalMarkets refresh.exchange)
              refresh.listing.total_markets).set
            (listing_key .ExchangeListingLastSuccessSeconds refresh.exchange)
              refresh.listing.last_success_secs)
      ∨ ¬ refresh.AcceptedBy store ∧ ∃ reason, (reason = "guard" ∨ reason = "fetch")
          ∧ record_listing_refresh refresh store labeled
            = labeled.add (wordMax 64) (rejected_key refresh.exchange reason) 1 := by
  by_cases haccepted : refresh.AcceptedBy store
  · refine Or.inl ⟨haccepted, ?_⟩
    -- what is shown is read from the store after the refresh
    have hstore : (refresh.offer store).2.by_exchange refresh.exchange = some refresh.listing := by
      rw [ListingRefresh.offer_snd, if_pos haccepted]
      exact Function.update_self _ _ _
    rw [ListingRefresh.AcceptedBy] at haccepted
    rw [record_listing_refresh, haccepted]
    dsimp only
    rw [record_accepted_listing_metrics, hstore]
    rfl
  · refine Or.inr ⟨haccepted, ?_⟩
    rw [ListingRefresh.AcceptedBy] at haccepted
    unfold record_listing_refresh
    split
    · rename_i hoffer
      exact absurd hoffer haccepted
    · exact ⟨"guard", Or.inl rfl, rfl⟩
    · exact ⟨"fetch", Or.inr rfl, rfl⟩

/-- A refresh leaves the metrics of other exchanges alone. -/
theorem sameFor_of_ne {exchange : String} (h : exchange ≠ refresh.exchange) :
    SameFor exchange labeled (record_listing_refresh refresh store labeled) := by
  have hset : ∀ (labeled : LabeledMetrics) name name' value,
      (labeled.set (listing_key name refresh.exchange) value).gauges[listing_key name' exchange]?
        = labeled.gauges[listing_key name' exchange]? := by
    intro labeled name name' value
    exact Registry.gauges_set_of_ne (fun heq => h (listing_key_inj.mp heq).2.symm) value
  rcases record_listing_refresh_cases refresh store labeled with
    ⟨-, hrecord⟩ | ⟨-, reason, -, hrecord⟩
  · rw [hrecord]
    refine ⟨fun _ => rfl, fun name => ?_⟩
    rw [hset, hset, hset]
  · rw [hrecord]
    refine ⟨fun other => ?_, fun _ => rfl⟩
    exact Registry.counters_add_of_ne (fun heq => h (rejected_key_inj.mp heq).1.symm) 1

omit [Unicode] in
/-- An accepted refresh is shown. -/
theorem showsListing_set (exchange : String) (listing : ExchangeListing) :
    ShowsListing (((labeled.set (listing_key .ExchangeListedUsdtPairs exchange)
          listing.bases.card).set (listing_key .ExchangeListingTotalMarkets exchange)
          listing.total_markets).set (listing_key .ExchangeListingLastSuccessSeconds exchange)
          listing.last_success_secs) exchange listing where
  pairs := by
    rw [Registry.gauges_set_of_ne (by simp [listing_key]),
      Registry.gauges_set_of_ne (by simp [listing_key]), Registry.gauges_set_self]
  markets := by
    rw [Registry.gauges_set_of_ne (by simp [listing_key]), Registry.gauges_set_self]
  last_success := Registry.gauges_set_self _

end Refresh

/-! ## One round

The round of an exchange writes its listing, or counts the reason, in step with what the round
does to the store and the schedule. Loops over exchanges come down to the single round in which
the exchange itself is settled. -/

theorem Reported.congr {start : ℕ} {exchange : String} {m m' : Monitored}
    (h : Reported start exchange m)
    (hfetches : m'.listing.fetches exchange = m.listing.fetches exchange)
    (hstore : m'.listing.listing_store.by_exchange exchange
      = m.listing.listing_store.by_exchange exchange)
    (hlabeled : SameFor exchange m.labeled m'.labeled) : Reported start exchange m' where
  counters := by
    obtain ⟨guard, fetch, hsum, hguard, hfetch⟩ := h.counters
    rw [hfetches]
    exact ⟨guard, fetch, hsum, hguard.congr (hlabeled.counters _),
      hfetch.congr (hlabeled.counters _)⟩
  refreshed := by
    rw [hfetches, hstore]
    intro hrefreshed
    obtain ⟨listing, hlisting, hshows⟩ := h.refreshed hrefreshed
    exact ⟨listing, hlisting, (hlabeled.gauges _).trans hshows.pairs,
      (hlabeled.gauges _).trans hshows.markets, (hlabeled.gauges _).trans hshows.last_success⟩
  unrefreshed := by
    rw [hfetches]
    intro hunrefreshed
    have hshows := h.unrefreshed hunrefreshed
    exact ⟨(hlabeled.gauges _).trans hshows.pairs, (hlabeled.gauges _).trans hshows.markets,
      (hlabeled.gauges _).trans hshows.last_success⟩

section Outcome

variable {start timestamp : ℕ} {exchange : String} {earlier : List ListingFetch} {m m' : Monitored}

/-- An accepted refresh is stored and shown. -/
theorem Reported.accept (h : Reported start exchange m)
    (hbefore : m.listing.fetches exchange = ⟨timestamp, .outstanding⟩ :: earlier)
    (hafter : m'.listing.fetches exchange = ⟨timestamp, .accepted⟩ :: earlier)
    (hcounters : m'.labeled.counters = m.labeled.counters) {listing : ExchangeListing}
    (hstore : m'.listing.listing_store.by_exchange exchange = some listing)
    (hshows : ShowsListing m'.labeled exchange listing) : Reported start exchange m' where
  counters := by
    obtain ⟨guard, fetch, hsum, hguard, hfetch⟩ := h.counters
    rw [hbefore] at hsum
    rw [hafter]
    exact ⟨guard, fetch, hsum, hguard.congr (by rw [hcounters]), hfetch.congr (by rw [hcounters])⟩
  refreshed _ := ⟨listing, hstore, hshows⟩
  unrefreshed hunrefreshed := by
    rw [hafter] at hunrefreshed
    exact absurd ⟨_, List.mem_cons_self, rfl⟩ hunrefreshed

/-- A refused refresh is counted under its reason. The listing in the store is the same as before,
and so the gauges still show it. -/
theorem Reported.refuse (h : Reported start exchange m)
    (hbefore : m.listing.fetches exchange = ⟨timestamp, .outstanding⟩ :: earlier)
    (hafter : m'.listing.fetches exchange = ⟨timestamp, .refused⟩ :: earlier)
    (hstore : m'.listing.listing_store = m.listing.listing_store) {reason : String}
    (hreason : reason = "guard" ∨ reason = "fetch")
    (hlabeled : m'.labeled
      = m.labeled.add (wordMax 64) (rejected_key exchange reason) 1) :
    Reported start exchange m' := by
  -- a refusal does not change whether a listing was accepted
  have hrefreshed : Refreshed (⟨timestamp, .refused⟩ :: earlier)
      ↔ Refreshed (⟨timestamp, .outstanding⟩ :: earlier) := by
    simp [Refreshed]
  refine ⟨?_, ?_, ?_⟩
  · obtain ⟨guard, fetch, hsum, hguard, hfetch⟩ := h.counters
    have hmore : refused (m'.listing.fetches exchange)
        = refused (m.listing.fetches exchange) + 1 := by
      rw [hbefore, hafter]
      simp [refused]
    rw [hmore, hlabeled]
    -- one of the two counters goes up, and with it the number of refusals
    rcases hreason with rfl | rfl
    · refine ⟨guard + 1, fetch, by omega, hguard.add_self, hfetch.congr ?_⟩
      exact Registry.counters_add_of_ne (fun heq => absurd (rejected_key_inj.mp heq).2 (by decide)) 1
    · refine ⟨guard, fetch + 1, by omega, hguard.congr ?_, hfetch.add_self⟩
      exact Registry.counters_add_of_ne (fun heq => absurd (rejected_key_inj.mp heq).2 (by decide)) 1
  · rw [hafter, hrefreshed, ← hbefore, hstore, hlabeled]
    intro hall
    obtain ⟨listing, hlisting, hshows⟩ := h.refreshed hall
    exact ⟨listing, hlisting, hshows.pairs, hshows.markets, hshows.last_success⟩
  · rw [hafter, hrefreshed, ← hbefore, hlabeled]
    intro hnone
    have hshows := h.unrefreshed hnone
    exact ⟨hshows.pairs, hshows.markets, hshows.last_success⟩

/-- A refresh that starts reports nothing yet. -/
theorem Reported.start_refresh (h : Reported start exchange m)
    (hafter : m'.listing.fetches exchange
      = ⟨timestamp, .outstanding⟩ :: m.listing.fetches exchange)
    (hstore : m'.listing.listing_store = m.listing.listing_store)
    (hlabeled : m'.labeled = m.labeled) : Reported start exchange m' := by
  -- a fetch that is outstanding is neither accepted nor refused
  have hrefreshed : Refreshed (m'.listing.fetches exchange)
      ↔ Refreshed (m.listing.fetches exchange) := by
    rw [hafter]
    simp [Refreshed]
  have hrefused : refused (m'.listing.fetches exchange)
      = refused (m.listing.fetches exchange) := by
    rw [hafter]
    simp [refused]
  refine ⟨?_, ?_, ?_⟩
  · rw [hrefused, hlabeled]
    exact h.counters
  · rw [hrefreshed, hstore, hlabeled]
    exact h.refreshed
  · rw [hrefreshed, hlabeled]
    exact h.unrefreshed

end Outcome

section Round

variable [Unicode] {start timestamp : ℕ} {exchange : String}
  {answer : String → Except CallExchangeError (List ListedMarket)} {m : Monitored}

/-- The round of an exchange whose fetch is outstanding. Its fetch ends with the outcome that the
store has decided on, and this is also what is recorded. -/
theorem reported_settle_self (h : Reported start exchange m)
    (houtstanding : m.listing.Outstanding timestamp exchange) :
    Reported start exchange (settle timestamp answer m exchange) := by
  obtain ⟨earlier, hearlier⟩ : ∃ earlier,
      m.listing.fetches exchange = ⟨timestamp, .outstanding⟩ :: earlier :=
    ⟨_, List.eq_cons_of_mem_head? houtstanding⟩
  have hstore := ListingRefresh.offer_snd ⟨exchange, timestamp, answer exchange⟩
    m.listing.listing_store
  have hsettled : (settle timestamp answer m exchange).listing.listing_store = _ :=
    settle_listing_store m.listing timestamp answer exchange
  rw [hstore] at hsettled
  -- the store, the schedule and the metrics take the same branch
  rcases record_listing_refresh_cases ⟨exchange, timestamp, answer exchange⟩
      m.listing.listing_store m.labeled with
    ⟨haccepted, hrecord⟩ | ⟨hrefused, reason, hreason, hrecord⟩
  · rw [if_pos haccepted] at hsettled
    have hlabeled : (settle timestamp answer m exchange).labeled = _ := hrecord
    refine h.accept hearlier ?_ (by rw [hlabeled]; rfl) ?_
      (by rw [hlabeled]; exact showsListing_set m.labeled exchange _)
    · rw [ListingRefresh.AcceptedBy] at haccepted
      rw [settle, periodic.settle]
      dsimp only
      rw [if_pos haccepted, hearlier]
      exact Function.update_self _ _ _
    · rw [hsettled]
      exact Function.update_self _ _ _
  · rw [if_neg hrefused] at hsettled
    refine h.refuse hearlier ?_ hsettled hreason hrecord
    rw [ListingRefresh.AcceptedBy] at hrefused
    rw [settle, periodic.settle]
    dsimp only
    rw [if_neg hrefused, hearlier]
    exact Function.update_self _ _ _

/-- The round of another exchange. -/
theorem reported_settle_of_ne (h : Reported start exchange m) {other : String}
    (hne : exchange ≠ other) : Reported start exchange (settle timestamp answer m other) := by
  obtain ⟨hfetches, -, hstore⟩ := settle_of_ne m.listing timestamp answer other hne
  exact h.congr hfetches hstore (sameFor_of_ne _ _ _ hne)

/-- All rounds of a refresh. Among them is at most one of the exchange, since those that are due
are distinct. -/
theorem reported_settle_all (due : List String) :
    ∀ m : Monitored, due.Nodup → (∀ other ∈ due, m.listing.Outstanding timestamp other) →
      Reported start exchange m →
        Reported start exchange (due.foldl (settle timestamp answer) m) := by
  induction due with
  | nil =>
      intro m _ _ h
      exact h
  | cons first due ih =>
      intro m hnodup houtstanding h
      rw [List.nodup_cons] at hnodup
      rw [List.foldl_cons]
      refine ih _ hnodup.2 ?_ ?_
      · -- the round of `first` leaves the fetches of the others outstanding
        intro other hmem
        have hne : other ≠ first := by
          rintro rfl
          exact hnodup.1 hmem
        have hfetches := (settle_of_ne m.listing timestamp answer first hne).1
        have hother := houtstanding other (List.mem_cons_of_mem _ hmem)
        rw [ListingState.Outstanding] at hother ⊢
        exact (congrArg List.head? hfetches).trans hother
      · by_cases hfirst : exchange = first
        · subst hfirst
          exact reported_settle_self h (houtstanding _ List.mem_cons_self)
        · exact reported_settle_of_ne h hfirst

end Round

/-! ## Whole runs

The invariant of the schedule and the one of the metrics are kept side by side: the second needs
the first, which says that the fetch that is settled is the one outstanding. -/

section Runs

variable [Unicode] [Features] {start : ℕ} {exchange : String} {m : Monitored}

/-- **One event keeps the metrics of an exchange right.** Metrics are written when a refresh is
settled, each under the exchange that is settled. A refresh that starts only adds outstanding
fetches, which nothing counts yet. -/
theorem reported_step (hscheduled : m.listing.Scheduled) (h : Reported start exchange m)
    (event : ListingEvent) : Reported start exchange (m.step event) := by
  rcases event with now | i | ⟨i, answer⟩
  · exact h.congr rfl rfl ⟨fun _ => rfl, fun _ => rfl⟩
  · -- a refresh that starts makes fetches, which are outstanding
    have hstep : (m.step (.forex_updated i)).listing = m.listing.step (.forex_updated i) := rfl
    rw [ListingState.step] at hstep
    cases hi : m.listing.waiting[i]? with
    | none =>
        rw [hi] at hstep
        exact h.congr (by rw [hstep]) (by rw [hstep]) ⟨fun _ => rfl, fun _ => rfl⟩
    | some timestamp =>
        rw [hi] at hstep
        dsimp only at hstep
        have hlt := hscheduled.waiting timestamp (List.mem_of_getElem? hi)
        rcases start_refresh_cases { m.listing with waiting := m.listing.waiting.eraseIdx i } hlt
          with hsame | ⟨-, due, -, -, -, -, -, hstore, hexchanges⟩
        · rw [hsame] at hstep
          exact h.congr (by rw [hstep]) (by rw [hstep]) ⟨fun _ => rfl, fun _ => rfl⟩
        · have hfetches := (hexchanges exchange).1
          rw [← hstep] at hfetches hstore
          split at hfetches
          · exact h.start_refresh hfetches hstore rfl
          · exact h.congr hfetches (by rw [hstore]) ⟨fun _ => rfl, fun _ => rfl⟩
  · rw [step, finish_refresh]
    rcases hscheduled.guard with hidle | ⟨-, timestamp, due, hupdating, -, hnodup, houtstanding⟩
    · rw [hidle, List.getElem?_nil]
      exact h
    · rw [hupdating]
      cases i with
      | succ i =>
          -- there is no second refresh
          rw [List.getElem?_cons_succ, List.getElem?_nil]
          exact h
      | zero =>
          exact (reported_settle_all due m hnodup houtstanding h).congr rfl rfl
            ⟨fun _ => rfl, fun _ => rfl⟩

theorem reported_run (events : List ListingEvent) :
    ∀ m : Monitored, m.listing.Scheduled → Reported start exchange m →
      Reported start exchange (m.run events) := by
  induction events with
  | nil => exact fun _ _ h => h
  | cons event events ih =>
      intro m hscheduled h
      refine ih _ ?_ (reported_step hscheduled h event)
      rw [listing_step]
      exact scheduled_step hscheduled event

omit [Unicode] [Features] in
theorem reported_new (listing_store : ListingStore) (start : ℕ) (exchange : Exchange) :
    Reported start exchange.name (new listing_store start) where
  counters := by
    have hnone : ∀ reason, (LabeledMetrics.new start).Counted (wordMax 64)
        (rejected_key exchange.name reason) 0 := by
      intro reason
      rw [Registry.Counted, if_pos rfl, LabeledMetrics.new, init_at_eq_writes,
        Registry.counters_after, Registry.total, added_init_writes]
      rfl
    exact ⟨0, 0, rfl, hnone "guard", hnone "fetch"⟩
  refreshed := by
    rintro ⟨fetch, hfetch, -⟩
    exact absurd hfetch List.not_mem_nil
  unrefreshed _ := by
    -- the gauges are those that were seeded, which are looked up exchange by exchange
    have hgauge : ∀ key, (LabeledMetrics.new start).gauges[key]?
        = Registry.latest key (init_writes start) := by
      intro key
      rw [LabeledMetrics.new, init_at_eq_writes, Registry.gauges_after]
    refine ⟨?_, ?_, ?_⟩
    · refine (hgauge _).trans ?_
      cases exchange <;> rfl
    · refine (hgauge _).trans ?_
      cases exchange <;> rfl
    · refine (hgauge _).trans ?_
      cases exchange <;> rfl

/-- **The metrics of the listing refresh**, over every run of heartbeats from a persisted listing
store, with any answers: they change nothing of the refresh; the fetches of an exchange that were
refused are those counted under the two reasons; and the gauges of an exchange are those of its
stored listing if a listing was accepted since the start, and those of the start otherwise.

The invariant `Reported` is kept next to the one of the schedule, for each exchange by itself.
That the metrics change nothing is seen first, as all of the refresh can then be taken from
`ListingSchedule.lean`. -/
theorem listing_metrics (listing_store : ListingStore) (start : ℕ) (events : List ListingEvent) :
    ((new listing_store start).run events).listing
        = (ListingState.new listing_store).run events
      ∧ ∀ exchange : Exchange,
          Reported start exchange.name ((new listing_store start).run events) :=
  ⟨listing_run events _, fun exchange => reported_run events _
    (ListingState.scheduled_new listing_store) (reported_new listing_store start exchange)⟩

end Runs

end Monitored

end periodic

end Xrc
