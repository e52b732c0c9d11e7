/-
`update_listing_store` of `periodic.rs` over whole runs. Every heartbeat runs the forex
update first, so that it gets to the listings at some later time, with the time it
started; by then other heartbeats may have started, finished or still await their
fetches.

The schedule holds one time per exchange. It is written before the fetches, for a retry,
and again after them where the listing was accepted; in between, the guard keeps every
other heartbeat out. What it guarantees is said of `fetches`, a ghost that records every
fetch of an exchange with its outcome: no transition reads it.
-/
import Xrc.Listings
import Mathlib.Data.List.Chain

set_option autoImplicit false

namespace Xrc

open Machine

/-- `utils::time_secs`, of the time of the system in nanoseconds. -/
def time_secs (now : UInt64) : ℕ := now.toNat / 1_000_000_000

/-- The system time in seconds is far from overflowing. -/
theorem time_secs_lt (now : UInt64) : time_secs now < 2 ^ 35 := by
  have hlt : now.toNat < 2 ^ 64 := now.toNat_lt
  unfold time_secs
  omega

namespace periodic

/-! ## The transitions

A heartbeat is cut in three at its two awaits, the forex update and the fetches of the listings.
The ghost of fetches gets an entry when a fetch starts, and the outcome is filled in when it is
settled. -/

/-- Each exchange's listing is refreshed roughly once a day. -/
def LISTING_REFRESH_INTERVAL : ℕ := ONE_DAY_SECONDS

/-- A failed or rejected refresh is retried after this much shorter interval. -/
def LISTING_RETRY_INTERVAL : ℕ := ONE_HOUR_SECONDS

def get_next_listing_run_timestamp (timestamp : ℕ) : ℕ :=
  wrapping_add 64 (timestamp - timestamp % LISTING_REFRESH_INTERVAL) LISTING_REFRESH_INTERVAL

/-- How a fetch ended. -/
inductive FetchOutcome where
  | outstanding
  | accepted
  /-- Rejected by the guard, or failed. -/
  | refused
  deriving DecidableEq, Repr

/-- One fetch of the listing of an exchange. -/
structure ListingFetch where
  /-- The time of the heartbeat it was made in. -/
  timestamp : ℕ
  outcome : FetchOutcome
  deriving DecidableEq, Repr

/-- The state of the listing refresh between two messages. All but the last field are the
canister's, or the messages under way; the last one is the ghost. -/
structure ListingState where
  listing_store : ListingStore
  next_listing_run : String → ℕ
  is_updating : Bool
  /-- The heartbeats whose forex update is under way. -/
  waiting : List ℕ
  /-- The refreshes that await their fetches: their time and the exchanges that are due. -/
  updating : List (ℕ × List String)
  /-- The fetches of each exchange, the most recent one first. -/
  fetches : String → List ListingFetch

/-- The state after an upgrade that persisted `listing_store`. -/
def ListingState.new (listing_store : ListingStore) : ListingState :=
  ⟨listing_store, fun _ => 0, false, [], [], fun _ => []⟩

/-- `ListingSourcesImpl::exchange_names`. -/
def exchange_names [Features] : List String := get_available_exchanges.map Exchange.name

theorem exchange_names_nodup [Features] : exchange_names.Nodup := by
  have hall : (EXCHANGES.map Exchange.name).Nodup := by decide
  exact hall.sublist (List.filter_sublist.map _)

/-- The part of `update_listing_store` before the fetches. -/
def start_refresh [Features] (s : ListingState) (timestamp : ℕ) : ListingState :=
  if s.is_updating then s
  else
    let due := exchange_names.filter fun exchange =>
      decide (s.next_listing_run exchange ≤ timestamp)
    if due.isEmpty then s
    else
      { s with
        is_updating := true
        next_listing_run := due.foldl (fun next exchange =>
          Function.update next exchange (wrapping_add 64 timestamp LISTING_RETRY_INTERVAL))
          s.next_listing_run
        updating := s.updating ++ [(timestamp, due)]
        fetches := fun exchange =>
          if exchange ∈ due then ⟨timestamp, .outstanding⟩ :: s.fetches exchange
          else s.fetches exchange }

/-- Records the outcome of the most recent fetch. -/
def conclude (outcome : FetchOutcome) : List ListingFetch → List ListingFetch
  | [] => []
  | fetch :: earlier => { fetch with outcome := outcome } :: earlier

section Settle

variable [Unicode]

/-- One round of the loop over the fetched listings. -/
def settle (timestamp : ℕ) (answer : String → Except CallExchangeError (List ListedMarket))
    (s : ListingState) (exchange : String) : ListingState :=
  let refresh : ListingRefresh := ⟨exchange, timestamp, answer exchange⟩
  let offered := refresh.offer s.listing_store
  if offered.1 = some .Accepted then
    { s with
      listing_store := offered.2
      next_listing_run := Function.update s.next_listing_run exchange
        (get_next_listing_run_timestamp timestamp)
      fetches := Function.update s.fetches exchange (conclude .accepted (s.fetches exchange)) }
  else
    { s with
      listing_store := offered.2
      fetches := Function.update s.fetches exchange (conclude .refused (s.fetches exchange)) }

/-- The part of `update_listing_store` after the fetches, of the `i`-th refresh that
awaits them. -/
def finish_refresh (s : ListingState) (i : ℕ)
    (answer : String → Except CallExchangeError (List ListedMarket)) : ListingState :=
  match s.updating[i]? with
  | none => s
  | some (timestamp, due) =>
    { due.foldl (settle timestamp answer) s with
      is_updating := false
      updating := s.updating.eraseIdx i }

/-- What can happen to the listing refresh. -/
inductive ListingEvent where
  /-- A heartbeat starts `run_tasks`. -/
  | heartbeat (now : UInt64)
  /-- The forex update of the `i`-th waiting heartbeat is done. -/
  | forex_updated (i : ℕ)
  /-- The fetches of the `i`-th refresh are answered. -/
  | fetched (i : ℕ) (answer : String → Except CallExchangeError (List ListedMarket))

namespace ListingState

variable [Features]

/-- One event. -/
def step (s : ListingState) : ListingEvent → ListingState
  | .heartbeat now => { s with waiting := s.waiting ++ [time_secs now] }
  | .forex_updated i =>
    match s.waiting[i]? with
    | none => s
    | some timestamp => start_refresh { s with waiting := s.waiting.eraseIdx i } timestamp
  | .fetched i answer => finish_refresh s i answer

/-- A whole run. -/
def run (s : ListingState) (events : List ListingEvent) : ListingState := events.foldl step s

end ListingState

end Settle

/-! ## When the next fetch may come

The specification is about the fetches of one exchange, `OnSchedule`: each came no earlier than
the one before permits. The invariant adds to it that the schedule held by the canister is what
the last fetch permits, and that the guard lets only one refresh be under way. -/

/-- The first moment at which the exchange may be fetched again: the next day boundary
after an accepted fetch, one retry interval later otherwise. -/
def ListingFetch.not_before (self : ListingFetch) : ℕ :=
  if self.outcome = .accepted then (self.timestamp / ONE_DAY_SECONDS + 1) * ONE_DAY_SECONDS
  else self.timestamp + LISTING_RETRY_INTERVAL

theorem ListingFetch.le_not_before (self : ListingFetch) : self.timestamp ≤ self.not_before := by
  unfold not_before
  by_cases haccepted : self.outcome = .accepted
  · rw [if_pos haccepted]
    have := Nat.lt_div_mul_add (a := self.timestamp) (show 0 < ONE_DAY_SECONDS by decide)
    rw [Nat.add_mul, Nat.one_mul]
    omega
  · rw [if_neg haccepted]
    exact Nat.le_add_right _ _

/-- The code's day boundary is the first one after the time. -/
theorem get_next_listing_run_timestamp_eq {timestamp : ℕ} (h : timestamp < 2 ^ 35) :
    get_next_listing_run_timestamp timestamp
      = (timestamp / ONE_DAY_SECONDS + 1) * ONE_DAY_SECONDS := by
  have hday : ONE_DAY_SECONDS = 86_400 := by decide
  have hsplit := Nat.div_add_mod timestamp ONE_DAY_SECONDS
  unfold get_next_listing_run_timestamp LISTING_REFRESH_INTERVAL
  rw [wrapping_add_eq (by omega), Nat.add_mul, Nat.one_mul, Nat.mul_comm]
  omega

/-- The schedule of one exchange agrees with its fetches: the next attempt is when the
last fetch permits it, and every fetch came no earlier than the one before permitted. -/
structure OnSchedule (next_listing_run : ℕ) (fetches : List ListingFetch) : Prop where
  next_run : ∀ fetch ∈ fetches.head?, next_listing_run = fetch.not_before
  spaced : fetches.IsChain fun later earlier => earlier.not_before ≤ later.timestamp

namespace OnSchedule

variable {next_listing_run timestamp : ℕ} {fetches earlier : List ListingFetch}

/-- A due exchange is fetched, and scheduled for a retry. -/
theorem start (h : OnSchedule next_listing_run fetches) (hdue : next_listing_run ≤ timestamp) :
    OnSchedule (timestamp + LISTING_RETRY_INTERVAL) (⟨timestamp, .outstanding⟩ :: fetches) := by
  refine ⟨?_, List.isChain_cons.mpr ⟨?_, h.spaced⟩⟩
  · rintro fetch ⟨rfl⟩
    rfl
  · intro last hlast
    rw [← h.next_run last hlast]
    exact hdue

/-- An accepted fetch moves the schedule to the day boundary. -/
theorem accept (h : OnSchedule next_listing_run (⟨timestamp, .outstanding⟩ :: earlier)) :
    OnSchedule ((timestamp / ONE_DAY_SECONDS + 1) * ONE_DAY_SECONDS)
      (⟨timestamp, .accepted⟩ :: earlier) := by
  refine ⟨?_, List.isChain_cons.mpr (List.isChain_cons.mp h.spaced)⟩
  rintro fetch ⟨rfl⟩
  rfl

/-- A refused fetch leaves it at the retry. -/
theorem refuse (h : OnSchedule next_listing_run (⟨timestamp, .outstanding⟩ :: earlier)) :
    OnSchedule next_listing_run (⟨timestamp, .refused⟩ :: earlier) := by
  refine ⟨?_, List.isChain_cons.mpr (List.isChain_cons.mp h.spaced)⟩
  rintro fetch ⟨rfl⟩
  exact h.next_run ⟨timestamp, .outstanding⟩ rfl

end OnSchedule

namespace ListingState

/-- The exchange has a fetch outstanding since `timestamp`. The fetches are listed with the latest
one in front, so no other fetch has been made since. -/
def Outstanding (s : ListingState) (timestamp : ℕ) (exchange : String) : Prop :=
  (s.fetches exchange).head? = some ⟨timestamp, .outstanding⟩

/-- The schedule of every exchange agrees with its fetches. -/
def AllOnSchedule (s : ListingState) : Prop :=
  ∀ exchange, OnSchedule (s.next_listing_run exchange) (s.fetches exchange)

/-- No refresh is under way, or a single one is, which holds the guard and whose exchanges
have their fetches outstanding. -/
def Guarded (s : ListingState) : Prop :=
  s.updating = [] ∨ s.is_updating = true ∧ ∃ timestamp due,
    s.updating = [(timestamp, due)] ∧ timestamp < 2 ^ 35 ∧ due.Nodup
      ∧ ∀ exchange ∈ due, s.Outstanding timestamp exchange

/-- The invariant of the listing refresh. The first field keeps the arithmetic of the schedule
from overflowing, the second one keeps heartbeats apart, and the third is what the theorem is
about. -/
structure Scheduled (s : ListingState) : Prop where
  waiting : ∀ timestamp ∈ s.waiting, timestamp < 2 ^ 35
  guard : s.Guarded
  on_schedule : s.AllOnSchedule

theorem scheduled_new (listing_store : ListingStore) :
    (new listing_store).Scheduled := by
  refine ⟨?_, Or.inl rfl, ?_⟩
  · intro timestamp hmem
    exact absurd hmem List.not_mem_nil
  · intro exchange
    exact ⟨fun fetch hfetch => absurd hfetch (Option.not_mem_none _), List.IsChain.nil⟩

end ListingState

/-- Rescheduling the due exchanges, one after the other. -/
theorem foldl_reschedule (at_timestamp : ℕ) (due : List String) (next : String → ℕ)
    (exchange : String) :
    due.foldl (fun next e => Function.update next e at_timestamp) next exchange
      = if exchange ∈ due then at_timestamp else next exchange := by
  induction due generalizing next with
  | nil => rfl
  | cons first due ih =>
      rw [List.foldl_cons, ih]
      by_cases hrest : exchange ∈ due
      · rw [if_pos hrest, if_pos (List.mem_cons_of_mem _ hrest)]
      · rw [if_neg hrest]
        by_cases hfirst : exchange = first
        · rw [hfirst, if_pos List.mem_cons_self, Function.update_self]
        · rw [if_neg, Function.update_of_ne hfirst]
          exact fun hmem => (List.mem_cons.mp hmem).elim hfirst hrest

/-- What `start_refresh` does: nothing, or it takes the guard and fetches every exchange
that is due. -/
theorem start_refresh_cases [Features] (s : ListingState) {timestamp : ℕ} (hlt : timestamp < 2 ^ 35) :
    start_refresh s timestamp = s
      ∨ s.is_updating = false ∧ ∃ due : List String, due.Nodup
        ∧ (∀ exchange ∈ due, s.next_listing_run exchange ≤ timestamp)
        ∧ (start_refresh s timestamp).is_updating = true
        ∧ (start_refresh s timestamp).updating = s.updating ++ [(timestamp, due)]
        ∧ (start_refresh s timestamp).waiting = s.waiting
        ∧ (start_refresh s timestamp).listing_store = s.listing_store
        ∧ ∀ exchange,
          ((start_refresh s timestamp).fetches exchange
            = if exchange ∈ due then ⟨timestamp, .outstanding⟩ :: s.fetches exchange
              else s.fetches exchange)
          ∧ (start_refresh s timestamp).next_listing_run exchange
            = if exchange ∈ due then timestamp + LISTING_RETRY_INTERVAL
              else s.next_listing_run exchange := by
  have hretry : wrapping_add 64 timestamp LISTING_RETRY_INTERVAL
      = timestamp + LISTING_RETRY_INTERVAL := by
    have hhour : LISTING_RETRY_INTERVAL = 3_600 := by decide
    exact wrapping_add_eq (by omega)
  unfold start_refresh
  by_cases hguard : s.is_updating = true
  · -- another heartbeat holds the guard
    left
    rw [if_pos hguard]
  · rw [if_neg hguard]
    dsimp only
    by_cases hempty : (exchange_names.filter fun exchange =>
        decide (s.next_listing_run exchange ≤ timestamp)).isEmpty = true
    · -- no exchange is due
      left
      rw [if_pos hempty]
    · right
      rw [if_neg hempty]
      refine ⟨Bool.eq_false_of_not_eq_true hguard, _, exchange_names_nodup.filter _, ?_, rfl, rfl,
        rfl, rfl, ?_⟩
      · intro exchange hmem
        exact of_decide_eq_true (List.mem_filter.mp hmem).2
      · intro exchange
        dsimp only
        rw [foldl_reschedule, hretry]
        exact ⟨rfl, rfl⟩

theorem start_refresh_waiting [Features] (s : ListingState) (timestamp : ℕ) :
    (start_refresh s timestamp).waiting = s.waiting := by
  unfold start_refresh
  split
  · rfl
  · dsimp only
    split <;> rfl

theorem start_refresh_listing_store [Features] (s : ListingState) (timestamp : ℕ) :
    (start_refresh s timestamp).listing_store = s.listing_store := by
  unfold start_refresh
  split
  · rfl
  · dsimp only
    split <;> rfl

section Steps

variable [Unicode]

open ListingState

variable (s : ListingState) (timestamp : ℕ)
  (answer : String → Except CallExchangeError (List ListedMarket))

/-- The round of one exchange leaves the others alone. The store, the schedule and the fetches are
kept by exchange, and a round writes under the name of its own. -/
theorem settle_of_ne (exchange : String) {other : String} (h : other ≠ exchange) :
    (settle timestamp answer s exchange).fetches other = s.fetches other
      ∧ (settle timestamp answer s exchange).next_listing_run other = s.next_listing_run other
      ∧ (settle timestamp answer s exchange).listing_store.by_exchange other
        = s.listing_store.by_exchange other := by
  have hstore : ((⟨exchange, timestamp, answer exchange⟩ : ListingRefresh).offer
      s.listing_store).2.by_exchange other = s.listing_store.by_exchange other := by
    rw [ListingRefresh.offer_snd]
    split
    · exact Function.update_of_ne h _ _
    · rfl
  unfold settle
  dsimp only
  split
  · exact ⟨Function.update_of_ne h _ _, Function.update_of_ne h _ _, hstore⟩
  · exact ⟨Function.update_of_ne h _ _, rfl, hstore⟩

/-- The round of an exchange whose fetch is outstanding: accepted, the fetch is accepted,
the next attempt is at the day boundary and the listing is of this time; refused, the
fetch is refused and nothing else changes. -/
theorem settle_self {s : ListingState} {timestamp : ℕ} {exchange : String}
    (h : s.Outstanding timestamp exchange) (hlt : timestamp < 2 ^ 35) :
    ((settle timestamp answer s exchange).fetches exchange
          = ⟨timestamp, .accepted⟩ :: (s.fetches exchange).tail
        ∧ (settle timestamp answer s exchange).next_listing_run exchange
          = (timestamp / ONE_DAY_SECONDS + 1) * ONE_DAY_SECONDS
        ∧ ∃ listing, (settle timestamp answer s exchange).listing_store.by_exchange exchange
            = some listing ∧ listing.last_success_secs = timestamp)
      ∨ ((settle timestamp answer s exchange).fetches exchange
          = ⟨timestamp, .refused⟩ :: (s.fetches exchange).tail
        ∧ (settle timestamp answer s exchange).next_listing_run exchange
          = s.next_listing_run exchange
        ∧ (settle timestamp answer s exchange).listing_store = s.listing_store) := by
  obtain ⟨earlier, hearlier⟩ : ∃ earlier,
      s.fetches exchange = ⟨timestamp, .outstanding⟩ :: earlier :=
    ⟨_, List.eq_cons_of_mem_head? h⟩
  unfold settle
  dsimp only
  rw [hearlier, ListingRefresh.offer_snd]
  -- the outcome of the offer decides all three at once
  by_cases haccepted :
      (⟨exchange, timestamp, answer exchange⟩ : ListingRefresh).AcceptedBy s.listing_store
  · left
    rw [if_pos haccepted]
    have houtcome := haccepted
    rw [ListingRefresh.AcceptedBy] at houtcome
    rw [if_pos houtcome]
    refine ⟨Function.update_self _ _ _, ?_, _, Function.update_self _ _ _, rfl⟩
    rw [← get_next_listing_run_timestamp_eq hlt]
    exact Function.update_self _ _ _
  · right
    rw [if_neg haccepted]
    have houtcome := haccepted
    rw [ListingRefresh.AcceptedBy] at houtcome
    rw [if_neg houtcome]
    exact ⟨Function.update_self _ _ _, rfl, rfl⟩

/-- The rounds of a refresh, one after the other. What is outstanding stays so until its
own round, so that every round meets its fetch as it was made. -/
theorem settle_induction {timestamp : ℕ} {P : ListingState → Prop}
    (hround : ∀ s exchange, s.Outstanding timestamp exchange → P s →
      P (settle timestamp answer s exchange)) :
    ∀ (due : List String) (s : ListingState), due.Nodup →
      (∀ exchange ∈ due, s.Outstanding timestamp exchange) → P s →
        P (due.foldl (settle timestamp answer) s) := by
  intro due
  induction due with
  | nil =>
      intro s _ _ hP
      exact hP
  | cons exchange due ih =>
      intro s hnodup houtstanding hP
      rw [List.nodup_cons] at hnodup
      rw [List.foldl_cons]
      refine ih _ hnodup.2 ?_ (hround s exchange (houtstanding _ List.mem_cons_self) hP)
      -- the round of `exchange` leaves the fetches of the others outstanding
      intro other hmem
      have hother : other ≠ exchange := by
        rintro rfl
        exact hnodup.1 hmem
      rw [Outstanding, (settle_of_ne _ _ _ exchange hother).1]
      exact houtstanding other (List.mem_cons_of_mem _ hmem)

theorem settle_waiting (exchange : String) :
    (settle timestamp answer s exchange).waiting = s.waiting := by
  unfold settle
  dsimp only
  split <;> rfl

theorem settle_all_waiting (due : List String) :
    (due.foldl (settle timestamp answer) s).waiting = s.waiting := by
  induction due generalizing s with
  | nil => rfl
  | cons exchange due ih => rw [List.foldl_cons, ih, settle_waiting]

/-- A round keeps every exchange on its schedule. -/
theorem settle_on_schedule {s : ListingState} {timestamp : ℕ} (hlt : timestamp < 2 ^ 35)
    {exchange : String} (houtstanding : s.Outstanding timestamp exchange) (h : s.AllOnSchedule) :
    (settle timestamp answer s exchange).AllOnSchedule := by
  intro other
  by_cases hother : other = exchange
  · subst hother
    have hon := h other
    rw [List.eq_cons_of_mem_head? houtstanding] at hon
    rcases settle_self answer houtstanding hlt with
      ⟨hfetches, hnext, -⟩ | ⟨hfetches, hnext, -⟩
    · rw [hfetches, hnext]
      exact hon.accept
    · rw [hfetches, hnext]
      exact hon.refuse
  · obtain ⟨hfetches, hnext, -⟩ := settle_of_ne s timestamp answer exchange hother
    rw [hfetches, hnext]
    exact h other

/-! ## Whole runs

One case for each kind of event. Answers arrive for the refresh that holds the guard or for
none, and settling its exchanges one after the other keeps the invariant at every round. -/

variable [Features]

/-- Every waiting heartbeat has started with the system time. An event adds a heartbeat at most,
and the others have been waiting before. -/
theorem mem_waiting_step {event : ListingEvent} (h : timestamp ∈ (s.step event).waiting) :
    timestamp ∈ s.waiting ∨ ∃ now, event = .heartbeat now ∧ timestamp = time_secs now := by
  -- only a heartbeat adds to those that wait, with its own time
  rcases event with now | i | ⟨i, answer⟩
  · rcases List.mem_append.mp h with hold | hnew
    · exact Or.inl hold
    · exact Or.inr ⟨now, rfl, List.mem_singleton.mp hnew⟩
  · left
    rw [step] at h
    cases hi : s.waiting[i]? with
    | none =>
        rw [hi] at h
        exact h
    | some time =>
        rw [hi] at h
        dsimp only at h
        rw [start_refresh_waiting] at h
        exact List.mem_of_mem_eraseIdx h
  · left
    rw [step, finish_refresh] at h
    cases hi : s.updating[i]? with
    | none =>
        rw [hi] at h
        exact h
    | some refresh =>
        rw [hi] at h
        rw [← settle_all_waiting s refresh.1 answer refresh.2]
        exact h

/-- **One step keeps the invariant.** The guard lets one heartbeat at a time start a refresh, so
the exchanges of the refresh under way have their fetches outstanding until it is settled, and no
other fetch comes in between. -/
theorem scheduled_step {s : ListingState} (h : s.Scheduled) (event : ListingEvent) :
    (s.step event).Scheduled := by
  have hwaiting : ∀ timestamp ∈ (s.step event).waiting, timestamp < 2 ^ 35 := by
    intro timestamp hmem
    rcases mem_waiting_step s timestamp hmem with hold | ⟨now, -, rfl⟩
    · exact h.waiting timestamp hold
    · exact time_secs_lt now
  suffices hrest : (s.step event).Guarded ∧ (s.step event).AllOnSchedule from
    ⟨hwaiting, hrest.1, hrest.2⟩
  rcases event with now | i | ⟨i, answer⟩
  · -- a heartbeat starts with its forex update
    exact ⟨h.guard, h.on_schedule⟩
  · -- a heartbeat gets to the listings
    rw [step]
    cases hi : s.waiting[i]? with
    | none => exact ⟨h.guard, h.on_schedule⟩
    | some timestamp =>
        have hlt := h.waiting timestamp (List.mem_of_getElem? hi)
        dsimp only
        rcases start_refresh_cases { s with waiting := s.waiting.eraseIdx i } hlt with
          hsame | ⟨hfree, due, hnodup, hdue, hguard, hupdating, -, -, hexchanges⟩
        · rw [hsame]
          exact ⟨h.guard, h.on_schedule⟩
        · -- the guard was free, so that no other refresh is under way
          have hidle : s.updating = [] := by
            apply h.guard.resolve_right
            rintro ⟨hheld, -⟩
            exact Bool.false_ne_true (hfree.symm.trans hheld)
          refine ⟨Or.inr ⟨hguard, timestamp, due, ?_, hlt, hnodup, ?_⟩, ?_⟩
          · rw [hupdating]
            exact congrArg (· ++ [(timestamp, due)]) hidle
          · intro exchange hmem
            rw [Outstanding, (hexchanges exchange).1, if_pos hmem]
            rfl
          · intro exchange
            rw [(hexchanges exchange).1, (hexchanges exchange).2]
            by_cases hmem : exchange ∈ due
            · rw [if_pos hmem, if_pos hmem]
              exact (h.on_schedule exchange).start (hdue exchange hmem)
            · rw [if_neg hmem, if_neg hmem]
              exact h.on_schedule exchange
  · -- a refresh is answered
    rw [step, finish_refresh]
    rcases h.guard with hidle | ⟨-, timestamp, due, hupdating, hlt, hnodup, houtstanding⟩
    · rw [hidle, List.getElem?_nil]
      exact ⟨h.guard, h.on_schedule⟩
    · rw [hupdating]
      cases i with
      | succ i =>
          -- there is no second refresh
          rw [List.getElem?_cons_succ, List.getElem?_nil]
          exact ⟨h.guard, h.on_schedule⟩
      | zero =>
          refine ⟨Or.inl rfl, ?_⟩
          exact settle_induction answer (P := AllOnSchedule)
            (fun s' exchange houtstanding h' => settle_on_schedule answer hlt houtstanding h') due s
            hnodup houtstanding h.on_schedule

/-- **Every reachable state keeps the invariant.** The initial state is one of them, and so every
theorem on a reachable state may take the invariant from here. -/
theorem scheduled_run {s : ListingState} (h : s.Scheduled) (events : List ListingEvent) :
    (s.run events).Scheduled := by
  induction events generalizing s with
  | nil => exact h
  | cons event events ih => exact ih (scheduled_step h event)

/-! ## When the last success was

The store keeps the time of the refresh an accepted listing came with. That time does not go
back, as the refreshes of an exchange are fetched in the order of their times; so a success
after some moment stays one after that moment. -/

/-- The time of the last fetch of an exchange, `since` when there is none. -/
def last_fetch (since : ℕ) (exchange : String) (s : ListingState) : ℕ :=
  ((s.fetches exchange).head?.map ListingFetch.timestamp).getD since

/-- The last success of an exchange is no later than its last fetch. An accepted listing bears the
time of the heartbeat that fetched it, and not that of the answer. -/
def SucceededBy (since : ℕ) (exchange : String) (s : ListingState) : Prop :=
  ∀ listing, s.listing_store.by_exchange exchange = some listing →
    listing.last_success_secs ≤ last_fetch since exchange s

/-- The last success of an exchange is no earlier in `s'` than in `s`. A listing that is there is
never taken away either. -/
def NoEarlierSuccess (exchange : String) (s s' : ListingState) : Prop :=
  ∀ listing, s.listing_store.by_exchange exchange = some listing →
    ∃ listing', s'.listing_store.by_exchange exchange = some listing'
      ∧ listing.last_success_secs ≤ listing'.last_success_secs

omit [Unicode] [Features] in
theorem NoEarlierSuccess.of_eq {exchange : String} {s s' : ListingState}
    (h : s'.listing_store.by_exchange exchange = s.listing_store.by_exchange exchange) :
    NoEarlierSuccess exchange s s' := by
  intro listing hlisting
  exact ⟨listing, h.trans hlisting, le_rfl⟩

omit [Unicode] [Features] in
theorem NoEarlierSuccess.trans {exchange : String} {s s' s'' : ListingState}
    (h : NoEarlierSuccess exchange s s') (h' : NoEarlierSuccess exchange s' s'') :
    NoEarlierSuccess exchange s s'' := by
  intro listing hlisting
  obtain ⟨listing', hlisting', hle⟩ := h listing hlisting
  obtain ⟨listing'', hlisting'', hle'⟩ := h' listing' hlisting'
  exact ⟨listing'', hlisting'', le_trans hle hle'⟩

omit [Features] in
/-- A round does not set back the last success of any exchange: the one it is about was
fetched at this time, and no earlier. -/
theorem settle_success {s : ListingState} {timestamp since : ℕ} (hlt : timestamp < 2 ^ 35)
    {exchange : String} (other : String) (houtstanding : s.Outstanding timestamp exchange)
    (h : SucceededBy since other s) :
    SucceededBy since other (settle timestamp answer s exchange)
      ∧ NoEarlierSuccess other s (settle timestamp answer s exchange) := by
  by_cases hother : other = exchange
  · subst hother
    have hnow : last_fetch since other s = timestamp := by
      rw [last_fetch, houtstanding]
      rfl
    rcases settle_self answer houtstanding hlt with
      ⟨hfetches, -, listing', hlisting', htime⟩ | ⟨hfetches, -, hstore⟩
    · -- accepted: the last success is now the last fetch
      have hlast : last_fetch since other (settle timestamp answer s other) = timestamp := by
        rw [last_fetch, hfetches]
        rfl
      refine ⟨?_, ?_⟩
      · intro listing hlisting
        rw [hlast, Option.some.inj (hlisting.symm.trans hlisting'), htime]
      · intro listing hlisting
        refine ⟨listing', hlisting', ?_⟩
        rw [htime, ← hnow]
        exact h listing hlisting
    · have hlast : last_fetch since other (settle timestamp answer s other)
          = last_fetch since other s := by
        rw [hnow, last_fetch, hfetches]
        rfl
      refine ⟨?_, NoEarlierSuccess.of_eq (by rw [hstore])⟩
      intro listing hlisting
      rw [hstore] at hlisting
      rw [hlast]
      exact h listing hlisting
  · obtain ⟨hfetches, -, hstore⟩ := settle_of_ne s timestamp answer exchange hother
    refine ⟨?_, NoEarlierSuccess.of_eq hstore⟩
    intro listing hlisting
    rw [hstore] at hlisting
    rw [last_fetch, hfetches]
    exact h listing hlisting

/-- One step does not set back the last success of an exchange, as long as no heartbeat
is from before `since`. -/
theorem success_step {s : ListingState} {since : ℕ} (hs : s.Scheduled) (exchange : String)
    (hwaiting : ∀ timestamp ∈ s.waiting, since ≤ timestamp)
    (h : SucceededBy since exchange s) (event : ListingEvent) :
    SucceededBy since exchange (s.step event)
      ∧ NoEarlierSuccess exchange s (s.step event) := by
  rcases event with now | i | ⟨i, answer⟩
  · exact ⟨h, NoEarlierSuccess.of_eq rfl⟩
  · -- a refresh starts: the fetches are later ones, the listings are the same
    rw [step]
    cases hi : s.waiting[i]? with
    | none => exact ⟨h, NoEarlierSuccess.of_eq rfl⟩
    | some timestamp =>
        have hmem := List.mem_of_getElem? hi
        dsimp only
        rcases start_refresh_cases { s with waiting := s.waiting.eraseIdx i }
          (hs.waiting timestamp hmem) with
          hsame | ⟨-, due, -, hdue, -, -, -, hstore, hexchanges⟩
        · rw [hsame]
          exact ⟨h, NoEarlierSuccess.of_eq rfl⟩
        · refine ⟨?_, NoEarlierSuccess.of_eq (by rw [hstore])⟩
          intro listing hlisting
          rw [hstore] at hlisting
          apply le_trans (h listing hlisting)
          rw [last_fetch, last_fetch, (hexchanges exchange).1]
          by_cases hdue' : exchange ∈ due
          · rw [if_pos hdue']
            -- a due exchange was not fetched after this time
            cases hlast : (s.fetches exchange).head? with
            | none => exact hwaiting timestamp hmem
            | some fetch =>
                have hnext := (hs.on_schedule exchange).next_run fetch hlast
                have hle := hdue exchange hdue'
                calc fetch.timestamp ≤ fetch.not_before := fetch.le_not_before
                  _ = s.next_listing_run exchange := hnext.symm
                  _ ≤ timestamp := hle
          · rw [if_neg hdue']
  · -- a refresh is answered: the invariant goes along its rounds
    rw [step, finish_refresh]
    rcases hs.guard with hidle | ⟨-, timestamp, due, hupdating, hlt, hnodup, houtstanding⟩
    · rw [hidle, List.getElem?_nil]
      exact ⟨h, NoEarlierSuccess.of_eq rfl⟩
    · rw [hupdating]
      cases i with
      | succ i =>
          rw [List.getElem?_cons_succ, List.getElem?_nil]
          exact ⟨h, NoEarlierSuccess.of_eq rfl⟩
      | zero =>
          refine settle_induction answer
            (P := fun s' => SucceededBy since exchange s' ∧ NoEarlierSuccess exchange s s') ?_ due s
            hnodup houtstanding ⟨h, NoEarlierSuccess.of_eq rfl⟩
          intro s' first hfirst h'
          obtain ⟨hsucceeded, hlater⟩ := settle_success answer hlt exchange hfirst h'.1
          exact ⟨hsucceeded, h'.2.trans hlater⟩

/-- Nor does a whole run. -/
theorem success_run {since : ℕ} (exchange : String) (events : List ListingEvent) :
    ∀ s : ListingState, s.Scheduled → (∀ timestamp ∈ s.waiting, since ≤ timestamp) →
      (∀ now, .heartbeat now ∈ events → since ≤ time_secs now) → SucceededBy since exchange s →
        SucceededBy since exchange (s.run events) ∧ NoEarlierSuccess exchange s (s.run events)
          ∧ ∀ timestamp ∈ (s.run events).waiting, since ≤ timestamp := by
  induction events with
  | nil =>
      intro s _ hwaiting _ h
      exact ⟨h, NoEarlierSuccess.of_eq rfl, hwaiting⟩
  | cons event events ih =>
      intro s hs hwaiting hevents h
      obtain ⟨hsucceeded, hlater⟩ := success_step hs exchange hwaiting h event
      -- a heartbeat that waits is an earlier one, or that of the event
      have hwaiting' : ∀ timestamp ∈ (s.step event).waiting, since ≤ timestamp := by
        intro timestamp hmem
        rcases mem_waiting_step s timestamp hmem with hold | ⟨now, rfl, rfl⟩
        · exact hwaiting timestamp hold
        · exact hevents now List.mem_cons_self
      obtain ⟨hsucceeded', hlater', hwaiting''⟩ := ih _ (scheduled_step hs event) hwaiting'
        (fun now hnow => hevents now (List.mem_cons_of_mem _ hnow)) hsucceeded
      exact ⟨hsucceeded', hlater.trans hlater', hwaiting''⟩

theorem run_append (s : ListingState) (events more : List ListingEvent) :
    s.run (events ++ more) = (s.run events).run more := List.foldl_append

omit [Features] in
/-- Settling offers each refresh to the store. -/
theorem settle_listing_store (exchange : String) :
    (settle timestamp answer s exchange).listing_store
      = ((⟨exchange, timestamp, answer exchange⟩ : ListingRefresh).offer s.listing_store).2 := by
  unfold settle
  dsimp only
  split <;> rfl

omit [Features] in
/-- The rounds of a refresh offer those of its exchanges, one after the other. -/
theorem settle_all_listing_store (due : List String) :
    ∀ {s : ListingState} {earlier : List ListingRefresh}, s.listing_store = store_after earlier →
      (due.foldl (settle timestamp answer) s).listing_store
        = store_after ((due.map fun exchange => ⟨exchange, timestamp, answer exchange⟩).reverse
            ++ earlier) := by
  induction due with
  | nil => exact fun h => h
  | cons exchange due ih =>
      intro s earlier h
      rw [List.foldl_cons, List.map_cons, List.reverse_cons, List.append_assoc]
      apply ih
      rw [settle_listing_store, h]
      rfl

/-- **The schedule of the listing refresh**, over every run of heartbeats from a persisted listing
store, with their forex updates taking as long as they may and any answers: at most one refresh is
outstanding; of two consecutive fetches of an exchange the later one is at or after the first day
boundary following the earlier one if that was accepted, and at least one retry interval later if
not; and the last success of an exchange never decreases, the system time having passed the
persisted one.

The invariant is `Scheduled`, with the schedule of each exchange compared to the ghost of its
fetches. Overlapping heartbeats do no harm because the schedule is moved ahead before the first
await of a refresh, and the guard is held until its answers are settled. -/
theorem listing_schedule (listing_store : ListingStore) (events : List ListingEvent) :
    (((new listing_store).run events).updating.length ≤ 1)
      ∧ (∀ exchange, (((new listing_store).run events).fetches exchange).IsChain
          fun later earlier =>
            (earlier.outcome = .accepted →
              (earlier.timestamp / ONE_DAY_SECONDS + 1) * ONE_DAY_SECONDS ≤ later.timestamp)
            ∧ (earlier.outcome ≠ .accepted →
              earlier.timestamp + LISTING_RETRY_INTERVAL ≤ later.timestamp))
      ∧ ∀ (exchange : String) (more : List ListingEvent),
          (∀ listing, listing_store.by_exchange exchange = some listing →
            ∀ now, .heartbeat now ∈ events ++ more → listing.last_success_secs ≤ time_secs now) →
          ∀ listing, ((new listing_store).run events).listing_store.by_exchange exchange
              = some listing →
            ∃ listing', ((new listing_store).run (events ++ more)).listing_store.by_exchange exchange
                = some listing'
              ∧ listing.last_success_secs ≤ listing'.last_success_secs := by
  have hscheduled := scheduled_run (scheduled_new listing_store) events
  refine ⟨?_, ?_, ?_⟩
  · rcases hscheduled.guard with hidle | ⟨-, timestamp, due, hupdating, -⟩
    · rw [hidle]
      exact Nat.zero_le _
    · rw [hupdating]
      exact le_rfl
  · intro exchange
    apply (hscheduled.on_schedule exchange).spaced.imp
    intro later earlier hle
    refine ⟨?_, ?_⟩
    · intro haccepted
      rw [ListingFetch.not_before, if_pos haccepted] at hle
      exact hle
    · intro hrefused
      rw [ListingFetch.not_before, if_neg hrefused] at hle
      exact hle
  · intro exchange more hpast
    -- a persisted listing is from before every heartbeat; without one any time will do
    obtain ⟨since, hsince, hheartbeats⟩ : ∃ since, SucceededBy since exchange (new listing_store)
        ∧ ∀ now, .heartbeat now ∈ events ++ more → since ≤ time_secs now := by
      cases hpersisted : listing_store.by_exchange exchange with
      | none =>
          refine ⟨0, ?_, fun now _ => Nat.zero_le _⟩
          intro listing hlisting
          cases hpersisted.symm.trans hlisting
      | some listing =>
          refine ⟨listing.last_success_secs, ?_, hpast listing hpersisted⟩
          intro listing' hlisting'
          rw [Option.some.inj (hlisting'.symm.trans hpersisted)]
          rfl
    obtain ⟨hsucceeded, -, hwaiting⟩ := success_run exchange events _
      (scheduled_new listing_store) (fun timestamp hmem => absurd hmem List.not_mem_nil)
      (fun now hnow => hheartbeats now (List.mem_append_left _ hnow)) hsince
    rw [run_append]
    exact (success_run exchange more _ hscheduled hwaiting
      (fun now hnow => hheartbeats now (List.mem_append_right _ hnow)) hsucceeded).2.1

end Steps

end periodic

end Xrc
