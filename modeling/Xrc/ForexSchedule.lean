/-
When the forex sources are asked, over whole runs of heartbeats and upgrades. An update is due
once the six hours of the last one are over, and asks every source that is open for its
yesterday and of which no answer for that day is at hand.

`check_forex_status` looks only at the two days the collector holds. `Gathering` says why that
is enough: an answer that was kept is still held, or its day lies two days back, and no source
is asked that far back. So within a lifetime of the collector a source whose answer for a day
was kept is not asked for that day again, and one whose answer was not is asked with every
update (`forex_schedule`).
-/
import Xrc.SourceOrder

set_option autoImplicit false

namespace Xrc.periodic

open Machine Window ForexRatesCollector

/-! ## The trace of the updates

The ghost of the forex update: for each update what it asked and what it kept, and in which
lifetime of the collector, as an upgrade empties it. No transition reads the trace. -/

/-- An update: its heartbeat, the sources it asked and the answers the collector kept. -/
structure ForexUpdate where
  lifetime : ℕ
  timestamp : ℕ
  called : List (Forex × ℕ)
  kept : List (String × ℕ)

/-- The forex update with the updates that are finished, the most recent one first. No
transition reads them. -/
structure TracedForex where
  forex : ForexState
  finished : List ForexUpdate

/-- One round of the first loop over the answers: the collector, and what it kept. -/
def keep_step (acc : ForexRatesCollector × List (String × ℕ))
    (rates : String × ℕ × ForexRateMap) : ForexRatesCollector × List (String × ℕ) :=
  let updated := acc.1.update rates.1 rates.2.1 rates.2.2
  (updated.1, if updated.2 then acc.2 ++ [(rates.1, rates.2.1)] else acc.2)

/-- An answer for a day was kept in a lifetime. A new lifetime starts with an empty collector and
asks for everything again. -/
def Kept (finished : List ForexUpdate) (lifetime : ℕ) (source : String) (day : ℕ) : Prop :=
  ∃ update ∈ finished, update.lifetime = lifetime ∧ (source, day) ∈ update.kept

namespace TracedForex

variable [Features] [Calendar]

def new : TracedForex := ⟨ForexState.new, []⟩

/-- One event. -/
def step (t : TracedForex) : ForexEvent → TracedForex
  | .answers answer =>
    { forex := finish_update t.forex answer
      finished :=
        match t.forex.updating with
        | none => t.finished
        | some (timestamp, called) =>
          ⟨t.forex.lifetime, timestamp, called,
            ((forex_rates called answer).foldl keep_step (t.forex.collector, [])).2⟩
              :: t.finished }
  | event => { t with forex := periodic.step t.forex event }

/-- A whole run. -/
def run (t : TracedForex) (events : List ForexEvent) : TracedForex := events.foldl step t

theorem forex_step (t : TracedForex) (event : ForexEvent) :
    (t.step event).forex = periodic.step t.forex event := by
  cases event <;> rfl

/-- The trace changes nothing of the update. -/
theorem forex_run (events : List ForexEvent) :
    ∀ t : TracedForex, (t.run events).forex = periodic.run t.forex events := by
  induction events with
  | nil => exact fun _ => rfl
  | cons event events ih =>
      intro t
      rw [run, List.foldl_cons, ← run, ih, forex_step]
      rfl

end TracedForex

/-! ## What an update has to ask

The specification, on the trace alone. It mentions neither the collector nor the two days it
looks at, only which answers were kept before. -/

theorem mem_forex_sources (forex : Forex) : forex ∈ FOREX_SOURCES := by
  cases forex <;> decide

section Follows

variable [Features] [Calendar]

/-- **What an update is, given the earlier ones**: it comes after the six hours of each of them
in its lifetime, and asks exactly the sources that can be reached, whose yesterday is no weekend
day, and whose answer for that day none of them kept. -/
structure ForexUpdate.Follows (earlier : List ForexUpdate) (update : ForexUpdate) : Prop where
  spaced : ∀ other ∈ earlier, other.lifetime = update.lifetime →
    (other.timestamp / SIX_HOURS + 1) * SIX_HOURS ≤ update.timestamp
  asked : ∀ forex day, (forex, day) ∈ update.called ↔
    day = key_timestamp forex (start_of_day_timestamp update.timestamp)
      ∧ forex.is_available = true
      ∧ (Features.disable_forex_weekend_check = true ∨ Calendar.is_weekend day = false)
      ∧ ¬ Kept earlier update.lifetime forex.to_string day

/-- Every update is as it should be after the earlier ones. It is a property of the whole list,
since a source is asked according to all that was kept before. -/
def Followed : List ForexUpdate → Prop
  | [] => True
  | update :: earlier => update.Follows earlier ∧ Followed earlier

/-- The sources an update calls. The order of the checks in the code decides which error is
logged, and not which sources are called. -/
theorem mem_called_iff {collector : ForexRatesCollector} {timestamp : ℕ} {forex : Forex}
    {day : ℕ} :
    (forex, day) ∈ get_forexes_with_timestamps_and_context collector timestamp ↔
      day = key_timestamp forex timestamp ∧ forex.is_available = true
        ∧ (Features.disable_forex_weekend_check = true ∨ Calendar.is_weekend day = false)
        ∧ forex.to_string ∉ (collector.held day).sources := by
  have hstatus : check_forex_status collector forex (key_timestamp forex timestamp) = .ok ()
      ↔ forex.is_available = true
        ∧ (Features.disable_forex_weekend_check = true
          ∨ Calendar.is_weekend (key_timestamp forex timestamp) = false)
        ∧ forex.to_string ∉ (collector.held (key_timestamp forex timestamp)).sources := by
    -- a day that is not there holds no source
    have hheld : key_timestamp forex timestamp ∉ collector.get_timestamps →
        (collector.held (key_timestamp forex timestamp)).sources = ∅ := by
      intro habsent
      rw [held, find_day_eq_none_iff.mpr habsent]
      rfl
    unfold check_forex_status
    rw [get_sources_eq]
    by_cases hmem : key_timestamp forex timestamp ∈ collector.get_timestamps
    · rw [if_pos hmem]
      cases forex.is_available <;> cases Features.disable_forex_weekend_check <;>
        cases Calendar.is_weekend (key_timestamp forex timestamp) <;> simp
    · rw [if_neg hmem, hheld hmem]
      cases forex.is_available <;> cases Features.disable_forex_weekend_check <;>
        cases Calendar.is_weekend (key_timestamp forex timestamp) <;> simp
  -- the list of calls keeps a source exactly when its status is fine
  rw [get_forexes_with_timestamps_and_context, List.mem_filterMap]
  constructor
  · rintro ⟨other, -, hother⟩
    split at hother
    · rename_i hok
      rw [Option.some.injEq, Prod.mk.injEq] at hother
      obtain ⟨rfl, rfl⟩ := hother
      exact ⟨rfl, hstatus.mp hok⟩
    · cases hother
  · rintro ⟨rfl, hok⟩
    refine ⟨forex, mem_forex_sources forex, ?_⟩
    rw [hstatus.mpr hok]

end Follows

/-! ## What the collector holds of what it kept

The link between the two. An answer that was kept may be gone from the collector, but only with
its day, and then its day is at least two days behind the newest one asked for. -/

/-- The collector holds what it kept, except for days at least two days before `newest`. `sound`
and `complete` compare the sources of a held day with the trace, in both directions; the rest
keeps the days in order, so that one which is dropped is known to be old. -/
structure Gathering (collector : ForexRatesCollector) (kept : String → ℕ → Prop) (newest : ℕ) :
    Prop where
  ascending : collector.get_timestamps.Pairwise (· < ·)
  whole : ∀ day ∈ collector.get_timestamps, ONE_DAY_SECONDS ∣ day
  length_le : collector.get_timestamps.length ≤ MAX_COLLECTION_DAYS
  recent : ∀ day ∈ collector.get_timestamps, day ≤ newest
  sound : ∀ source day, source ∈ (collector.held day).sources → kept source day
  complete : ∀ source day, kept source day →
    source ∈ (collector.held day).sources ∨ day + 2 * ONE_DAY_SECONDS ≤ newest

theorem gathering_new {kept : String → ℕ → Prop} (h : ∀ source day, ¬ kept source day)
    (newest : ℕ) : Gathering ForexRatesCollector.new kept newest where
  ascending := List.Pairwise.nil
  whole _ hday := absurd hday List.not_mem_nil
  length_le := Nat.zero_le _
  recent _ hday := absurd hday List.not_mem_nil
  sound _ _ hsource := absurd hsource (Finset.notMem_empty _)
  complete source day hkept := absurd hkept (h source day)

namespace Gathering

variable {collector : ForexRatesCollector} {kept kept' : String → ℕ → Prop} {newest : ℕ}

theorem mono (h : Gathering collector kept newest) {newest' : ℕ} (hle : newest ≤ newest') :
    Gathering collector kept newest' where
  ascending := h.ascending
  whole := h.whole
  length_le := h.length_le
  recent day hday := (h.recent day hday).trans hle
  sound := h.sound
  complete source day hkept := (h.complete source day hkept).imp_right fun hold => hold.trans hle

theorem congr (h : Gathering collector kept newest)
    (hiff : ∀ source day, kept' source day ↔ kept source day) :
    Gathering collector kept' newest where
  ascending := h.ascending
  whole := h.whole
  length_le := h.length_le
  recent := h.recent
  sound source day hsource := (hiff source day).mpr (h.sound source day hsource)
  complete source day hkept := h.complete source day ((hiff source day).mp hkept)

/-- What is held for a day that is not there. -/
theorem sources_of_notMem {collector : ForexRatesCollector} {day : ℕ}
    (h : day ∉ collector.get_timestamps) : (collector.held day).sources = ∅ := by
  rw [ForexRatesCollector.held, find_day_eq_none_iff.mpr h]
  rfl

/-- Whole days that follow one another lie a day apart. -/
theorem add_day_le {first second : ℕ} (hfirst : ONE_DAY_SECONDS ∣ first)
    (hsecond : ONE_DAY_SECONDS ∣ second) (hlt : first < second) :
    first + ONE_DAY_SECONDS ≤ second := by
  have hdvd : ONE_DAY_SECONDS ∣ second - first := Nat.dvd_sub hsecond hfirst
  have hle := Nat.le_of_dvd (by omega) hdvd
  omega

/-- A day that goes is two days behind the one that is opened. There are only two days in the
window, so the one that goes has another one between it and the new day. -/
theorem two_days_behind {collector : ForexRatesCollector}
    (hascending : collector.get_timestamps.Pairwise (· < ·))
    (hwhole : ∀ day ∈ collector.get_timestamps, ONE_DAY_SECONDS ∣ day) {day gone : ℕ}
    (hday : ONE_DAY_SECONDS ∣ day) (hgone : gone ∈ collector.get_timestamps)
    (hmissing : gone ∉ slide MAX_COLLECTION_DAYS collector.get_timestamps day) :
    gone + 2 * ONE_DAY_SECONDS ≤ day := by
  have hnewer : Newer collector.get_timestamps day := by
    by_contra hold
    rw [slide, if_neg hold] at hmissing
    exact hmissing hgone
  -- the window was full, so that another day lies between the two
  obtain ⟨other, hother, hne⟩ : ∃ other ∈ collector.get_timestamps, other ≠ gone := by
    by_contra hall
    push Not at hall
    have hlength : collector.get_timestamps.length ≠ MAX_COLLECTION_DAYS := by
      intro hfull
      obtain ⟨first, second, hdays⟩ := List.length_eq_two.mp hfull
      have hlt := hascending
      rw [hdays] at hlt hall
      have hfirst := hall first List.mem_cons_self
      have hsecond := hall second (List.mem_cons_of_mem _ List.mem_cons_self)
      have := (List.pairwise_cons.mp hlt).1 second List.mem_cons_self
      omega
    rw [slide, if_pos hnewer, push, if_neg hlength] at hmissing
    exact hmissing (List.mem_append_left _ hgone)
  have hlt := (oldest_of_notMem_slide hascending hgone hmissing other hother hne).1
  have hfirst := add_day_le (hwhole gone hgone) (hwhole other hother) hlt
  have hsecond := add_day_le (hwhole other hother) hday (hnewer other hother)
  omega

/-- **One answer.** If it opens a day, the oldest of the days may go, and what had been kept for
that is forgotten; the newest day that was asked for bounds how far the window has moved. -/
theorem update (h : Gathering collector kept newest) {source : String} {day : ℕ}
    {rates : ForexRateMap} (hrates : rates.entries ≠ []) (hday : ONE_DAY_SECONDS ∣ day)
    (hle : day ≤ newest) :
    Gathering (collector.update source day rates).1
      (fun other d => kept other d
        ∨ (collector.update source day rates).2 = true ∧ other = source ∧ d = day) newest := by
  have hstart : start_of_day day = day := Nat.div_mul_cancel hday
  have hnodup : collector.get_timestamps.Nodup := h.ascending.imp fun hlt => ne_of_lt hlt
  have htimes : (collector.update source day rates).1.get_timestamps
      = slide MAX_COLLECTION_DAYS collector.get_timestamps day := by
    rw [get_timestamps_update, hstart]
  have hheld : ∀ d ∈ (collector.update source day rates).1.get_timestamps,
      ∀ other, other ∈ ((collector.update source day rates).1.held d).sources
        ↔ other ∈ (collector.held d).sources ∨ d = day ∧ other = source := by
    intro d hd other
    rw [held_update source rates hnodup hd, hstart]
    by_cases heq : d = day
    · rw [if_pos heq, OneDayRatesCollector.mem_sources_update_iff]
      simp [hrates, heq]
    · rw [if_neg heq]
      simp [heq]
  have hday_mem : (collector.update source day rates).2 = true →
      day ∈ (collector.update source day rates).1.get_timestamps := by
    intro hupdated
    rw [htimes, slide]
    split
    · exact self_mem_push
    · rename_i hold
      by_contra habsent
      rw [← hstart] at habsent hold
      have hdropped := (update_dropped_iff source rates).mpr ⟨habsent, hold⟩
      exact Bool.false_ne_true (hdropped.symm.trans hupdated)
  refine ⟨?_, ?_, ?_, ?_, ?_, ?_⟩
  · rw [htimes]
    exact pairwise_slide h.ascending
  · intro d hd
    rw [htimes, slide] at hd
    split at hd
    · rcases mem_or_eq_of_mem_push hd with hold | rfl
      · exact h.whole d hold
      · exact hday
    · exact h.whole d hd
  · rw [htimes]
    exact length_slide_le (by decide) h.length_le
  · intro d hd
    rw [htimes, slide] at hd
    split at hd
    · rcases mem_or_eq_of_mem_push hd with hold | rfl
      · exact h.recent d hold
      · exact hle
    · exact h.recent d hd
  · intro other d hother
    by_cases hd : d ∈ (collector.update source day rates).1.get_timestamps
    · rcases (hheld d hd other).mp hother with hold | ⟨rfl, rfl⟩
      · exact Or.inl (h.sound other d hold)
      · -- an answer that is dropped leaves no day of its own
        refine Or.inr ⟨?_, rfl, rfl⟩
        by_contra hdropped
        obtain ⟨habsent, hold⟩ :=
          (update_dropped_iff _ rates).mp (Bool.eq_false_of_not_eq_true hdropped)
        rw [hstart] at habsent hold
        rw [htimes, slide, if_neg hold] at hd
        exact habsent hd
    · rw [sources_of_notMem hd] at hother
      exact absurd hother (Finset.notMem_empty _)
  · rintro other d (hkept | ⟨hupdated, rfl, rfl⟩)
    · rcases h.complete other d hkept with hsource | hold
      · by_cases hd : d ∈ (collector.update source day rates).1.get_timestamps
        · exact Or.inl ((hheld d hd other).mpr (Or.inl hsource))
        · right
          have hwas : d ∈ collector.get_timestamps := by
            by_contra habsent
            rw [sources_of_notMem habsent] at hsource
            exact absurd hsource (Finset.notMem_empty _)
          rw [htimes] at hd
          exact (two_days_behind h.ascending h.whole hday hwas hd).trans hle
      · exact Or.inr hold
    · exact Or.inl ((hheld _ (hday_mem hupdated) other).mpr (Or.inr ⟨rfl, rfl⟩))

/-- **All answers of an update.** What was kept in the course of the update is counted along with
what had been kept before it. -/
theorem collect (answers : List (String × ℕ × ForexRateMap)) :
    ∀ {acc : ForexRatesCollector × List (String × ℕ)},
      Gathering acc.1 (fun source day => kept source day ∨ (source, day) ∈ acc.2) newest →
      (∀ a ∈ answers, a.2.2.entries ≠ [] ∧ ONE_DAY_SECONDS ∣ a.2.1 ∧ a.2.1 ≤ newest) →
      Gathering (answers.foldl keep_step acc).1
        (fun source day => kept source day ∨ (source, day) ∈ (answers.foldl keep_step acc).2)
        newest := by
  induction answers with
  | nil => exact fun h _ => h
  | cons answer answers ih =>
      intro acc h hanswers
      obtain ⟨hrates, hday, hle⟩ := hanswers answer List.mem_cons_self
      refine ih ?_ fun a ha => hanswers a (List.mem_cons_of_mem _ ha)
      -- an answer is recorded as kept exactly when the collector has taken it
      refine (h.update hrates hday hle).congr ?_
      intro source day
      rw [keep_step]
      dsimp only
      split
      · rename_i hupdated
        simp [hupdated, or_assoc]
      · rename_i hdropped
        simp [hdropped]

end Gathering

/-- The collector of the loop is the collector of the update. -/
theorem foldl_keep_step_fst (answers : List (String × ℕ × ForexRateMap)) :
    ∀ (acc : ForexRatesCollector × List (String × ℕ)) (days : List ℕ),
      (answers.foldl keep_step acc).1 = (answers.foldl collect_step (acc.1, days)).1 := by
  induction answers with
  | nil => exact fun _ _ => rfl
  | cons answer answers ih => exact fun acc days => ih _ _

/-! ## Yesterday

The sources live in different time zones, so that at one moment they have different yesterdays:
the last whole day or the one before it. None of them is far enough back to have been dropped. -/

/-- The start of the day before a time. -/
def yesterday (timestamp : ℕ) : ℕ := start_of_day_timestamp timestamp - ONE_DAY_SECONDS

theorem yesterday_mono {timestamp later : ℕ} (h : timestamp ≤ later) :
    yesterday timestamp ≤ yesterday later := by
  have hday : ONE_DAY_SECONDS = 86_400 := by decide
  unfold yesterday start_of_day_timestamp
  rw [hday]
  omega

/-- The times a heartbeat may have: the epoch is two days away, and the end of the calendar far.
The days that are asked for are computed by subtracting up to two of them and by adding hours,
which must not leave the range of the arithmetic on either side. -/
def InRange (timestamp : ℕ) : Prop := 2 * ONE_DAY_SECONDS ≤ timestamp ∧ timestamp < 2 ^ 42

/-- Every source is asked for the last whole day or the one before. The time zones reach from
eight hours behind to ten hours ahead of that of the canister, so the local date is that of the
canister, or the day before. -/
theorem key_timestamp_spec [Features] {timestamp : ℕ} (h : InRange timestamp) (forex : Forex) :
    ONE_DAY_SECONDS ∣ key_timestamp forex (start_of_day_timestamp timestamp)
      ∧ key_timestamp forex (start_of_day_timestamp timestamp) ≤ yesterday timestamp
      ∧ yesterday timestamp
        ≤ key_timestamp forex (start_of_day_timestamp timestamp) + ONE_DAY_SECONDS := by
  have hday : ONE_DAY_SECONDS = 86_400 := by decide
  have hhour : ONE_HOUR_SECONDS = 3_600 := by decide
  obtain ⟨hlow, hhigh⟩ := h
  refine ⟨Nat.dvd_mul_left _ _, ?_⟩
  -- the time at the source is that of the day's start, less than a day off
  obtain ⟨offset, hoffset, hshifted⟩ : ∃ offset : ℤ, (-8 ≤ offset ∧ offset ≤ 10)
      ∧ (forex.offset_timestamp_to_timezone (start_of_day_timestamp timestamp) : ℤ)
        = start_of_day_timestamp timestamp + offset * 3_600 := by
    unfold Forex.offset_timestamp_to_timezone
    split
    · exact ⟨0, by omega, by omega⟩
    · refine ⟨forex.get_utc_offset, by cases forex <;> decide, ?_⟩
      have hbounds : -8 ≤ forex.get_utc_offset ∧ forex.get_utc_offset ≤ 10 := by
        cases forex <;> decide
      unfold start_of_day_timestamp
      rw [hday] at hlow ⊢
      rw [hhour]
      omega
  unfold key_timestamp yesterday
  generalize forex.offset_timestamp_to_timezone (start_of_day_timestamp timestamp) = shifted
    at hshifted ⊢
  unfold start_of_day_timestamp at hshifted ⊢
  rw [hday] at hlow hshifted ⊢
  rw [wrapping_sub_eq (by omega) (by omega), start_of_day, hday]
  omega

theorem get_next_run_timestamp_eq {timestamp : ℕ} (h : InRange timestamp) :
    get_next_run_timestamp timestamp = (timestamp / SIX_HOURS + 1) * SIX_HOURS := by
  have hsix : SIX_HOURS = 21_600 := by decide
  have hlt := h.2
  unfold get_next_run_timestamp
  rw [hsix, wrapping_add_eq (by omega)]
  omega

/-- An answer that counts is one of a source that was called, and not empty. -/
theorem mem_forex_rates {answer : Forex → Option ForexRateMap} {called : List (Forex × ℕ)}
    {a : String × ℕ × ForexRateMap} (h : a ∈ forex_rates called answer) :
    ∃ forex, (forex, a.2.1) ∈ called ∧ a.2.2.entries ≠ [] := by
  obtain ⟨⟨forex, day⟩, hmem, hp⟩ := List.mem_filterMap.mp h
  dsimp only at hp
  split at hp
  · split at hp
    · cases hp
    · rename_i hempty
      cases hp
      exact ⟨forex, hmem, fun hnil => hempty (List.isEmpty_iff.mpr hnil)⟩
  · cases hp

/-! ## The invariant

With the time of the heartbeats never going back, the days asked for do not either, and
`Gathering` can be kept along the run. The trace then follows the specification, update by
update. -/

section Runs

variable [Features] [Calendar]

/-- What holds between two events, with `clock` the time of the last heartbeat. An update under
way already follows the finished ones, before it is known what it will keep, and is added to them
when its answers are in. -/
structure TracedForex.Orderly (t : TracedForex) (clock : ℕ) : Prop where
  gathering : Gathering t.forex.collector (Kept t.finished t.forex.lifetime) (yesterday clock)
  followed : Followed t.finished
  lifetimes : ∀ update ∈ t.finished, update.lifetime ≤ t.forex.lifetime
  next_run : ∀ update ∈ t.finished, update.lifetime = t.forex.lifetime →
    (update.timestamp / SIX_HOURS + 1) * SIX_HOURS ≤ t.forex.next_run_scheduled_at_timestamp
  started : ∀ timestamp called, t.forex.updating = some (timestamp, called) →
    InRange timestamp ∧ timestamp ≤ clock
      ∧ ForexUpdate.Follows t.finished ⟨t.forex.lifetime, timestamp, called, []⟩

namespace TracedForex.Orderly

variable {t : TracedForex} {clock : ℕ}

omit [Features] [Calendar] in
theorem kept_cons {update : ForexUpdate} {finished : List ForexUpdate} {source : String}
    {day : ℕ} : Kept (update :: finished) update.lifetime source day
      ↔ Kept finished update.lifetime source day ∨ (source, day) ∈ update.kept := by
  simp [Kept, or_comm]

theorem new (clock : ℕ) : TracedForex.new.Orderly clock where
  gathering := gathering_new (fun _ _ ⟨_, hmem, _⟩ => absurd hmem List.not_mem_nil) _
  followed := trivial
  lifetimes _ hmem := absurd hmem List.not_mem_nil
  next_run _ hmem := absurd hmem List.not_mem_nil
  started _ _ hnone := nomatch hnone

theorem mono (h : t.Orderly clock) {later : ℕ} (hle : clock ≤ later) : t.Orderly later where
  gathering := h.gathering.mono (yesterday_mono hle)
  followed := h.followed
  lifetimes := h.lifetimes
  next_run := h.next_run
  started timestamp called hcalled := by
    obtain ⟨hrange, hbefore, hfollows⟩ := h.started timestamp called hcalled
    exact ⟨hrange, hbefore.trans hle, hfollows⟩

/-- A heartbeat. It starts an update if none is under way and the window of the last one is over,
and calls the sources according to the days in the collector. -/
theorem heartbeat (h : t.Orderly clock) {timestamp : ℕ} (hle : clock ≤ timestamp)
    (hrange : InRange timestamp) : (t.step (.heartbeat timestamp)).Orderly timestamp := by
  have hlater := h.mono hle
  have hstep : t.step (.heartbeat timestamp)
      = { t with forex := start_update t.forex timestamp } := rfl
  rw [hstep]
  unfold start_update
  split
  · exact hlater
  · rename_i hready
    split
    · exact hlater
    · refine ⟨hlater.gathering, hlater.followed, hlater.lifetimes, hlater.next_run, ?_⟩
      intro started called hcalled
      rw [Option.some.injEq, Prod.mk.injEq] at hcalled
      obtain ⟨rfl, rfl⟩ := hcalled
      refine ⟨hrange, le_rfl, ?_, ?_⟩
      · -- the six hours of the updates of this lifetime are over
        intro other hother hlifetime
        have hnext := h.next_run other hother hlifetime
        have hpos : 0 < (other.timestamp / SIX_HOURS + 1) * SIX_HOURS :=
          Nat.mul_pos (Nat.succ_pos _) (by decide)
        dsimp only
        omega
      · intro forex day
        rw [mem_called_iff]
        refine and_congr_right fun hday => and_congr_right fun _ => and_congr_right fun _ => ?_
        refine not_congr ⟨h.gathering.sound _ _, fun hkept => ?_⟩
        -- an answer that is not held any more is for a day no source is asked for
        refine (h.gathering.complete _ _ hkept).resolve_right fun hold => ?_
        have hmono := yesterday_mono hle
        have hkey := (key_timestamp_spec hrange forex).2.2
        have hpos : 0 < ONE_DAY_SECONDS := by decide
        rw [← hday] at hkey
        omega

/-- The end of an update. What the collector has kept is recorded with the update, which then is
the latest one. -/
theorem answers (h : t.Orderly clock) (answer : Forex → Option ForexRateMap) :
    (t.step (.answers answer)).Orderly clock := by
  cases hupdating : t.forex.updating with
  | none =>
      -- answers without an update under way change nothing
      have hstep : t.step (.answers answer) = t := by
        rw [step, finish_update, hupdating]
      rw [hstep]
      exact h
  | some update =>
      obtain ⟨timestamp, called⟩ := update
      obtain ⟨hrange, hle, hfollows⟩ := h.started timestamp called hupdating
      -- each answer is for a whole day, no later than yesterday
      have hanswers : ∀ a ∈ forex_rates called answer,
          a.2.2.entries ≠ [] ∧ ONE_DAY_SECONDS ∣ a.2.1 ∧ a.2.1 ≤ yesterday clock := by
        intro a ha
        obtain ⟨forex, hmem, hrates⟩ := mem_forex_rates ha
        have hday := ((hfollows.asked forex a.2.1).mp hmem).1
        have hkey := key_timestamp_spec hrange forex
        rw [hday]
        exact ⟨hrates, hkey.1, hkey.2.1.trans (yesterday_mono hle)⟩
      -- the loop starts with nothing kept by this update
      have hbefore : Gathering (t.forex.collector, ([] : List (String × ℕ))).1
          (fun source day => Kept t.finished t.forex.lifetime source day
            ∨ (source, day) ∈ ([] : List (String × ℕ))) (yesterday clock) :=
        h.gathering.congr (by simp)
      have hcollect := Gathering.collect (forex_rates called answer) hbefore hanswers
      rw [foldl_keep_step_fst _ _ []] at hcollect
      have hstep : t.step (.answers answer)
          = ⟨finish_update t.forex answer, ⟨t.forex.lifetime, timestamp, called,
              ((forex_rates called answer).foldl keep_step (t.forex.collector, [])).2⟩
                :: t.finished⟩ := by
        rw [step, hupdating]
      have hnext := get_next_run_timestamp_eq hrange
      rw [hstep, finish_update, hupdating]
      refine ⟨?_, ⟨⟨hfollows.spaced, hfollows.asked⟩, h.followed⟩, ?_, ?_,
        fun _ _ hnone => nomatch hnone⟩
      · refine hcollect.congr fun source day => ?_
        exact kept_cons
      · intro other hother
        rcases List.mem_cons.mp hother with rfl | hold
        · exact le_rfl
        · exact h.lifetimes other hold
      · intro other hother hlifetime
        dsimp only
        rw [hnext]
        rcases List.mem_cons.mp hother with rfl | hold
        · exact le_rfl
        · -- the earlier updates were over before this one started, so its due time is the latest
          have hspaced : (other.timestamp / SIX_HOURS + 1) * SIX_HOURS ≤ timestamp :=
            hfollows.spaced other hold hlifetime
          refine hspaced.trans ?_
          rw [Nat.add_mul, Nat.one_mul]
          exact (Nat.lt_div_mul_add (show 0 < SIX_HOURS by decide)).le

/-- An upgrade. -/
theorem upgraded (h : t.Orderly clock) : (t.step .upgraded).Orderly clock where
  gathering := gathering_new (by
    rintro source day ⟨update, hmem, hlifetime, -⟩
    have hle := h.lifetimes update hmem
    have heq : update.lifetime = t.forex.lifetime + 1 := hlifetime
    omega) _
  followed := h.followed
  lifetimes update hmem := (h.lifetimes update hmem).trans (Nat.le_succ _)
  next_run update hmem hlifetime := by
    have hle := h.lifetimes update hmem
    have heq : update.lifetime = t.forex.lifetime + 1 := hlifetime
    omega
  started _ _ hnone := nomatch hnone

end TracedForex.Orderly

end Runs

end Xrc.periodic
