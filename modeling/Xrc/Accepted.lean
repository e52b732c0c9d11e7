/-
The answers a collector has accepted, over any number of updates. `Sound` is the invariant: no day
is opened twice, and no source is accepted twice for a day. What the update of the store relies
on is `Sound.batch`: a day it is going to store is still there when all answers of the update
are in, because its sources are asked for two neighbouring days and the collector has room for
two.
-/
import Xrc.CollectorDays
import Xrc.ForexSchedule

set_option autoImplicit false

namespace Xrc

open Machine Window

namespace ForexRatesCollector

namespace Recorded

/-! ## One answer

A result joins those of its day, or opens a new one, or is dropped; only the last leaves no
trace. An update asks no source for a day the collector holds an answer of it for, which is what
`Fresh` says of a whole batch in advance. -/

/-- A batch of results, in the order of the list. -/
def record_all (self : Recorded) (results : List SourceResult) : Recorded :=
  results.foldl Recorded.record self

/-- What holds of a collector with the results it has accepted: no day is opened twice, the
results are those of their day, and no source is accepted twice for a day. -/
structure Sound (r : Recorded) : Prop where
  represents : Represents r
  opened : ∀ day, Newer r.collector.get_timestamps day → r.accepted day = []
  filed : ∀ day, ∀ result ∈ r.accepted day, result.day = day ∧ result.rates.entries ≠ []
  distinct : ∀ day, ((r.accepted day).map SourceResult.source).Nodup

/-- Nothing was collected from the sources of a batch yet, for their days. Each source answers
once in a batch, for one day, and an empty answer does not count as one. -/
structure Fresh (r : Recorded) (results : List SourceResult) : Prop where
  nodup : (results.map SourceResult.source).Nodup
  absent : ∀ result ∈ results, result.source ∉ (r.collector.held result.day).sources
  quoting : ∀ result ∈ results, result.rates.entries ≠ []

theorem sound_new : Sound ⟨ForexRatesCollector.new, fun _ => []⟩ where
  represents := represents_recorded []
  opened _ _ := rfl
  filed _ _ hmem := absurd hmem List.not_mem_nil
  distinct _ := List.nodup_nil

variable {r : Recorded} {result : SourceResult}

theorem Sound.nodup (h : Sound r) : r.collector.get_timestamps.Nodup := h.represents.nodup

/-- The result is dropped. The second component of an update says whether the collector took it: a
result for a day that is no longer collected is the only one that it refuses. -/
def Dropped (r : Recorded) (result : SourceResult) : Prop :=
  (r.collector.update result.source result.timestamp result.rates).2 = false

instance (r : Recorded) (result : SourceResult) : Decidable (r.Dropped result) :=
  inferInstanceAs (Decidable (_ = false))

theorem dropped_iff : r.Dropped result ↔ result.day ∉ r.collector.get_timestamps
    ∧ ¬ Newer r.collector.get_timestamps result.day := update_dropped_iff _ _

/-- A result that is dropped changes nothing. -/
theorem record_of_dropped (h : r.Dropped result) : r.record result = r := by
  obtain ⟨habsent, hold⟩ := dropped_iff.mp h
  have hupdate := update_of_old result.source result.rates habsent hold
  unfold record
  rw [hupdate]
  rfl

/-- **A result that is not dropped joins those of its day**, also when it opens it: nothing has
been accepted for a day that is newer than all that are held. -/
theorem Sound.accepted_record (h : Sound r) (hkept : ¬ r.Dropped result) :
    (r.record result).accepted
      = Function.update r.accepted result.day (r.accepted result.day ++ [result]) := by
  refine (if_neg hkept).trans ?_
  by_cases hmem : result.day ∈ r.collector.get_timestamps
  · rw [if_pos hmem]
  · have hnewer : Newer r.collector.get_timestamps result.day := by
      by_contra hold
      exact hkept (dropped_iff.mpr ⟨hmem, hold⟩)
    rw [if_neg hmem, h.opened _ hnewer, List.nil_append]

theorem get_timestamps_record (r : Recorded) (result : SourceResult) :
    (r.record result).collector.get_timestamps
      = slide MAX_COLLECTION_DAYS r.collector.get_timestamps result.day := get_timestamps_update _ _

/-- The day of a result that is not dropped is there. -/
theorem day_mem_record (hkept : ¬ r.Dropped result) :
    result.day ∈ (r.record result).collector.get_timestamps := by
  rw [get_timestamps_record, slide]
  split
  · exact self_mem_push
  · rename_i hold
    by_contra habsent
    exact hkept (dropped_iff.mpr ⟨habsent, hold⟩)

/-- What is held for a day comes from the accepted results. -/
theorem Sound.mem_sources_held (h : Sound r) {day : ℕ}
    (hday : day ∈ r.collector.get_timestamps) (source : String) :
    source ∈ (r.collector.held day).sources
      ↔ source ∈ (r.accepted day).map SourceResult.source := by
  rw [h.represents.held day hday, OneDayRatesCollector.mem_sources_update_all, List.mem_map]
  constructor
  · rintro (hnew | ⟨result, hmem, -, rfl⟩)
    · exact absurd hnew (Finset.notMem_empty _)
    · exact ⟨result, hmem, rfl⟩
  · rintro ⟨result, hmem, rfl⟩
    exact Or.inr ⟨result, hmem, (h.filed day result hmem).2, rfl⟩

/-- **One result** keeps the collector sound, when nothing was accepted from its source for its
day. -/
theorem Sound.record (h : Sound r) (habsent : result.source ∉ (r.collector.held result.day).sources)
    (hquoting : result.rates.entries ≠ []) : Sound (r.record result) := by
  by_cases hdropped : r.Dropped result
  · rw [record_of_dropped hdropped]
    exact h
  have haccepted := h.accepted_record hdropped
  refine ⟨represents_record h.represents result, ?_, ?_, ?_⟩
  · -- a day newer than the window now was newer before, and is not that of the result
    intro day hnewer
    have hne : day ≠ result.day := fun heq =>
      lt_irrefl _ (heq ▸ hnewer _ (day_mem_record hdropped))
    rw [haccepted, Function.update_of_ne hne]
    apply h.opened
    intro other hother
    obtain ⟨later, hlater, hle⟩ :
        ∃ later ∈ slide MAX_COLLECTION_DAYS r.collector.get_timestamps result.day,
          other ≤ later := exists_le_slide hother
    rw [← get_timestamps_record] at hlater
    exact lt_of_le_of_lt hle (hnewer later hlater)
  · intro day other hother
    rw [haccepted] at hother
    by_cases heq : day = result.day
    · subst heq
      rw [Function.update_self] at hother
      rcases List.mem_append.mp hother with hold | hnew
      · exact h.filed _ other hold
      · rw [List.mem_singleton.mp hnew]
        exact ⟨rfl, hquoting⟩
    · rw [Function.update_of_ne heq] at hother
      exact h.filed day other hother
  · intro day
    rw [haccepted]
    by_cases heq : day = result.day
    · subst heq
      rw [Function.update_self, List.map_append, List.map_singleton, List.nodup_append]
      refine ⟨h.distinct _, List.nodup_singleton _, ?_⟩
      rintro source hsource _ hself rfl
      rw [List.mem_singleton.mp hself] at hsource
      -- the day is there, or nothing was accepted for it
      by_cases hmem : result.day ∈ r.collector.get_timestamps
      · exact habsent ((h.mem_sources_held hmem _).mpr hsource)
      · have hnewer : Newer r.collector.get_timestamps result.day := by
          by_contra hold
          exact hdropped (dropped_iff.mpr ⟨hmem, hold⟩)
        rw [h.opened _ hnewer] at hsource
        cases hsource
    · rw [Function.update_of_ne heq]
      exact h.distinct day

/-! ## The answers of one update

The days to be stored are collected along with the answers. A day on this list may not go before
the batch is over: it could only be dropped for a day two days later, and the batch has none. -/

/-- The other results of a batch stay fresh. They are of other sources, so the one that has just
been recorded does not make any of them a second answer. -/
theorem Fresh.record {results : List SourceResult} (h : Sound r)
    (hfresh : Fresh r (result :: results)) : Fresh (r.record result) results := by
  obtain ⟨hnotMem, hnodup⟩ := List.nodup_cons.mp hfresh.nodup
  refine ⟨hnodup, ?_, fun other hother => hfresh.quoting other (List.mem_cons_of_mem _ hother)⟩
  intro other hother hsource
  by_cases hday : other.day ∈ (r.record result).collector.get_timestamps
  · have hheld := held_update result.source result.rates h.nodup hday
    have habsent := hfresh.absent other (List.mem_cons_of_mem _ hother)
    have hne : other.source ≠ result.source := fun heq =>
      hnotMem (heq ▸ List.mem_map_of_mem hother)
    unfold Recorded.record at hsource
    dsimp only at hsource
    rw [hheld] at hsource
    split at hsource
    · rw [OneDayRatesCollector.mem_sources_update_iff] at hsource
      rcases hsource with hold | ⟨-, heq⟩
      · exact habsent hold
      · exact hne heq
    · exact habsent hsource
  · -- nothing is held for a day that is not there
    rw [held, find_day_eq_none_iff.mpr hday] at hsource
    exact absurd hsource (Finset.notMem_empty _)

/-- The answers of an update are for `newest` or the day before it. Every source is asked for the
day before, in its own time zone, and a source has no say in the day its answer is filed under. -/
def InWindow (newest : ℕ) (result : SourceResult) : Prop :=
  result.day = result.timestamp ∧ result.day ≤ newest ∧ newest ≤ result.day + ONE_DAY_SECONDS

/-- What a batch does to a collector, with the days that are to be stored before and after. Days
that are to be stored are held in the end, and on all other days nothing has been accepted, so
what is stored is all that is new. -/
structure Collects (r r' : Recorded) (days days' : List ℕ) : Prop where
  sound : Sound r'
  held : ∀ day ∈ days', day ∈ r'.collector.get_timestamps
  grows : ∀ day, r.accepted day <+: r'.accepted day
  unchanged : ∀ day, day ∉ days' → r'.accepted day = r.accepted day
  subset : days ⊆ days'

theorem Collects.trans {r' r'' : Recorded} {days days' days'' : List ℕ}
    (h : Collects r r' days days') (hmore : Collects r' r'' days' days'') :
    Collects r r'' days days'' where
  sound := hmore.sound
  held := hmore.held
  grows day := (h.grows day).trans (hmore.grows day)
  unchanged day hnotMem := (hmore.unchanged day hnotMem).trans
    (h.unchanged day fun hmem => hnotMem (hmore.subset hmem))
  subset _ hmem := hmore.subset (h.subset hmem)

/-- The days to store after one more result. -/
def days_to_store (r : Recorded) (days : List ℕ) (result : SourceResult) : List ℕ :=
  if r.Dropped result then days else days ++ [result.timestamp]

/-- The first loop keeps the collector and the days. -/
theorem collect_step_eq (r : Recorded) (days : List ℕ) (result : SourceResult) :
    periodic.collect_step (r.collector, days) (result.source, result.timestamp, result.rates)
      = ((r.record result).collector, r.days_to_store days result) := by
  unfold periodic.collect_step days_to_store
  dsimp only
  by_cases hdropped : r.Dropped result
  · rw [if_pos hdropped, if_neg (by rw [hdropped]; exact Bool.false_ne_true)]
    rfl
  · rw [if_neg hdropped, if_pos (Bool.eq_true_of_not_eq_false hdropped)]
    rfl

/-- **One answer of an update.** The days to store stay: one that goes is two days behind the day
that is opened. -/
theorem Sound.collects_record (h : Sound r) {newest : ℕ} {days : List ℕ}
    (habsent : result.source ∉ (r.collector.held result.day).sources)
    (hquoting : result.rates.entries ≠ []) (hwindow : InWindow newest result)
    (hdays : ∀ day ∈ days, day ∈ r.collector.get_timestamps ∧ newest ≤ day + ONE_DAY_SECONDS) :
    Collects r (r.record result) days (r.days_to_store days result) := by
  have hsound := h.record habsent hquoting
  by_cases hdropped : r.Dropped result
  · -- a dropped result leaves the collector and the list of days as they were
    rw [days_to_store, if_pos hdropped, record_of_dropped hdropped]
    exact ⟨h, fun day hmem => (hdays day hmem).1, fun _ => List.prefix_rfl, fun _ _ => rfl,
      List.Subset.refl _⟩
  obtain ⟨hday, hle, -⟩ := hwindow
  have haccepted := h.accepted_record hdropped
  rw [days_to_store, if_neg hdropped]
  refine ⟨hsound, ?_, ?_, ?_, List.subset_append_left _ _⟩
  · intro day hmem
    rcases List.mem_append.mp hmem with hold | hnew
    · -- a day on the list that goes would be two days behind, outside the window
      obtain ⟨hthere, hrecent⟩ := hdays day hold
      by_contra hgone
      rw [get_timestamps_record] at hgone
      have hwhole : ∀ d ∈ r.collector.get_timestamps, ONE_DAY_SECONDS ∣ d := fun d hd =>
        Nat.dvd_of_mod_eq_zero (h.represents.whole_days d hd)
      have hbehind : day + 2 * ONE_DAY_SECONDS ≤ result.day :=
        periodic.Gathering.two_days_behind h.represents.ascending hwhole (Nat.dvd_mul_left _ _)
          hthere hgone
      have hpos : 0 < ONE_DAY_SECONDS := by decide
      omega
    · rw [List.mem_singleton.mp hnew, ← hday]
      exact day_mem_record hdropped
  · intro day
    rw [haccepted]
    -- only the day of the result gains something
    by_cases heq : day = result.day
    · subst heq
      rw [Function.update_self]
      exact List.prefix_append _ _
    · rw [Function.update_of_ne heq]
  · intro day hnotMem
    have hne : day ≠ result.day := by
      rintro rfl
      rw [hday] at hnotMem
      exact hnotMem (List.mem_append_right _ List.mem_cons_self)
    rw [haccepted, Function.update_of_ne hne]

/-- **All answers of an update.** The invariant and the days to be stored are carried along
together: a result may open a day and drop another one, so the days that were to be stored stay
held only because all of them are near the newest. -/
theorem Sound.batch {newest : ℕ} (results : List SourceResult) :
    ∀ {r : Recorded} {days : List ℕ}, Sound r → Fresh r results →
      (∀ result ∈ results, InWindow newest result) →
      (∀ day ∈ days, day ∈ r.collector.get_timestamps ∧ newest ≤ day + ONE_DAY_SECONDS) →
        Collects r (r.record_all results) days
          ((results.map fun result => (result.source, result.timestamp, result.rates)).foldl
            periodic.collect_step (r.collector, days)).2 := by
  induction results with
  | nil =>
      intro r days h _ _ hdays
      exact ⟨h, fun day hday => (hdays day hday).1, fun _ => List.prefix_rfl, fun _ _ => rfl,
        List.Subset.refl _⟩
  | cons result results ih =>
      intro r days h hfresh hwindow hdays
      have hfirst := h.collects_record (hfresh.absent result List.mem_cons_self)
        (hfresh.quoting result List.mem_cons_self) (hwindow result List.mem_cons_self) hdays
      rw [List.map_cons, List.foldl_cons, collect_step_eq]
      refine hfirst.trans (ih hfirst.sound (hfresh.record h)
        (fun other hother => hwindow other (List.mem_cons_of_mem _ hother)) fun day hmem => ?_)
      refine ⟨hfirst.held day hmem, ?_⟩
      -- the day was to be stored before, or is that of the answer
      unfold days_to_store at hmem
      split at hmem
      · exact (hdays day hmem).2
      · rcases List.mem_append.mp hmem with hold | hnew
        · exact (hdays day hold).2
        · obtain ⟨hday, -, hnear⟩ := hwindow result List.mem_cons_self
          rw [List.mem_singleton.mp hnew, ← hday]
          exact hnear

/-- The collector after a batch. -/
theorem collector_record_all (results : List SourceResult) :
    ∀ r : Recorded, (r.record_all results).collector = r.collector.update_all results := by
  induction results with
  | nil => exact fun _ => rfl
  | cons result results ih => exact fun r => ih (r.record result)

theorem recorded_append_all (history more : List SourceResult) :
    recorded (history ++ more) = (recorded history).record_all more := List.foldl_append

end Recorded

/-- What is accepted was given to the collector. -/
theorem mem_of_mem_accepted {day : ℕ} {result : SourceResult} (history : List SourceResult) :
    result ∈ (recorded history).accepted day → result ∈ history := by
  induction history using List.reverseRecOn with
  | nil => exact fun hmem => absurd hmem List.not_mem_nil
  | append_singleton history last ih =>
      rw [recorded_append, Recorded.record]
      dsimp only
      have hsame : result ∈ (recorded history).accepted day → result ∈ history ++ [last] :=
        fun hmem => List.mem_append_left _ (ih hmem)
      have hlast : result ∈ [last] → result ∈ history ++ [last] := List.mem_append_right _
      -- dropped, joined to a day that is held, or the first result of one that is opened
      split
      · exact hsame
      · by_cases hday : day = last.day
        · subst hday
          split
          · rw [Function.update_self]
            exact fun hmem => (List.mem_append.mp hmem).elim hsame hlast
          · rw [Function.update_self]
            exact hlast
        · split
          · rwa [Function.update_of_ne hday]
          · rwa [Function.update_of_ne hday]

end ForexRatesCollector

end Xrc
