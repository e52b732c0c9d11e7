/-
What the collector holds after any sequence of updates. A ghost records, next to the collector,
which results were accepted for each day since the day was opened; `represents_record` keeps the
invariant over one update, and `collector_representation` is its induction over runs.
-/
import Xrc.SourceOrder

set_option autoImplicit false

namespace Xrc

open Machine Window

/-! ## One symbol for the special drawing rights

A source may quote the special drawing rights as SDR or as XDR. The collector files both under
XDR, so the rates of a day are those of the sources once the two are merged. -/

namespace ForexRateMap

/-- The rates quoted for a symbol. -/
def values_of (self : ForexRateMap) (symbol : String) : Multiset ℕ :=
  (Multiset.filter (fun entry : String × ℕ => entry.1 = symbol) self.entries).map Prod.snd

/-- The rates for a symbol once SDR is merged into XDR. -/
def merged_values (self : ForexRateMap) (symbol : String) : Multiset ℕ :=
  if symbol = "SDR" then 0
  else if symbol = "XDR" then self.values_of "XDR" + self.values_of "SDR"
  else self.values_of symbol

theorem quotes_eq_merged_values (self : ForexRateMap) (symbol : String) :
    self.quotes symbol = self.merged_values symbol := by
  have hquotes : self.quotes symbol = (Multiset.filter (fun entry : String × ℕ =>
      OneDayRatesCollector.collected_symbol entry.1 = symbol) self.entries).map Prod.snd := rfl
  rw [hquotes, merged_values]
  unfold OneDayRatesCollector.collected_symbol values_of
  by_cases hsdr : symbol = "SDR"
  · -- nothing is collected under SDR
    have hnone : Multiset.filter (fun entry : String × ℕ =>
        (if entry.1 = "SDR" then "XDR" else entry.1) = symbol) self.entries = 0 := by
      apply Multiset.filter_eq_nil.mpr
      intro entry _ heq
      subst hsdr
      split at heq
      · exact absurd heq (by decide)
      · contradiction
    rw [if_pos hsdr, hnone, Multiset.map_zero]
  · rw [if_neg hsdr]
    by_cases hxdr : symbol = "XDR"
    · -- the entries for XDR and those for SDR
      have hboth : Multiset.filter (fun entry : String × ℕ =>
            (if entry.1 = "SDR" then "XDR" else entry.1) = symbol) self.entries
          = Multiset.filter (fun entry : String × ℕ => entry.1 = "XDR") self.entries
            + Multiset.filter (fun entry : String × ℕ => entry.1 = "SDR") self.entries := by
        have hneither : Multiset.filter (fun entry : String × ℕ =>
            entry.1 = "XDR" ∧ entry.1 = "SDR") self.entries = 0 := by
          apply Multiset.filter_eq_nil.mpr
          intro entry _ heq
          exact absurd (heq.1.symm.trans heq.2) (by decide)
        rw [Multiset.filter_add_filter, hneither, Multiset.add_zero]
        apply Multiset.filter_congr
        intro entry _
        rw [hxdr]
        by_cases hentry : entry.1 = "SDR"
        · rw [if_pos hentry]
          exact iff_of_true rfl (Or.inr hentry)
        · rw [if_neg hentry, or_iff_left hentry]
      rw [if_pos hxdr, hboth, Multiset.map_add]
    · rw [if_neg hxdr]
      refine congrArg _ (Multiset.filter_congr fun entry _ => ?_)
      by_cases hentry : entry.1 = "SDR"
      · rw [if_pos hentry, hentry]
        exact iff_of_false (fun heq => hxdr heq.symm) fun heq => hsdr heq.symm
      · rw [if_neg hentry]

end ForexRateMap

/-! ## The results of a day

The ghost `Recorded` is driven by the same sequence of updates as the collector and never read
by it. The invariant says that each day of the collector is what its record says, and a day that
is opened again after it was dropped starts with an empty record. -/

namespace ForexRatesCollector

/-- The collector, and the results it has accepted for each day since the day was opened. The
history forgets a result when its day leaves the window, as the collector does. -/
structure Recorded where
  collector : ForexRatesCollector
  accepted : ℕ → List SourceResult

/-- One update, with what it accepts: a result for a day that is there joins the others of its
day, and one that opens a day is the first of it. -/
def Recorded.record (self : Recorded) (result : SourceResult) : Recorded :=
  let updated := self.collector.update result.source result.timestamp result.rates
  { collector := updated.1
    accepted :=
      if updated.2 = false then self.accepted
      else if result.day ∈ self.collector.get_timestamps then
        Function.update self.accepted result.day (self.accepted result.day ++ [result])
      else Function.update self.accepted result.day [result] }

/-- A history of updates, from the empty collector. -/
def recorded (history : List SourceResult) : Recorded :=
  history.foldl Recorded.record ⟨new, fun _ => []⟩

/-- **The representation**: few whole days in ascending order, each of which holds what was
accepted for it. -/
structure Represents (r : Recorded) : Prop where
  length_le : r.collector.get_timestamps.length ≤ MAX_COLLECTION_DAYS
  whole_days : ∀ t ∈ r.collector.get_timestamps, t % ONE_DAY_SECONDS = 0
  ascending : r.collector.get_timestamps.Pairwise (· < ·)
  held : ∀ t ∈ r.collector.get_timestamps,
    r.collector.held t = (OneDayRatesCollector.new t).update_all (r.accepted t)

theorem Represents.nodup {r : Recorded} (h : Represents r) :
    r.collector.get_timestamps.Nodup := h.ascending.imp fun hlt => ne_of_lt hlt

/-- A day after an update is the day of the result, or was there before. -/
theorem mem_timestamps_update {self : ForexRatesCollector} {result : SourceResult} {t : ℕ}
    (h : t ∈ (self.update result.source result.timestamp result.rates).1.get_timestamps) :
    t ∈ self.get_timestamps ∨ t = result.day := by
  rw [get_timestamps_update, slide] at h
  split at h
  · exact mem_or_eq_of_mem_push h
  · exact Or.inl h

/-- **One update.** The result joins a day that is held, opens a newer one, which may drop the
oldest, or is too old and changes nothing. For each of the three the other days are as they were.
-/
theorem represents_record {r : Recorded} (h : Represents r) (result : SourceResult) :
    Represents (r.record result) where
  length_le := by
    unfold Recorded.record
    dsimp only
    rw [get_timestamps_update]
    exact length_slide_le (by decide) h.length_le
  whole_days := by
    intro t ht
    rcases mem_timestamps_update ht with hold | rfl
    · exact h.whole_days t hold
    · exact Nat.mul_mod_left _ _
  ascending := by
    unfold Recorded.record
    dsimp only
    rw [get_timestamps_update]
    exact pairwise_slide h.ascending
  held := by
    intro t ht
    have hheld := held_update result.source result.rates h.nodup ht
    have hday : start_of_day result.timestamp = result.day := rfl
    rw [hday] at hheld
    unfold Recorded.record at ht ⊢
    dsimp only at ht ⊢
    rw [hheld]
    by_cases hmem : result.day ∈ r.collector.get_timestamps
    · -- the result joins its day
      have hkept := (update_of_mem result.source result.rates
        (show start_of_day result.timestamp ∈ r.collector.get_timestamps from hmem)).2.1
      rw [hkept, if_neg (Ne.symm Bool.false_ne_true), if_pos hmem]
      by_cases heq : t = result.day
      · subst heq
        rw [if_pos rfl, Function.update_self, h.held _ hmem, OneDayRatesCollector.update_all,
          OneDayRatesCollector.update_all, List.foldl_append]
        rfl
      · rw [if_neg heq, Function.update_of_ne heq,
          h.held t ((mem_timestamps_update ht).resolve_right heq)]
    · by_cases hnewer : Newer r.collector.get_timestamps result.day
      · -- the result opens its day
        rw [update_of_newer result.source result.rates
            (show Newer r.collector.get_timestamps (start_of_day result.timestamp) from hnewer),
          if_neg (Ne.symm Bool.false_ne_true), if_neg hmem]
        by_cases heq : t = result.day
        · subst heq
          rw [if_pos rfl, Function.update_self, held, find_day_eq_none_iff.mpr hmem]
          rfl
        · rw [if_neg heq, Function.update_of_ne heq,
            h.held t ((mem_timestamps_update ht).resolve_right heq)]
      · -- the result is dropped
        rw [update_of_old result.source result.rates
          (show start_of_day result.timestamp ∉ r.collector.get_timestamps from hmem) hnewer]
          at ht ⊢
        have hne : t ≠ result.day := fun heq => hmem (heq ▸ ht)
        rw [if_neg hne, if_pos rfl, h.held t ht]

theorem recorded_append (history : List SourceResult) (result : SourceResult) :
    recorded (history ++ [result]) = (recorded history).record result := List.foldl_append

theorem update_all_append (history : List SourceResult) (result : SourceResult) :
    new.update_all (history ++ [result])
      = ((new.update_all history).update result.source result.timestamp result.rates).1 :=
  List.foldl_append

/-- **A history.** The induction appends at the end, as a history grows there and the window looks
at the last days of it. -/
theorem represents_recorded (history : List SourceResult) : Represents (recorded history) := by
  induction history using List.reverseRecOn with
  | nil => exact ⟨Nat.zero_le _, nofun, List.Pairwise.nil, nofun⟩
  | append_singleton history result ih =>
      rw [recorded_append]
      exact represents_record ih result

/-- The ghost does not interfere. -/
theorem collector_recorded (history : List SourceResult) :
    (recorded history).collector = new.update_all history := by
  induction history using List.reverseRecOn with
  | nil => rfl
  | append_singleton history result ih =>
      rw [recorded_append, update_all_append, ← ih]
      rfl

/-- What is held for a day is its collector. -/
theorem held_of_mem {c : ForexRatesCollector} (hnodup : c.get_timestamps.Nodup)
    {odc : OneDayRatesCollector} (hodc : odc ∈ c.days) : c.held odc.timestamp = odc := by
  have hmem : odc.timestamp ∈ c.get_timestamps := List.mem_map_of_mem hodc
  obtain ⟨found, hfound⟩ := Option.ne_none_iff_exists'.mp
    fun hnone => find_day_eq_none_iff.mp hnone hmem
  have htime : found.timestamp = odc.timestamp := by
    simpa using List.find?_some hfound
  rw [held, hfound, Option.getD_some]
  exact List.inj_on_of_nodup_map hnodup (List.mem_of_find?_eq_some hfound) hodc htime

/-- **The representation of the collector**, after every history of updates: at most
`MAX_COLLECTION_DAYS` whole days in strictly ascending order; each holds exactly the rates of the
results accepted for it since it was opened, with SDR merged into XDR; an update that returns
false changes nothing; a day that goes is the oldest one, and the others stay; and the newest day
never decreases.

The ghost of accepted results is kept equal to the collector's content by one update,
`represents_record`. A day that is opened starts a new record, so what a day held before it was
dropped does not come back. -/
theorem collector_representation (history : List SourceResult) :
    (recorded history).collector = new.update_all history
      ∧ (new.update_all history).days.length ≤ MAX_COLLECTION_DAYS
      ∧ (∀ t ∈ (new.update_all history).get_timestamps, t % ONE_DAY_SECONDS = 0)
      ∧ (new.update_all history).get_timestamps.Pairwise (· < ·)
      ∧ (∀ odc ∈ (new.update_all history).days,
          odc = (OneDayRatesCollector.new odc.timestamp).update_all
              ((recorded history).accepted odc.timestamp)
            ∧ ∀ symbol, odc.quotes symbol
              = (((recorded history).accepted odc.timestamp).map
                  fun result => result.rates.merged_values symbol).sum)
      ∧ ∀ source timestamp rates,
          (((new.update_all history).update source timestamp rates).2 = false →
              ((new.update_all history).update source timestamp rates).1
                = new.update_all history)
            ∧ (∀ t ∈ (new.update_all history).get_timestamps,
                t ∉ ((new.update_all history).update source timestamp rates).1.get_timestamps →
                ∀ t' ∈ (new.update_all history).get_timestamps, t' ≠ t →
                  t < t'
                    ∧ t' ∈ ((new.update_all history).update source timestamp
                        rates).1.get_timestamps)
            ∧ ∀ t ∈ (new.update_all history).get_timestamps,
                ∃ t' ∈ ((new.update_all history).update source timestamp
                    rates).1.get_timestamps, t ≤ t' := by
  have hrep := represents_recorded history
  have hnodup := hrep.nodup
  have hcollector := collector_recorded history
  refine ⟨hcollector, ?_⟩
  rw [← hcollector]
  refine ⟨?_, hrep.whole_days, hrep.ascending, ?_, ?_⟩
  · have hlength := hrep.length_le
    rwa [get_timestamps, List.length_map] at hlength
  · intro odc hodc
    -- a day is the collector of what its record holds, so its quotes are their sum
    have hheld := hrep.held odc.timestamp (List.mem_map_of_mem hodc)
    rw [held_of_mem hnodup hodc] at hheld
    refine ⟨hheld, fun symbol => ?_⟩
    have hquotes : odc.quotes symbol = _ :=
      congrArg (fun odc : OneDayRatesCollector => odc.quotes symbol) hheld
    rw [hquotes, OneDayRatesCollector.quotes_update_all]
    have hnew : (OneDayRatesCollector.new odc.timestamp).quotes symbol = 0 := rfl
    rw [hnew, Multiset.zero_add]
    simp only [ForexRateMap.quotes_eq_merged_values]
  · -- one more update, read off the window of days
    intro source timestamp rates
    refine ⟨?_, ?_, ?_⟩
    · intro hdropped
      rw [update_dropped_iff] at hdropped
      rw [update_of_old source rates hdropped.1 hdropped.2]
    · intro t ht hgone
      rw [get_timestamps_update] at hgone ⊢
      exact oldest_of_notMem_slide hrep.ascending ht hgone
    · intro t ht
      rw [get_timestamps_update]
      exact exists_le_slide ht

end ForexRatesCollector

end Xrc
