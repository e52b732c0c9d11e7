/-
The order of the sources. A batch of answers goes into the collector one by one, and an answer
for a day that is neither there nor newer than every day there is is dropped. What a batch
leaves is therefore decided by the days the collector ends up with (`held_update_all`), and
these by the first answer that opens a day (`order_of_sources`): the other orders of a batch
with two new days lose the answers of the earlier one.
-/
import Xrc.Window
import Xrc.Periodic
import Mathlib.Algebra.BigOperators.Group.Multiset.Basic

set_option autoImplicit false

namespace Xrc

open Machine Window

/-- The result of one source: its name, the timestamp it was asked for, and its rates. -/
structure SourceResult where
  source : String
  timestamp : ℕ
  rates : ForexRateMap

namespace SourceResult

/-- The day a result is collected for. -/
def day (self : SourceResult) : ℕ := start_of_day self.timestamp

end SourceResult

/-! ## One day

A day only ever gains rates and sources, and gaining them commutes. The rates of a symbol are
therefore taken as a multiset, which forgets in what order the sources answered. -/

namespace ForexRateMap

/-- The rates quoted for a collected symbol, with multiplicity. -/
def quotes (self : ForexRateMap) (symbol : String) : Multiset ℕ :=
  (self.entries.filter fun entry =>
    decide (OneDayRatesCollector.collected_symbol entry.1 = symbol)).map Prod.snd

end ForexRateMap

namespace OneDayRatesCollector

/-- The rates collected for a symbol, with multiplicity. -/
def quotes (self : OneDayRatesCollector) (symbol : String) : Multiset ℕ :=
  ((self.rates symbol).getD [] : List ℕ)

/-- A batch of results for one day. -/
def update_all (self : OneDayRatesCollector) (results : List SourceResult) :
    OneDayRatesCollector :=
  results.foldl (fun odc result => odc.update result.source result.rates) self

/-- Pushing quotes adds those of a symbol to it. -/
theorem quotes_foldl_push_rate (symbol : String) (entries : List (String × ℕ)) :
    ∀ rates : String → Option (List ℕ),
      (((entries.foldl push_rate rates symbol).getD [] : List ℕ) : Multiset ℕ)
        = ((rates symbol).getD [] : List ℕ)
          + ((entries.filter fun entry => decide (collected_symbol entry.1 = symbol)).map
              Prod.snd : List ℕ) := by
  induction entries with
  | nil => simp
  | cons entry entries ih =>
      intro rates
      rw [List.foldl_cons, ih, List.filter_cons]
      by_cases heq : collected_symbol entry.1 = symbol
      · have hpush : push_rate rates entry symbol
            = some ((rates symbol).getD [] ++ [entry.2]) := by
          rw [push_rate, heq, Function.update_self]
        rw [hpush, if_pos (decide_eq_true heq), Option.getD_some, List.map_cons,
          Multiset.coe_add, Multiset.coe_add, List.append_assoc, List.singleton_append]
      · have hpush : push_rate rates entry symbol = rates symbol :=
          Function.update_of_ne (fun h => heq h.symm) _ _
        rw [hpush, if_neg (by simpa using heq)]

/-- **A result adds its quotes.** They are counted as a multiset, so that the order of the
results, which the code keeps in its lists, is gone from here on. -/
theorem quotes_update (self : OneDayRatesCollector) (source : String) (rates : ForexRateMap)
    (symbol : String) :
    (self.update source rates).quotes symbol = self.quotes symbol + rates.quotes symbol := by
  unfold update
  by_cases hempty : rates.entries.isEmpty
  · have hnone : rates.quotes symbol = 0 := by
      rw [ForexRateMap.quotes, List.isEmpty_iff.mp hempty]
      rfl
    rw [if_pos hempty, hnone, Multiset.add_zero]
  · rw [if_neg hempty]
    exact quotes_foldl_push_rate symbol rates.entries self.rates

theorem mem_sources_update_iff (self : OneDayRatesCollector) (source : String)
    (rates : ForexRateMap) (name : String) :
    name ∈ (self.update source rates).sources
      ↔ name ∈ self.sources ∨ rates.entries ≠ [] ∧ name = source := by
  unfold update
  by_cases hempty : rates.entries.isEmpty
  · rw [if_pos hempty]
    simp [List.isEmpty_iff.mp hempty]
  · rw [if_neg hempty, Finset.mem_insert]
    rw [List.isEmpty_iff] at hempty
    tauto

/-- The quotes of a batch. -/
theorem quotes_update_all (symbol : String) (results : List SourceResult) :
    ∀ self : OneDayRatesCollector, (self.update_all results).quotes symbol
      = self.quotes symbol + (results.map fun result => result.rates.quotes symbol).sum := by
  induction results with
  | nil => exact fun self => (Multiset.add_zero _).symm
  | cons result results ih =>
      intro self
      rw [update_all, List.foldl_cons]
      have hrest := ih (self.update result.source result.rates)
      rw [update_all] at hrest
      rw [hrest, quotes_update, List.map_cons, List.sum_cons, Multiset.add_assoc]

/-- The sources of a batch. -/
theorem mem_sources_update_all (name : String) (results : List SourceResult) :
    ∀ self : OneDayRatesCollector, name ∈ (self.update_all results).sources
      ↔ name ∈ self.sources
        ∨ ∃ result ∈ results, result.rates.entries ≠ [] ∧ name = result.source := by
  induction results with
  | nil => simp [update_all]
  | cons result results ih =>
      intro self
      have hrest := ih (self.update result.source result.rates)
      rw [mem_sources_update_iff, or_assoc] at hrest
      simp only [List.mem_cons, exists_eq_or_imp]
      exact hrest

/-- **One day does not depend on the order.** Both are sums over the results, one of multisets and
one of sets, and neither looks at the order of its summands. -/
theorem update_all_perm (self : OneDayRatesCollector) {results results' : List SourceResult}
    (hp : results.Perm results') :
    (∀ symbol, (self.update_all results).quotes symbol = (self.update_all results').quotes symbol)
      ∧ (self.update_all results).sources = (self.update_all results').sources := by
  constructor
  · intro symbol
    rw [quotes_update_all, quotes_update_all, (hp.map _).sum_eq]
  · ext name
    rw [mem_sources_update_all, mem_sources_update_all]
    simp only [hp.mem_iff]

end OneDayRatesCollector

/-! ## The days

`update` opens a day, adds to one, or refuses the answer; `opens_iff` tells the first two from
the last. Days are opened in ascending order and the oldest one goes when there are too many, so
an update changes what is held for its own day and at most drops another one. -/

namespace ForexRatesCollector

/-- A batch of results, in the order of the list. -/
def update_all (self : ForexRatesCollector) (results : List SourceResult) : ForexRatesCollector :=
  results.foldl (fun c result => (c.update result.source result.timestamp result.rates).1) self

/-- The day of a timestamp, when there is one. -/
def find_day (self : ForexRatesCollector) (timestamp : ℕ) : Option OneDayRatesCollector :=
  self.days.find? fun odc => decide (odc.timestamp = timestamp)

/-- What is held for a timestamp, nothing when there is no such day. -/
def held (self : ForexRatesCollector) (timestamp : ℕ) : OneDayRatesCollector :=
  (self.find_day timestamp).getD (OneDayRatesCollector.new timestamp)

theorem opens_iff (self : ForexRatesCollector) (timestamp : ℕ) :
    self.opens timestamp = true ↔ Newer self.get_timestamps timestamp := by
  unfold opens Newer get_timestamps
  cases hmax : (self.days.map OneDayRatesCollector.timestamp).max? with
  | none =>
      rw [List.max?_eq_none_iff.mp hmax]
      simp
  | some max_time =>
      obtain ⟨hmem, hle⟩ := List.max?_eq_some_iff.mp hmax
      simp only [decide_eq_true_eq]
      exact ⟨fun hlt t ht => lt_of_le_of_lt (hle t ht) hlt, fun hnewer => hnewer _ hmem⟩

theorem find_day_eq_none_iff {self : ForexRatesCollector} {t : ℕ} :
    self.find_day t = none ↔ t ∉ self.get_timestamps := by
  rw [find_day, List.find?_eq_none, get_timestamps]
  simp

/-- The days without the oldest one hold the same for a day that stays or was not there. The first
of the days that are held is the oldest one, and the only one that goes. -/
theorem find_tail {days : List OneDayRatesCollector} {t : ℕ}
    (hnodup : (days.map OneDayRatesCollector.timestamp).Nodup)
    (ht : t ∉ days.map OneDayRatesCollector.timestamp
      ∨ t ∈ days.tail.map OneDayRatesCollector.timestamp) :
    days.tail.find? (fun odc => decide (odc.timestamp = t))
      = days.find? fun odc => decide (odc.timestamp = t) := by
  cases days with
  | nil => rfl
  | cons oldest days =>
      rw [List.map_cons, List.nodup_cons] at hnodup
      have hne : oldest.timestamp ≠ t := by
        rintro rfl
        rcases ht with hold | hstays
        · exact hold List.mem_cons_self
        · exact hnodup.1 hstays
      rw [List.tail_cons, List.find?_cons, decide_eq_false hne]

/-- Updating a day in place. -/
theorem find_modify {day : ℕ} {f : OneDayRatesCollector → OneDayRatesCollector}
    (hf : ∀ odc, (f odc).timestamp = odc.timestamp) (days : List OneDayRatesCollector) :
    ∀ i, days.findIdx? (fun odc => decide (odc.timestamp = day)) = some i → ∀ t,
      (days.modify i f).map OneDayRatesCollector.timestamp
          = days.map OneDayRatesCollector.timestamp
        ∧ (days.modify i f).find? (fun odc => decide (odc.timestamp = t))
          = if t = day then (days.find? fun odc => decide (odc.timestamp = t)).map f
            else days.find? fun odc => decide (odc.timestamp = t) := by
  induction days with
  | nil => simp
  | cons odc days ih =>
      intro i hi t
      rw [List.findIdx?_cons] at hi
      by_cases hday : odc.timestamp = day
      · -- it is the first day of the list
        rw [if_pos (decide_eq_true hday)] at hi
        obtain rfl := Option.some.inj hi
        rw [List.modify_zero_cons, List.map_cons, List.map_cons, hf, List.find?_cons,
          List.find?_cons, hf, hday]
        refine ⟨rfl, ?_⟩
        by_cases ht : t = day
        · subst ht
          simp
        · rw [if_neg ht, decide_eq_false (fun h => ht h.symm)]
      · rw [if_neg (by simpa using hday)] at hi
        obtain ⟨j, hj, rfl⟩ := Option.map_eq_some_iff.mp hi
        obtain ⟨hsame, hfind⟩ := ih j hj t
        rw [List.modify_succ_cons, List.map_cons, List.map_cons, hsame, List.find?_cons,
          List.find?_cons, hfind]
        refine ⟨rfl, ?_⟩
        by_cases ht : t = day
        · subst ht
          rw [if_pos rfl, if_pos rfl, decide_eq_false hday]
        · rw [if_neg ht, if_neg ht]

/-- Whether a day is there. -/
theorem findIdx_eq_none_iff (self : ForexRatesCollector) (day : ℕ) :
    (self.days.findIdx? fun odc => decide (odc.timestamp = day)) = none
      ↔ day ∉ self.get_timestamps := by
  rw [List.findIdx?_eq_none_iff, get_timestamps]
  simp

section Update

variable {self : ForexRatesCollector} (source : String) {timestamp : ℕ} (rates : ForexRateMap)

/-- A day that is there gains the rates. -/
theorem update_of_mem (h : start_of_day timestamp ∈ self.get_timestamps) :
    (self.update source timestamp rates).1.get_timestamps = self.get_timestamps
      ∧ (self.update source timestamp rates).2 = true
      ∧ ∀ t, (self.update source timestamp rates).1.find_day t
          = if t = start_of_day timestamp then
              (self.find_day t).map fun odc => odc.update source rates
            else self.find_day t := by
  obtain ⟨i, hi⟩ := Option.ne_none_iff_exists'.mp
    fun hnone => (self.findIdx_eq_none_iff _).mp hnone h
  have hupdate : self.update source timestamp rates
      = (⟨self.days.modify i fun odc => odc.update source rates⟩, true) := by
    unfold update
    dsimp only
    rw [hi]
  have hmodify := find_modify
    (fun odc => OneDayRatesCollector.update_timestamp odc source rates) self.days i hi
  rw [hupdate]
  exact ⟨(hmodify 0).1, rfl, fun t => (hmodify t).2⟩

/-- A newer day is opened. -/
theorem update_of_newer (h : Newer self.get_timestamps (start_of_day timestamp)) :
    self.update source timestamp rates
      = (⟨(if self.days.length = MAX_COLLECTION_DAYS then self.days.tail else self.days)
          ++ [(OneDayRatesCollector.new (start_of_day timestamp)).update source rates]⟩, true) := by
  have habsent := (self.findIdx_eq_none_iff (start_of_day timestamp)).mpr
    fun hmem => lt_irrefl _ (h _ hmem)
  unfold update
  dsimp only
  rw [habsent]
  exact if_pos ((self.opens_iff _).mpr h)

/-- Any other result is dropped. -/
theorem update_of_old (habsent : start_of_day timestamp ∉ self.get_timestamps)
    (h : ¬ Newer self.get_timestamps (start_of_day timestamp)) :
    self.update source timestamp rates = (self, false) := by
  unfold update
  dsimp only
  rw [(self.findIdx_eq_none_iff _).mpr habsent]
  exact if_neg (mt (self.opens_iff _).mp h)

/-- A result is dropped when its day is neither there nor newer than every day there is. -/
theorem update_dropped_iff :
    (self.update source timestamp rates).2 = false
      ↔ start_of_day timestamp ∉ self.get_timestamps
        ∧ ¬ Newer self.get_timestamps (start_of_day timestamp) := by
  by_cases hmem : start_of_day timestamp ∈ self.get_timestamps
  · rw [(update_of_mem source rates hmem).2.1]
    simp [hmem]
  · by_cases hnewer : Newer self.get_timestamps (start_of_day timestamp)
    · rw [update_of_newer source rates hnewer]
      simp [hnewer]
    · rw [update_of_old source rates hmem hnewer]
      exact iff_of_true rfl ⟨hmem, hnewer⟩

/-- **The days are a window over rising days.** The three branches of the update are those of
`slide`: a held day stays where it is, a newer one is pushed, and an older one is refused. -/
theorem get_timestamps_update :
    (self.update source timestamp rates).1.get_timestamps
      = slide MAX_COLLECTION_DAYS self.get_timestamps (start_of_day timestamp) := by
  by_cases hmem : start_of_day timestamp ∈ self.get_timestamps
  · rw [slide_of_le hmem (le_refl _)]
    exact (update_of_mem source rates hmem).1
  · by_cases hnewer : Newer self.get_timestamps (start_of_day timestamp)
    · rw [slide_of_newer hnewer, update_of_newer source rates hnewer, push]
      simp only [get_timestamps, List.map_append, List.map_singleton,
        OneDayRatesCollector.update_timestamp, OneDayRatesCollector.new, List.length_map]
      congr 1
      split
      · exact List.map_tail
      · rfl
    · rw [slide, if_neg hnewer, update_of_old source rates hmem hnewer]

/-- **What an update adds**: the day of the result gains its rates, and every other day that
stays is left alone. -/
theorem held_update (hnodup : self.get_timestamps.Nodup) {t : ℕ}
    (ht : t ∈ (self.update source timestamp rates).1.get_timestamps) :
    (self.update source timestamp rates).1.held t
      = if t = start_of_day timestamp then (self.held t).update source rates
        else self.held t := by
  by_cases hmem : start_of_day timestamp ∈ self.get_timestamps
  · unfold held
    rw [(update_of_mem source rates hmem).2.2 t]
    by_cases heq : t = start_of_day timestamp
    · subst heq
      obtain ⟨odc, hodc⟩ := Option.ne_none_iff_exists'.mp
        fun hnone => find_day_eq_none_iff.mp hnone hmem
      rw [if_pos rfl, if_pos rfl, hodc, Option.map_some, Option.getD_some, Option.getD_some]
    · rw [if_neg heq, if_neg heq]
  · by_cases hnewer : Newer self.get_timestamps (start_of_day timestamp)
    · rw [update_of_newer source rates hnewer] at ht ⊢
      generalize hopened : (OneDayRatesCollector.new (start_of_day timestamp)).update source rates
        = opened at ht ⊢
      have htime : opened.timestamp = start_of_day timestamp := by
        rw [← hopened, OneDayRatesCollector.update_timestamp]
        rfl
      unfold held find_day
      dsimp only
      rw [List.find?_append]
      have hkept : ∀ {t : ℕ}, t ∉ self.get_timestamps
          ∨ t ∈ (if self.days.length = MAX_COLLECTION_DAYS then self.days.tail
              else self.days).map OneDayRatesCollector.timestamp →
          (if self.days.length = MAX_COLLECTION_DAYS then self.days.tail
            else self.days).find? (fun odc => decide (odc.timestamp = t)) = self.find_day t := by
        intro t ht
        split
        · rename_i hfull
          rw [if_pos hfull] at ht
          exact find_tail hnodup ht
        · rfl
      by_cases heq : t = start_of_day timestamp
      · -- the day was not there before
        subst heq
        rw [hkept (Or.inl hmem), find_day_eq_none_iff.mpr hmem, if_pos rfl, Option.none_or,
          List.find?_singleton, if_pos (decide_eq_true htime), Option.getD_some, ← hopened]
        have hself := find_day_eq_none_iff.mpr hmem
        unfold find_day at hself
        rw [hself, Option.getD_none]
      · rw [get_timestamps, List.map_append, List.mem_append, List.map_singleton,
          List.mem_singleton, htime] at ht
        rw [hkept (Or.inr (ht.resolve_right heq)), if_neg heq, List.find?_singleton,
          if_neg (by simpa [htime] using Ne.symm heq), Option.or_none, find_day]
    · rw [update_of_old source rates hmem hnewer] at ht ⊢
      have hne : t ≠ start_of_day timestamp := fun heq => hmem (heq ▸ ht)
      rw [if_neg hne]

end Update

/-! ## A batch

The induction over a batch starts at its end: what is held in the end for a day that is there in
the end is what all of the batch has for it. It carries that the days have no duplicates, and
that a day which was refused or dropped is older than one that stays. -/

theorem update_all_cons (self : ForexRatesCollector) (result : SourceResult)
    (results : List SourceResult) :
    self.update_all (result :: results)
      = (self.update result.source result.timestamp result.rates).1.update_all results := rfl

/-- This is what the forex update does with its answers. -/
theorem foldl_collect_step (results : List SourceResult) :
    ∀ acc : ForexRatesCollector × List ℕ,
      ((results.map fun result => (result.source, result.timestamp, result.rates)).foldl
        periodic.collect_step acc).1 = acc.1.update_all results := by
  induction results with
  | nil => exact fun _ => rfl
  | cons result results ih =>
      intro acc
      rw [List.map_cons, List.foldl_cons, ih]
      rfl

/-- The days after a batch. -/
theorem get_timestamps_update_all (results : List SourceResult) : ∀ self : ForexRatesCollector,
    (self.update_all results).get_timestamps
      = slide_all MAX_COLLECTION_DAYS self.get_timestamps (results.map SourceResult.day) := by
  induction results with
  | nil => exact fun _ => rfl
  | cons result results ih =>
      intro self
      rw [update_all_cons, ih, get_timestamps_update]
      rfl

theorem nodup_update_all (results : List SourceResult) : ∀ self : ForexRatesCollector,
    self.get_timestamps.Nodup → (self.update_all results).get_timestamps.Nodup := by
  induction results with
  | nil => exact fun _ h => h
  | cons result results ih =>
      exact fun self h => ih _ (nodup_timestamps_update _ _ _ h)

/-- **What a batch leaves for a day that is there at the end**: everything it has for this day, on
top of what was held before. A result that is dropped, or a day that goes, is older than
another day, and such a day does not come back. -/
theorem held_update_all {t : ℕ} (results : List SourceResult) : ∀ self : ForexRatesCollector,
    self.get_timestamps.Nodup → t ∈ (self.update_all results).get_timestamps →
      (self.update_all results).held t
        = (self.held t).update_all (results.filter fun result => decide (result.day = t)) := by
  induction results with
  | nil => exact fun _ _ _ => rfl
  | cons result results ih =>
      intro self hnodup ht
      rw [update_all_cons] at ht ⊢
      rw [ih _ (nodup_timestamps_update _ _ _ hnodup) ht, List.filter_cons]
      have hsame : (self.update result.source result.timestamp result.rates).1.held t
          = if t = result.day then (self.held t).update result.source result.rates
            else self.held t := by
        by_cases hnow : t ∈ (self.update result.source result.timestamp
            result.rates).1.get_timestamps
        · exact held_update _ _ hnodup hnow
        · -- it is not there yet, and was not there before
          have hnever : ¬ (t ∈ self.get_timestamps ∨ t = result.day) := by
            intro hever
            rw [get_timestamps_update] at hnow
            obtain ⟨k, hk, hlt⟩ := exists_lt_of_notMem_slide hever hnow
            rw [get_timestamps_update_all, get_timestamps_update] at ht
            exact notMem_slide_all _ _ hnow ⟨k, hk, hlt⟩ ht
          rw [not_or] at hnever
          rw [if_neg hnever.2, held, held, find_day_eq_none_iff.mpr hnow,
            find_day_eq_none_iff.mpr hnever.1]
      rw [hsame]
      by_cases heq : t = result.day
      · rw [if_pos heq, if_pos (decide_eq_true heq.symm)]
        rfl
      · rw [if_neg heq, if_neg (by simpa using Ne.symm heq)]

/-- Two collectors hold the same: the same days with the same sources, and the same rates for
every day and currency, with multiplicity. -/
structure SameCollected (c c' : ForexRatesCollector) : Prop where
  days : c.get_timestamps = c'.get_timestamps
  sources : ∀ t, c.get_sources t = c'.get_sources t
  rates : ∀ t symbol, (c.held t).quotes symbol = (c'.held t).quotes symbol

theorem get_sources_eq (self : ForexRatesCollector) (t : ℕ) :
    self.get_sources t = if t ∈ self.get_timestamps then some (self.held t).sources else none := by
  have hfind : self.get_sources t = (self.find_day t).map OneDayRatesCollector.sources := rfl
  rw [hfind, held]
  cases hday : self.find_day t with
  | none => rw [if_neg (find_day_eq_none_iff.mp hday), Option.map_none]
  | some odc =>
      have hmem : t ∈ self.get_timestamps := by
        by_contra habsent
        rw [find_day_eq_none_iff.mpr habsent] at hday
        cases hday
      rw [if_pos hmem, Option.map_some, Option.getD_some]

/-- **The days decide.** Two orders of a batch collect the same when they end with the same
days. -/
theorem sameCollected_iff {self : ForexRatesCollector} (hnodup : self.get_timestamps.Nodup)
    {results results' : List SourceResult} (hp : results.Perm results') :
    SameCollected (self.update_all results) (self.update_all results')
      ↔ (self.update_all results).get_timestamps = (self.update_all results').get_timestamps := by
  refine ⟨SameCollected.days, fun hdays => ?_⟩
  have hheld : ∀ t, (∀ symbol, ((self.update_all results).held t).quotes symbol
        = ((self.update_all results').held t).quotes symbol)
      ∧ ((self.update_all results).held t).sources
        = ((self.update_all results').held t).sources := by
    intro t
    -- a day that is held has been updated with the results for it, in some order
    by_cases ht : t ∈ (self.update_all results).get_timestamps
    · rw [held_update_all results self hnodup ht,
        held_update_all results' self hnodup (hdays ▸ ht)]
      exact OneDayRatesCollector.update_all_perm _ (hp.filter _)
    · rw [held, held, find_day_eq_none_iff.mpr ht, find_day_eq_none_iff.mpr (hdays ▸ ht)]
      exact ⟨fun _ => rfl, rfl⟩
  refine ⟨hdays, fun t => ?_, fun t => (hheld t).1⟩
  rw [get_sources_eq, get_sources_eq, (hheld t).2]
  simp only [hdays]

/-! ## The order of the results

Within the window all days of a batch are at most one day apart, so at most two of them are new.
The earlier one is opened only when its answer comes before that of the later one. From there on
two orders are compared by the first day each of them opens. -/

/-- The days of a batch are less than `MAX_COLLECTION_DAYS` days older than the newest one of
the collector and the batch. -/
def InWindow (self : ForexRatesCollector) (results : List SourceResult) : Prop :=
  ∀ result ∈ results, ∀ newest ∈ self.get_timestamps ++ results.map SourceResult.day,
    newest < result.day + MAX_COLLECTION_DAYS * ONE_DAY_SECONDS

/-- The first day that a batch opens. -/
def first_opened (self : ForexRatesCollector) (results : List SourceResult) : Option ℕ :=
  (results.find? fun result => self.opens result.day).map SourceResult.day

/-- The days of a batch within the window are at most one day apart. -/
theorem InWindow.last {self : ForexRatesCollector} {results : List SourceResult}
    (h : self.InWindow results) : ∀ key ∈ results.map SourceResult.day,
      ∀ a ∈ results.map SourceResult.day, ∀ b ∈ results.map SourceResult.day,
        key < a → key < b → a = b := by
  intro key hkey a ha b hb hlt hlt'
  obtain ⟨result, hresult, rfl⟩ := List.mem_map.mp hkey
  have hnear := h result hresult a (List.mem_append_right _ ha)
  have hnear' := h result hresult b (List.mem_append_right _ hb)
  obtain ⟨result₁, -, rfl⟩ := List.mem_map.mp ha
  obtain ⟨result₂, -, rfl⟩ := List.mem_map.mp hb
  -- days are whole
  have hday : ONE_DAY_SECONDS = 86_400 := by decide
  simp only [SourceResult.day, start_of_day, MAX_COLLECTION_DAYS, hday] at *
  omega

theorem first_opened_eq (self : ForexRatesCollector) (results : List SourceResult) :
    self.first_opened results
      = first_newer self.get_timestamps (results.map SourceResult.day) := by
  rw [first_opened, first_newer, List.find?_map]
  congr 2
  funext result
  rw [Function.comp_apply, Bool.eq_iff_iff, opens_iff, decide_eq_true_eq]

/-- **The first opened day decides.** Within the window the results are for two days at most, and
the older of them is refused once the newer one has been opened. So the order matters only through
the first result that opens a day. -/
theorem sameCollected_iff_first_opened {self : ForexRatesCollector}
    (hnodup : self.get_timestamps.Nodup) {results results' : List SourceResult}
    (hp : results.Perm results') (hwindow : self.InWindow results) :
    SameCollected (self.update_all results) (self.update_all results')
      ↔ self.first_opened results = self.first_opened results' := by
  rw [sameCollected_iff hnodup hp, get_timestamps_update_all, get_timestamps_update_all,
    first_opened_eq, first_opened_eq]
  exact slide_all_eq_iff (le_refl 2) (hp.map _) fun key hkey _ => hwindow.last key hkey

/-- Every order collects the same exactly when no two days of the batch are opened. With two such
days there is an order that opens the newer one first, and then the other one is refused. -/
theorem sameCollected_every_order_iff {self : ForexRatesCollector}
    (hnodup : self.get_timestamps.Nodup) {results : List SourceResult}
    (hwindow : self.InWindow results) :
    (∀ results', results.Perm results' →
        SameCollected (self.update_all results) (self.update_all results'))
      ↔ ∀ result ∈ results, ∀ result' ∈ results, self.opens result.day = true →
          self.opens result'.day = true → result.day = result'.day := by
  constructor
  · intro hall
    -- whichever result opens a day may come first
    have hfirst : ∀ result ∈ results, self.opens result.day = true →
        self.first_opened results = some result.day := by
      intro result hresult hopens
      obtain ⟨before, after, hsplit⟩ := List.append_of_mem hresult
      have hp : results.Perm (result :: (before ++ after)) := by
        rw [hsplit]
        exact List.perm_middle
      rw [(sameCollected_iff_first_opened hnodup hp hwindow).mp (hall _ hp), first_opened,
        List.find?_cons, hopens, Option.map_some]
    intro result hresult result' hresult' hopens hopens'
    exact Option.some.inj ((hfirst result hresult hopens).symm.trans
      (hfirst result' hresult' hopens'))
  · intro hsingle results' hp
    apply (sameCollected_iff_first_opened hnodup hp hwindow).mpr
    unfold first_opened
    cases hfind : results.find? fun result => self.opens result.day with
    | none =>
        have hnone : (results'.find? fun result => self.opens result.day) = none := by
          rw [List.find?_eq_none] at hfind ⊢
          exact fun result hresult => hfind result (hp.mem_iff.mpr hresult)
        rw [hnone]
    | some result =>
        have hresult := List.mem_of_find?_eq_some hfind
        have hopens : self.opens result.day = true := by simpa using List.find?_some hfind
        cases hfind' : results'.find? fun result => self.opens result.day with
        | none => exact absurd hopens (List.find?_eq_none.mp hfind' result (hp.mem_iff.mp hresult))
        | some result' =>
            have hresult' := hp.mem_iff.mpr (List.mem_of_find?_eq_some hfind')
            have hopens' : self.opens result'.day = true := by simpa using List.find?_some hfind'
            rw [Option.map_some, Option.map_some,
              hsingle result hresult result' hresult' hopens hopens']

/-- From the empty collector, a result is dropped when its day is before that of the first
one. -/
theorem dropped_from_new_iff {results before : List SourceResult} {first result : SourceResult}
    (hwindow : new.InWindow results) (hbefore : ∀ r ∈ first :: before, r ∈ results)
    (hresult : result ∈ results) :
    ((new.update_all (first :: before)).update result.source result.timestamp result.rates).2
        = false ↔ result.day < first.day := by
  have hmem : ∀ {r}, r ∈ results → r.day ∈ results.map SourceResult.day := List.mem_map_of_mem
  have hdays : ∀ a ∈ (first :: before).map SourceResult.day,
      a ∈ results.map SourceResult.day := by
    intro a ha
    obtain ⟨r, hr, rfl⟩ := List.mem_map.mp ha
    exact hmem (hbefore r hr)
  have hfirst := hmem (hbefore first List.mem_cons_self)
  have hopened : first_newer [] ((first :: before).map SourceResult.day) = some first.day := rfl
  have hday : start_of_day result.timestamp = result.day := rfl
  rw [update_dropped_iff, get_timestamps_update_all, hday]
  rcases slide_all_of_first_newer MAX_COLLECTION_DAYS hopened (fun a ha b hb =>
      hwindow.last first.day hfirst a (hdays a ha) b (hdays b hb)) with
    ⟨-, hrun⟩ | ⟨a, ha, hlt, hrun⟩
  · have hend : slide_all MAX_COLLECTION_DAYS new.get_timestamps
        ((first :: before).map SourceResult.day) = [first.day] := hrun.trans rfl
    simp only [hend, Newer, List.mem_singleton, forall_eq]
    omega
  · -- a result between the two days would be a third one
    have hend : slide_all MAX_COLLECTION_DAYS new.get_timestamps
        ((first :: before).map SourceResult.day) = [first.day, a] := hrun.trans rfl
    have hthird : first.day < result.day → a = result.day := fun hlt' =>
      hwindow.last first.day hfirst a (hdays a ha) result.day (hmem hresult) hlt hlt'
    simp only [hend, Newer, List.mem_cons, List.not_mem_nil, or_false, forall_eq_or_imp, forall_eq]
    omega

/-- **The order of the sources**, for every collector and every batch within the window. Two
orders collect the same exactly when the first result that opens a day is for the same day; all
orders do when the batch opens at most one day. From the empty collector the results that are
dropped are those of the days before the first one.

What a batch leaves depends on the days that are there in the end, and for these on the multiset
of the answers, not on their order. Days are opened in ascending order only, so the first day that
is opened decides which of the others can be. -/
theorem order_of_sources (history results : List SourceResult)
    (hwindow : (new.update_all history).InWindow results) :
    (∀ results', results.Perm results' →
        (SameCollected ((new.update_all history).update_all results)
            ((new.update_all history).update_all results')
          ↔ (new.update_all history).first_opened results
            = (new.update_all history).first_opened results'))
      ∧ ((∀ results', results.Perm results' →
            SameCollected ((new.update_all history).update_all results)
              ((new.update_all history).update_all results'))
          ↔ ∀ result ∈ results, ∀ result' ∈ results,
              (new.update_all history).opens result.day = true →
              (new.update_all history).opens result'.day = true → result.day = result'.day)
      ∧ ∀ first rest before result after, history = [] → results = first :: rest →
          results = before ++ result :: after →
            (((new.update_all before).update result.source result.timestamp result.rates).2 = false
              ↔ result.day < first.day) := by
  have hnodup : (new.update_all history).get_timestamps.Nodup :=
    nodup_update_all history new List.nodup_nil
  refine ⟨fun results' hp => sameCollected_iff_first_opened hnodup hp hwindow,
    sameCollected_every_order_iff hnodup hwindow, ?_⟩
  rintro first rest before result after rfl hfirst hsplit
  cases before with
  | nil =>
      -- the first result opens its day
      rw [hsplit, List.nil_append, List.cons.injEq] at hfirst
      rw [hfirst.1, update_dropped_iff]
      exact iff_of_false (fun h => h.2 fun t ht => absurd ht List.not_mem_nil) (lt_irrefl _)
  | cons first' before =>
      rw [hsplit, List.cons_append, List.cons.injEq] at hfirst
      rw [← hfirst.1]
      refine dropped_from_new_iff hwindow ?_ ?_
      · rw [hsplit]
        exact fun r hr => List.mem_append_left _ hr
      · rw [hsplit]
        exact List.mem_append_right _ List.mem_cons_self

/-- The result of one source that quotes the euro. -/
def euroResult (forex : Forex) (timestamp rate : ℕ) : SourceResult :=
  ⟨forex.to_string, timestamp, ⟨[("EUR", rate)], List.pairwise_singleton _ _⟩⟩

/-- What the first update after an upgrade at the start of the fifteenth of June 2023 asks for:
Myanmar's fourteenth and Canada's thirteenth. -/
def firstBatch : List SourceResult :=
  [euroResult .CentralBankOfMyanmar 1_686_700_800 1_070_000_000,
    euroResult .BankOfCanada 1_686_614_400 1_080_000_000]

theorem inWindow_firstBatch : (new.update_all []).InWindow firstBatch := by
  unfold InWindow
  decide

/-- The Canadian rates are dropped. -/
theorem canada_dropped :
    ((new.update_all [euroResult .CentralBankOfMyanmar 1_686_700_800 1_070_000_000]).update
      "BankOfCanada" 1_686_614_400 ⟨[("EUR", 1_080_000_000)], List.pairwise_singleton _ _⟩).2
      = false :=
  ((order_of_sources [] firstBatch inWindow_firstBatch).2.2 _ _
    [euroResult .CentralBankOfMyanmar 1_686_700_800 1_070_000_000]
    (euroResult .BankOfCanada 1_686_614_400 1_080_000_000) [] rfl rfl rfl).mpr (by decide)

/-- **Two orders that differ**: with Canada first, both days are collected. -/
theorem east_first_drops_west :
    ¬ ∀ history results results' : List SourceResult,
      (∀ result ∈ results, result.rates.entries ≠ []) →
      (results.map SourceResult.source).Nodup →
      (new.update_all history).InWindow results → results.Perm results' →
        SameCollected ((new.update_all history).update_all results)
          ((new.update_all history).update_all results') := by
  intro h
  have hsame := h [] firstBatch firstBatch.reverse (by decide) (by decide) inWindow_firstBatch
    (List.reverse_perm _).symm
  exact absurd hsame.days (by decide)

end ForexRatesCollector

end Xrc
