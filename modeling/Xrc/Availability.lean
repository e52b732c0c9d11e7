/-
Which days the forex store can answer for, in terms of the answers of the sources. A day is
served when in one lifetime of the collector enough different sources had an answer accepted
that quotes each currency of the basket, and only then; a currency is there when an accepted
answer for the day quotes it.

The store is a register that keeps the larger count of each entry, so that after a run an entry
stands for the best lifetime of the collector. That is the field `stored` of the invariant
`Settled`, and the theorem is read off it.
-/
import Xrc.Accepted
import Xrc.DayCounts
import Xrc.ForexLookup
import Xrc.SourceCounts
import Xrc.StoreHistory

set_option autoImplicit false

namespace Xrc

open Machine

/-- The greatest of a family stays so when one member grows, and it with it. This is what one
update does to the stored count of a symbol: the count of its own lifetime grows, and all others
are the same. -/
theorem isGreatest_range_update {ι α : Type*} [DecidableEq ι] [LinearOrder α] {f g : ι → α}
    {M : α} (h : IsGreatest (Set.range f) M) (i : ι) (hi : f i ≤ g i)
    (hother : ∀ j, j ≠ i → g j = f j) : IsGreatest (Set.range g) (M ⊔ g i) := by
  constructor
  · obtain ⟨j, rfl⟩ := h.1
    by_cases hj : j = i
    · subst hj
      exact ⟨j, (sup_eq_right.mpr hi).symm⟩
    · rcases le_total (f j) (g i) with hle | hle
      · exact ⟨i, (sup_eq_right.mpr hle).symm⟩
      · refine ⟨j, ?_⟩
        rw [hother j hj, sup_eq_left.mpr hle]
  · rintro _ ⟨j, rfl⟩
    by_cases hj : j = i
    · rw [hj]
      exact le_sup_right
    · rw [hother j hj]
      exact (h.2 ⟨j, rfl⟩).trans le_sup_left

namespace periodic

open ForexRatesCollector

/-! ## The lifetimes of the collector

The specification is on the answers alone: those of each lifetime are given to an empty
collector, and what it accepts of them for a day is counted, source by source and currency by
currency. It does not mention the store. -/

/-- The answers of one lifetime, as the results the collector was given. -/
def results_of (answered : List SourceAnswer) (lifetime : ℕ) : List SourceResult :=
  (answered.filter fun a => decide (a.lifetime = lifetime)).map fun a =>
    ⟨a.source, a.timestamp, a.rates⟩

/-- The results that were accepted for a day in one lifetime. -/
def accepted (answered : List SourceAnswer) (lifetime day : ℕ) : List SourceResult :=
  (recorded (results_of answered lifetime)).accepted day

/-- The sources of these results that quoted a symbol. -/
def accepted_sources (answered : List SourceAnswer) (lifetime day : ℕ) (symbol : String) :
    Finset String :=
  (((accepted answered lifetime day).filter fun result =>
    decide (symbol ∈ result.rates.symbols)).map SourceResult.source).toFinset

/-- **Enough sources for a day**: in one lifetime, for every currency of the basket. The sources
of different lifetimes are not added up, since an upgrade loses what had been collected, and
neither are those of different currencies: each has to have enough of its own. -/
def Quorate [Features] (answered : List SourceAnswer) (day : ℕ) : Prop :=
  ∃ lifetime, ∀ symbol ∈ OneDayRatesCollector.basket,
    MIN_SOURCES_TO_REPORT ≤ (accepted_sources answered lifetime day symbol).card

/-- The latest of the days that may be asked for which enough sources agree. It is stated on the
answers that were accepted, without the store and without its search. -/
def LatestQuorate [Features] (answered : List SourceAnswer) (requested day : ℕ) : Prop :=
  IsGreatest { day | day ∈ ForexRateStore.lookup_days requested ∧ Quorate answered day } day

/-- A currency has a rate on a day with enough sources: it is the USD, the computed XDR, or some
accepted answer for the day quotes it. -/
def RatedOn (answered : List SourceAnswer) (day : ℕ) (symbol : String) : Prop :=
  symbol = USD ∨ symbol = COMPUTED_XDR_SYMBOL
    ∨ ∃ lifetime, ∃ result ∈ accepted answered lifetime day, ∃ quoted ∈ result.rates.symbols,
        OneDayRatesCollector.collected_symbol quoted = symbol

/-- What the collector had for a day at the end of a lifetime, or has in the current one. -/
def gathered (answered : List SourceAnswer) (lifetime day : ℕ) : OneDayRatesCollector :=
  (OneDayRatesCollector.new day).update_all (accepted answered lifetime day)

/-- The answers of an update, as results. -/
def results (answers : List (String × ℕ × ForexRateMap)) : List SourceResult :=
  answers.map fun a => ⟨a.1, a.2.1, a.2.2⟩

/-- The answers of the current lifetime join those before. -/
def answered_after (answered : List SourceAnswer) (current : ℕ)
    (answers : List (String × ℕ × ForexRateMap)) : List SourceAnswer :=
  answered ++ answers.map fun a => ⟨current, a.1, a.2.1, a.2.2⟩

theorem recorded_answered_after_self (answered : List SourceAnswer) (current : ℕ)
    (answers : List (String × ℕ × ForexRateMap)) :
    recorded (results_of (answered_after answered current answers) current)
      = (recorded (results_of answered current)).record_all (results answers) := by
  rw [← Recorded.recorded_append_all]
  unfold results_of answered_after results
  rw [List.filter_append, List.map_append, List.filter_map]
  simp [Function.comp_def]

theorem results_of_answered_after_of_ne (answered : List SourceAnswer) {current lifetime : ℕ}
    (hne : lifetime ≠ current) (answers : List (String × ℕ × ForexRateMap)) :
    results_of (answered_after answered current answers) lifetime
      = results_of answered lifetime := by
  unfold results_of answered_after
  rw [List.filter_append, List.map_append, List.filter_map]
  simp [Function.comp_def, Ne.symm hne]

/-- No answer of a lifetime that has not begun. -/
theorem results_of_eq_nil {answered : List SourceAnswer} {lifetime : ℕ}
    (h : ∀ a ∈ answered, a.lifetime < lifetime) : results_of answered lifetime = [] := by
  rw [results_of, List.map_eq_nil_iff, List.filter_eq_nil_iff]
  intro a ha
  simpa using (h a ha).ne

theorem mem_answered_of_accepted {answered : List SourceAnswer} {lifetime day : ℕ}
    {result : SourceResult} (h : result ∈ accepted answered lifetime day) :
    ∃ a ∈ answered, a.rates = result.rates := by
  obtain ⟨a, ha, rfl⟩ := List.mem_map.mp (mem_of_mem_accepted _ h)
  exact ⟨a, List.mem_of_mem_filter ha, rfl⟩

/-- Without a quote for the computed symbol, nothing is gathered for it. -/
theorem gathered_cxdr {answered : List SourceAnswer}
    (h : ∀ a ∈ answered, COMPUTED_XDR_SYMBOL ∉ a.rates.symbols) (lifetime day : ℕ) :
    (gathered answered lifetime day).rates COMPUTED_XDR_SYMBOL = none := by
  apply (OneDayRatesCollector.rates_update_all_eq_none_iff _ _ _).mpr
  refine ⟨rfl, fun result hresult quoted hquoted heq => ?_⟩
  obtain ⟨a, ha, hrates⟩ := mem_answered_of_accepted hresult
  unfold OneDayRatesCollector.collected_symbol at heq
  split at heq
  · exact absurd heq (by decide)
  · exact h a ha (hrates ▸ heq ▸ hquoted)

/-- The count of a currency is that of its sources. -/
theorem card_accepted_sources {answered : List SourceAnswer} {lifetime : ℕ}
    (h : (recorded (results_of answered lifetime)).Sound) (day : ℕ) {symbol : String}
    (hxdr : symbol ≠ "XDR") (hsdr : symbol ≠ "SDR") :
    (accepted_sources answered lifetime day symbol).card
      = (gathered answered lifetime day).count symbol := by
  have hdistinct : (((accepted answered lifetime day).filter fun result =>
      decide (symbol ∈ result.rates.symbols)).map SourceResult.source).Nodup :=
    (h.distinct day).sublist (List.filter_sublist.map _)
  rw [accepted_sources, List.toFinset_card_of_nodup hdistinct, List.length_map,
    ← List.countP_eq_length_filter, gathered,
    OneDayRatesCollector.count_update_all hxdr hsdr, OneDayRatesCollector.count_new, Nat.zero_add]

/-! ## What is stored

Storing a day raises its entries to what the collector has, and does nothing to other days. This
is seen per entry, as a maximum of counts. -/

section Storing

variable [Features]

/-- The rates of a day that is there. -/
theorem get_rates_map_of_mem {collector : ForexRatesCollector} {day : ℕ}
    (h : day ∈ collector.get_timestamps) :
    collector.get_rates_map day = some (collector.held day).get_rates_map := by
  obtain ⟨odc, hodc⟩ := Option.ne_none_iff_exists'.mp
    fun hnone => find_day_eq_none_iff.mp hnone h
  rw [held, hodc, Option.getD_some]
  exact congrArg (Option.map OneDayRatesCollector.get_rates_map) hodc

/-- One round of the second loop. -/
theorem received_store_step {collector : ForexRatesCollector} {d : ℕ}
    (hd : d ∈ collector.get_timestamps) (hstart : start_of_day d = d) (store : ForexRateStore)
    (day : ℕ) {symbol : String} (husd : symbol ≠ USD) :
    received ((store_step collector store d).entry day symbol)
      = if day = d then received (store.entry day symbol)
            ⊔ received ((collector.held d).get_rates_map symbol)
        else received (store.entry day symbol) := by
  unfold store_step
  rw [get_rates_map_of_mem hd]
  dsimp only
  rw [ForexRateStore.entry_put, hstart, Function.update_of_ne husd]
  by_cases hday : day = d
  · rw [if_pos hday.symm, if_pos hday, received_merge_entry]
  · rw [if_neg (Ne.symm hday), if_neg hday]

/-- **The second loop** raises the entries of its days to what the collector has. A day may be
listed more than once, which changes nothing, as taking the maximum twice is taking it once. -/
theorem received_store_all {collector : ForexRatesCollector} (day : ℕ) {symbol : String}
    (husd : symbol ≠ USD) (days : List ℕ) : ∀ store : ForexRateStore,
      (∀ d ∈ days, d ∈ collector.get_timestamps ∧ start_of_day d = d) →
        received ((days.foldl (store_step collector) store).entry day symbol)
          = if day ∈ days then received (store.entry day symbol)
                ⊔ received ((collector.held day).get_rates_map symbol)
            else received (store.entry day symbol) := by
  induction days with
  | nil => exact fun _ _ => rfl
  | cons d days ih =>
      intro store hdays
      obtain ⟨hd, hstart⟩ := hdays d List.mem_cons_self
      rw [List.foldl_cons, ih _ fun d' hd' => hdays d' (List.mem_cons_of_mem _ hd'),
        received_store_step hd hstart store day husd]
      -- a second occurrence of the day takes the same maximum again
      by_cases hday : day = d
      · subst hday
        rw [if_pos rfl, if_pos List.mem_cons_self]
        split
        · rw [sup_assoc, sup_idem]
        · rfl
      · rw [if_neg hday]
        simp [hday]

end Storing

/-! ## Runs

`Settled` is the invariant. Its field `stored` says that an entry stands for the greatest count
that any lifetime had for it; the others say that the collector is sound, and that a suspended
update asks only for what it does not have. -/

section Runs

variable [Features] [Calendar]

/-- What holds of the forex update between two messages. The last field is the point of it: an
entry of the store stands for the greatest count that any lifetime of the collector had for it.
The others say that lifetimes can be told apart, and that what an update is waiting for is new to
the collector. -/
structure Settled (s : ForexState) : Prop where
  consistent : Consistent s
  collector_eq : s.collector = (recorded (results_of s.answered s.lifetime)).collector
  sound : ∀ lifetime, (recorded (results_of s.answered lifetime)).Sound
  lifetimes : ∀ a ∈ s.answered, a.lifetime ≤ s.lifetime
  quoting : ∀ a ∈ s.answered, COMPUTED_XDR_SYMBOL ∉ a.rates.symbols
  called : ∀ timestamp called, s.updating = some (timestamp, called) → InRange timestamp
    ∧ ∀ p ∈ called, p.2 = key_timestamp p.1 (start_of_day_timestamp timestamp)
  stored : ∀ day symbol, symbol ≠ USD →
    IsGreatest (Set.range fun lifetime =>
        received ((gathered s.answered lifetime day).get_rates_map symbol))
      (received (s.forex_store.entry day symbol))

omit [Calendar] in
theorem received_new_day (day : ℕ) (symbol : String) :
    received ((OneDayRatesCollector.new day).get_rates_map symbol) = ⊥ := by
  by_cases husd : symbol = USD
  · rw [husd, OneDayRatesCollector.get_rates_map_of_ne _ (by decide)]
    rfl
  · by_cases hcxdr : symbol = COMPUTED_XDR_SYMBOL
    · rw [hcxdr, OneDayRatesCollector.received_get_rates_map_cxdr rfl]
      rfl
    · rw [OneDayRatesCollector.received_get_rates_map _ husd hcxdr]
      rfl

omit [Calendar] in
theorem settled_new : Settled ForexState.new where
  consistent := consistent_new
  collector_eq := rfl
  sound _ := Recorded.sound_new
  lifetimes _ ha := absurd ha List.not_mem_nil
  quoting _ ha := absurd ha List.not_mem_nil
  called _ _ hnone := nomatch hnone
  stored day symbol _ := by
    have hnone : ∀ lifetime,
        received ((gathered ForexState.new.answered lifetime day).get_rates_map symbol) = ⊥ :=
      fun _ => received_new_day day symbol
    refine ⟨⟨0, hnone 0⟩, ?_⟩
    rintro _ ⟨lifetime, rfl⟩
    exact (hnone lifetime).le

/-- A heartbeat changes only the calls. The times and the days that it records are in range
because the heartbeat is. -/
theorem Settled.heartbeat {s : ForexState} (h : Settled s) {timestamp : ℕ}
    (hrange : InRange timestamp) : Settled (step s (.heartbeat timestamp)) := by
  have hconsistent := consistent_step h.consistent (.heartbeat timestamp) trivial
  show Settled (start_update s timestamp)
  replace hconsistent : Consistent (start_update s timestamp) := hconsistent
  revert hconsistent
  unfold start_update
  split
  · exact fun _ => h
  · split
    · exact fun _ => h
    · intro hconsistent
      refine ⟨hconsistent, h.collector_eq, h.sound, h.lifetimes, h.quoting, ?_, h.stored⟩
      intro t called hcalled
      cases hcalled
      refine ⟨hrange, ?_⟩
      rintro ⟨forex, day⟩ hp
      exact (mem_called_iff.mp hp).1

/-- An upgrade begins a new lifetime. -/
theorem Settled.upgraded {s : ForexState} (h : Settled s) : Settled (step s .upgraded) where
  consistent := consistent_step h.consistent .upgraded trivial
  collector_eq := by
    have hnil : results_of s.answered (s.lifetime + 1) = [] :=
      results_of_eq_nil fun a ha => Nat.lt_succ_of_le (h.lifetimes a ha)
    show ForexRatesCollector.new = (recorded (results_of s.answered (s.lifetime + 1))).collector
    rw [hnil]
    rfl
  sound := h.sound
  lifetimes a ha := (h.lifetimes a ha).trans (Nat.le_succ _)
  quoting := h.quoting
  called _ _ hnone := nomatch hnone
  stored := h.stored

/-! ### The end of an update

Where the two loops of the update meet: answers are accepted by the collector first, and then
the days they were for are stored. Only the current lifetime has changed, so the greatest count
of each entry is raised to its own. -/

omit [Calendar] in
/-- The answers of an update are fresh, and for two neighbouring days. They are fresh because an
update calls only sources whose answers the collector lacks, and each of them once. -/
theorem Settled.fresh {s : ForexState} (h : Settled s) {timestamp : ℕ}
    {called : List (Forex × ℕ)} (hupdating : s.updating = some (timestamp, called))
    (answer : Forex → Option ForexRateMap) :
    Recorded.Fresh (recorded (results_of s.answered s.lifetime))
        (results (forex_rates called answer))
      ∧ ∀ result ∈ results (forex_rates called answer),
          Recorded.InWindow (yesterday timestamp) result := by
  obtain ⟨hrange, hkeys⟩ := h.called timestamp called hupdating
  have hpending := h.consistent.calls timestamp called hupdating
  have hsub := forex_rates_sublist answer called
  have haligned : ∀ result ∈ results (forex_rates called answer),
      result.day = result.timestamp := by
    intro result hresult
    obtain ⟨a, ha, rfl⟩ := List.mem_map.mp hresult
    exact hpending.aligned (a.1, a.2.1) (hsub.subset (List.mem_map_of_mem ha))
  -- distinct sources, none of them accepted for its day, no empty answer, two days
  refine ⟨⟨?_, ?_, ?_⟩, ?_⟩
  · have hnodup := hpending.nodup.sublist (hsub.map Prod.fst)
    rw [List.map_map] at hnodup
    rw [results, List.map_map]
    exact hnodup
  · intro result hresult
    have hday := haligned result hresult
    obtain ⟨a, ha, rfl⟩ := List.mem_map.mp hresult
    rw [← h.collector_eq]
    -- nothing is held for a day that is not there, and for one that is the source was not called
    by_cases hmem : SourceResult.day ⟨a.1, a.2.1, a.2.2⟩ ∈ s.collector.get_timestamps
    · obtain ⟨odc, hodc, htime⟩ := List.mem_map.mp hmem
      rw [← htime, held_of_mem h.consistent.collected.nodup hodc]
      exact hpending.fresh (a.1, a.2.1) (hsub.subset (List.mem_map_of_mem ha)) odc hodc
        (htime.trans hday)
    · rw [held, find_day_eq_none_iff.mpr hmem]
      exact Finset.notMem_empty _
  · intro result hresult
    obtain ⟨a, ha, rfl⟩ := List.mem_map.mp hresult
    obtain ⟨forex, -, hrates⟩ := mem_forex_rates ha
    exact hrates
  · intro result hresult
    have hday := haligned result hresult
    obtain ⟨a, ha, rfl⟩ := List.mem_map.mp hresult
    obtain ⟨forex, hcalled, -⟩ := mem_forex_rates ha
    -- every source is asked for yesterday or the day before
    obtain ⟨-, hle, hge⟩ := key_timestamp_spec hrange forex
    have hkey : a.2.1 = key_timestamp forex (start_of_day_timestamp timestamp) :=
      hkeys (forex, a.2.1) hcalled
    refine ⟨hday, ?_, ?_⟩
    · rw [hday]
      exact hkey.trans_le hle
    · rw [hday]
      exact hge.trans_eq (congrArg (· + ONE_DAY_SECONDS) hkey.symm)

omit [Calendar] in
/-- What an update collects, and the days it stores. The two loops of the update are those of the
module on accepted results, started without any days. -/
theorem Settled.collects {s : ForexState} (h : Settled s) {timestamp : ℕ}
    {called : List (Forex × ℕ)} (hupdating : s.updating = some (timestamp, called))
    (answer : Forex → Option ForexRateMap) :
    Recorded.Collects (recorded (results_of s.answered s.lifetime))
        (recorded (results_of
          (answered_after s.answered s.lifetime (forex_rates called answer)) s.lifetime))
        [] ((forex_rates called answer).foldl collect_step (s.collector, [])).2
      ∧ ((forex_rates called answer).foldl collect_step (s.collector, [])).1
        = (recorded (results_of (answered_after s.answered s.lifetime
            (forex_rates called answer)) s.lifetime)).collector := by
  obtain ⟨hfresh, hwindow⟩ := h.fresh hupdating answer
  have hnone : ∀ day ∈ ([] : List ℕ),
      day ∈ (recorded (results_of s.answered s.lifetime)).collector.get_timestamps
        ∧ yesterday timestamp ≤ day + ONE_DAY_SECONDS := fun _ hmem => absurd hmem List.not_mem_nil
  have hcollects := (h.sound s.lifetime).batch _ hfresh hwindow hnone
  have htriples : (results (forex_rates called answer)).map
        (fun result => (result.source, result.timestamp, result.rates))
      = forex_rates called answer := by
    rw [results, List.map_map]
    exact List.map_id _
  -- the loop of the code and the batch are the same fold over the same triples
  have hfold := foldl_collect_step (results (forex_rates called answer)) (s.collector, [])
  rw [htriples, ← h.collector_eq] at hcollects
  rw [htriples] at hfold
  rw [recorded_answered_after_self]
  refine ⟨hcollects, ?_⟩
  rw [hfold, Recorded.collector_record_all, ← h.collector_eq]

omit [Calendar] in
/-- **The best lifetime after an update**: its days are raised to what the collector now has of the
current lifetime, and for the others nothing changed. -/
theorem isGreatest_received_after {s : ForexState} (h : Settled s)
    {answered : List SourceAnswer} {days : List ℕ}
    (hcollects : Recorded.Collects (recorded (results_of s.answered s.lifetime))
      (recorded (results_of answered s.lifetime)) [] days)
    (hother : ∀ lifetime, lifetime ≠ s.lifetime →
      results_of answered lifetime = results_of s.answered lifetime)
    (hquoting : ∀ a ∈ answered, COMPUTED_XDR_SYMBOL ∉ a.rates.symbols) (day : ℕ) {symbol : String}
    (husd : symbol ≠ USD) :
    IsGreatest (Set.range fun lifetime =>
        received ((gathered answered lifetime day).get_rates_map symbol))
      (received ((days.dedup.foldl (store_step (recorded (results_of answered
        s.lifetime)).collector) s.forex_store).entry day symbol)) := by
  have hgathered : ∀ lifetime, lifetime ≠ s.lifetime →
      gathered answered lifetime day = gathered s.answered lifetime day := by
    intro lifetime hne
    rw [gathered, accepted, hother lifetime hne]
    rfl
  have hdays : ∀ d ∈ days.dedup,
      d ∈ (recorded (results_of answered s.lifetime)).collector.get_timestamps
        ∧ start_of_day d = d := by
    intro d hd
    have hheld := hcollects.held d (List.mem_dedup.mp hd)
    have hwhole := hcollects.sound.represents.whole_days d hheld
    exact ⟨hheld, Nat.div_mul_cancel (Nat.dvd_of_mod_eq_zero hwhole)⟩
  have hbefore := h.stored day symbol husd
  rw [received_store_all day husd days.dedup s.forex_store hdays]
  by_cases hday : day ∈ days
  · have hheld := hcollects.sound.represents.held day (hcollects.held day hday)
    rw [if_pos (List.mem_dedup.mpr hday), hheld]
    apply isGreatest_range_update hbefore s.lifetime
    · -- the accepted answers of the day are more than before
      apply OneDayRatesCollector.received_get_rates_map_mono ?_ (gathered_cxdr h.quoting _ _)
        (gathered_cxdr hquoting _ _) husd
      intro other
      obtain ⟨more, hmore⟩ := hcollects.grows day
      rw [gathered, gathered, accepted, accepted, ← hmore,
        OneDayRatesCollector.update_all_append]
      exact OneDayRatesCollector.level_le_update_all other more _
    · intro lifetime hne
      rw [hgathered lifetime hne]
  · have hsame : ∀ lifetime, gathered answered lifetime day = gathered s.answered lifetime day := by
      intro lifetime
      by_cases heq : lifetime = s.lifetime
      · rw [heq, gathered, accepted, hcollects.unchanged day hday]
        rfl
      · exact hgathered lifetime heq
    rw [if_neg fun hmem => hday (List.mem_dedup.mp hmem)]
    simp only [hsame]
    exact hbefore

/-- The answers of an update keep the invariant. The count that is stored for a day and symbol is
the greatest over all lifetimes, and storing the days of the update raises that of the current
one. -/
theorem Settled.answers {s : ForexState} (h : Settled s) {answer : Forex → Option ForexRateMap}
    (hevent : NoCxdrQuoted (.answers answer)) : Settled (step s (.answers answer)) := by
  have hconsistent := consistent_step h.consistent (.answers answer) hevent
  show Settled (finish_update s answer)
  replace hconsistent : Consistent (finish_update s answer) := hconsistent
  -- answers without an update under way change nothing
  cases hupdating : s.updating with
  | none =>
      have hsame : finish_update s answer = s := by
        rw [finish_update, hupdating]
      rw [hsame]
      exact h
  | some update =>
      obtain ⟨timestamp, called⟩ := update
      obtain ⟨hcollects, hcollector⟩ := h.collects hupdating answer
      have hquoting : ∀ a ∈ answered_after s.answered s.lifetime (forex_rates called answer),
          COMPUTED_XDR_SYMBOL ∉ a.rates.symbols := by
        intro a ha
        rcases List.mem_append.mp ha with hold | hnew
        · exact h.quoting a hold
        · obtain ⟨new, hmem, rfl⟩ := List.mem_map.mp hnew
          obtain ⟨forex, hforex⟩ := exists_of_mem_forex_rates hmem
          exact hevent forex new.2.2 hforex
      -- the other lifetimes are not touched
      have hother : ∀ lifetime, lifetime ≠ s.lifetime → _ := fun lifetime hne =>
        results_of_answered_after_of_ne s.answered hne (forex_rates called answer)
      unfold finish_update at hconsistent ⊢
      rw [hupdating] at hconsistent ⊢
      refine ⟨hconsistent, hcollector, ?_, ?_, hquoting, ?_, ?_⟩
      · intro lifetime
        by_cases heq : lifetime = s.lifetime
        · subst heq
          exact hcollects.sound
        · exact congrArg recorded (hother lifetime heq) ▸ h.sound lifetime
      · intro a ha
        rcases List.mem_append.mp ha with hold | hnew
        · exact h.lifetimes a hold
        · obtain ⟨new, -, rfl⟩ := List.mem_map.mp hnew
          exact le_rfl
      · rintro _ _ ⟨⟩
      · intro day symbol husd
        -- the field `stored`: raised to what the current lifetime has, on the days it was given
        have hgreatest := isGreatest_received_after h hcollects hother hquoting day husd
        rw [← hcollector] at hgreatest
        exact hgreatest

/-- What was accepted stays accepted. An update may bring more results for a day that is held, and
they are appended. -/
theorem Settled.accepted_grows {s : ForexState} (h : Settled s) (event : ForexEvent)
    (lifetime day : ℕ) :
    accepted s.answered lifetime day <+: accepted (step s event).answered lifetime day := by
  cases event with
  | heartbeat timestamp =>
      show accepted s.answered lifetime day
        <+: accepted (start_update s timestamp).answered lifetime day
      unfold start_update
      split
      · exact List.prefix_rfl
      · split <;> exact List.prefix_rfl
  -- what was accepted is part of the trace and survives an upgrade
  | upgraded => exact List.prefix_rfl
  | answers answer =>
      show accepted s.answered lifetime day
        <+: accepted (finish_update s answer).answered lifetime day
      unfold finish_update
      cases hupdating : s.updating with
      | none => exact List.prefix_rfl
      | some update =>
          obtain ⟨timestamp, called⟩ := update
          -- an answer joins those of its day, in the current lifetime only
          by_cases heq : lifetime = s.lifetime
          · subst heq
            exact (h.collects hupdating answer).1.grows day
          · have hsame := results_of_answered_after_of_ne s.answered heq
              (forex_rates called answer)
            have haccepted : accepted s.answered lifetime day
                = accepted (answered_after s.answered s.lifetime (forex_rates called answer))
                    lifetime day :=
              congrArg (fun history => (recorded history).accepted day) hsame.symm
            exact haccepted ▸ List.prefix_rfl

/-- A heartbeat is in the range of the calendar. Only a heartbeat has a time of its own; answers
are filed under the days that were asked for. -/
def InTime : ForexEvent → Prop
  | .heartbeat timestamp => InRange timestamp
  | _ => True

/-- **One event keeps the invariant.** The three cases are independent of each other: a heartbeat
only records what was asked for, answers go through the collector to the store, and an upgrade
keeps the store while it loses the collector. -/
theorem settled_step {s : ForexState} (h : Settled s) {event : ForexEvent}
    (hcxdr : NoCxdrQuoted event) (htime : InTime event) : Settled (step s event) := by
  cases event with
  | heartbeat timestamp => exact h.heartbeat htime
  | answers answer => exact h.answers hcxdr
  | upgraded => exact h.upgraded

/-- **Every run keeps it**, and what was accepted before. Accepted answers are never taken back,
so they only grow; an upgrade opens a new lifetime and leaves the earlier ones as they are. -/
theorem settled_run (events : List ForexEvent) :
    ∀ {s : ForexState}, Settled s → (∀ event ∈ events, NoCxdrQuoted event ∧ InTime event) →
      Settled (run s events) ∧ ∀ lifetime day,
        accepted s.answered lifetime day <+: accepted (run s events).answered lifetime day := by
  induction events with
  | nil => exact fun h _ => ⟨h, fun _ _ => List.prefix_rfl⟩
  | cons event events ih =>
      intro s h hevents
      obtain ⟨hcxdr, htime⟩ := hevents event List.mem_cons_self
      obtain ⟨hsettled, hgrows⟩ := ih (settled_step h hcxdr htime)
        fun e he => hevents e (List.mem_cons_of_mem _ he)
      exact ⟨hsettled, fun lifetime day => (h.accepted_grows event lifetime day).trans
        (hgrows lifetime day)⟩

omit [Calendar] in
/-- More accepted answers leave no day with fewer sources. -/
theorem Quorate.mono {answered more : List SourceAnswer} {day : ℕ}
    (h : Quorate answered day) (hgrows : ∀ lifetime,
      accepted answered lifetime day <+: accepted more lifetime day) : Quorate more day := by
  obtain ⟨lifetime, hbasket⟩ := h
  refine ⟨lifetime, fun symbol hsymbol => (hbasket symbol hsymbol).trans ?_⟩
  apply Finset.card_le_card
  intro source hsource
  rw [accepted_sources, List.mem_toFinset] at hsource ⊢
  exact ((hgrows lifetime).sublist.filter _ |>.map _).subset hsource

/-! ## What is served

The invariant, together with the lookup of `ForexLookup.lean`. The computed rate has the count
of the scarcest currency of the basket, so its threshold is met exactly when every currency
meets it. -/

namespace Settled

variable {s : ForexState}

omit [Calendar] in
/-- An entry stands for at least so many rates when it did in some lifetime. -/
theorem le_received_iff (h : Settled s) (day : ℕ) {symbol : String} (husd : symbol ≠ USD)
    (n : WithBot ℕ) :
    n ≤ received (s.forex_store.entry day symbol) ↔ ∃ lifetime,
      n ≤ received ((gathered s.answered lifetime day).get_rates_map symbol) := by
  obtain ⟨⟨best, hbest⟩, hbound⟩ := h.stored day symbol husd
  constructor
  · intro hle
    exact ⟨best, hle.trans_eq hbest.symm⟩
  · rintro ⟨lifetime, hle⟩
    exact hle.trans (hbound ⟨lifetime, rfl⟩)

omit [Calendar] in
/-- There is an entry when some accepted answer quotes the symbol. In whichever lifetime it was
accepted: an upgrade empties the collector, and the store keeps what it has. -/
theorem entry_ne_none_iff (h : Settled s) (day : ℕ) {symbol : String} (husd : symbol ≠ USD)
    (hcxdr : symbol ≠ COMPUTED_XDR_SYMBOL) :
    s.forex_store.entry day symbol ≠ none ↔ ∃ lifetime, ∃ result ∈ accepted s.answered lifetime day,
      ∃ quoted ∈ result.rates.symbols, OneDayRatesCollector.collected_symbol quoted = symbol := by
  have hlifetime : ∀ lifetime,
      received ((gathered s.answered lifetime day).get_rates_map symbol) ≠ ⊥
        ↔ ∃ result ∈ accepted s.answered lifetime day, ∃ quoted ∈ result.rates.symbols,
            OneDayRatesCollector.collected_symbol quoted = symbol := by
    intro lifetime
    rw [OneDayRatesCollector.received_get_rates_map _ husd hcxdr, ne_eq,
      OneDayRatesCollector.level_eq_bot_iff, gathered,
      OneDayRatesCollector.rates_update_all_eq_none_iff]
    simp [OneDayRatesCollector.new]
  -- the stored count is the greatest of those of all lifetimes, and attained by one
  obtain ⟨⟨best, hbest⟩, hbound⟩ := h.stored day symbol husd
  rw [ne_eq, ← received_eq_bot_iff]
  constructor
  · intro hsome
    refine ⟨best, (hlifetime best).mp fun hnone => hsome ?_⟩
    rw [← hbest]
    exact hnone
  · rintro ⟨lifetime, hquoted⟩ hnone
    have hle := hbound ⟨lifetime, rfl⟩
    rw [hnone, le_bot_iff] at hle
    exact (hlifetime lifetime).mpr hquoted hle

omit [Calendar] in
/-- **The days with enough sources** are those the sources agreed on. The code looks at the count
of the XDR entry, which is the least of the counts of the four currencies in the basket. That all
four reach the threshold in one lifetime of the collector is what makes a quorum. -/
theorem sourced_iff (h : Settled s) (day : ℕ) :
    s.forex_store.Sourced day ↔ Quorate s.answered day := by
  have hpos : 0 < MIN_SOURCES_TO_REPORT := by
    unfold MIN_SOURCES_TO_REPORT
    split <;> decide
  -- a day is searched for by the count of its XDR entry; no entry counts as none
  have hentry : s.forex_store.Sourced day ↔ WithBot.some MIN_SOURCES_TO_REPORT
      ≤ received (s.forex_store.entry day COMPUTED_XDR_SYMBOL) := by
    unfold ForexRateStore.Sourced ForexRateStore.entry
    cases hrates : s.forex_store.rates day with
    | none => simp [received]
    | some rates =>
        rw [Option.bind_some]
        cases hcxdr : rates COMPUTED_XDR_SYMBOL with
        | none => simp [received, hcxdr]
        | some cxdr => simp [received, hcxdr]
  rw [hentry, h.le_received_iff day (by decide)]
  apply exists_congr
  intro lifetime
  have hcard : ∀ symbol, symbol ≠ "XDR" → symbol ≠ "SDR" →
      (accepted_sources s.answered lifetime day symbol).card
        = (gathered s.answered lifetime day).count symbol :=
    fun symbol => card_accepted_sources (h.sound lifetime) day
  -- the least of four counts reaches the threshold when all four do
  rw [OneDayRatesCollector.received_get_rates_map_cxdr (gathered_cxdr h.quoting lifetime day),
    le_inf_iff, le_inf_iff, le_inf_iff, OneDayRatesCollector.le_level_iff hpos,
    OneDayRatesCollector.le_level_iff hpos, OneDayRatesCollector.le_level_iff hpos,
    OneDayRatesCollector.le_level_iff hpos]
  simp [OneDayRatesCollector.basket, hcard, and_assoc]

omit [Calendar] in
/-- **The currencies of such a day** are those some accepted answer quotes. The dollar is never
stored and always there, the XDR rate is there because the day has enough sources, and every other
currency has an entry exactly when some source quoted it. -/
theorem present_iff (h : Settled s) {day : ℕ} {rates : ForexMultiRateMap}
    (hrates : s.forex_store.rates day = some rates) (hquorate : Quorate s.answered day)
    (symbol : String) : ForexRateStore.Present rates symbol ↔ RatedOn s.answered day symbol := by
  unfold ForexRateStore.Present RatedOn
  by_cases husd : symbol = USD
  · exact iff_of_true (fun hne => absurd husd hne) (Or.inl husd)
  by_cases hcxdr : symbol = COMPUTED_XDR_SYMBOL
  · obtain ⟨rates', cxdr, hsame, hentry, -⟩ := (h.sourced_iff day).mpr hquorate
    obtain rfl : rates = rates' := Option.some.inj (hrates.symm.trans hsame)
    refine iff_of_true (fun _ => ?_) (Or.inr (Or.inl hcxdr))
    rw [hcxdr, hentry]
    rfl
  have hentry : (rates symbol).isSome = true ↔ s.forex_store.entry day symbol ≠ none := by
    rw [ForexRateStore.entry, hrates, Option.bind_some, Option.isSome_iff_ne_none]
  rw [hentry, h.entry_ne_none_iff day husd hcxdr]
  simp only [husd, hcxdr, false_or, ne_eq, not_false_eq_true, true_imp_iff]

omit [Calendar] in
theorem latestQuorate_iff (h : Settled s) {requested day : ℕ} :
    LatestQuorate s.answered requested day
      ↔ ∃ rates, s.forex_store.LatestDay requested day rates := by
  have hdays : { day | day ∈ ForexRateStore.lookup_days requested ∧ Quorate s.answered day }
      = { day | day ∈ ForexRateStore.lookup_days requested ∧ s.forex_store.Sourced day } := by
    ext day
    exact and_congr_right fun _ => (h.sourced_iff day).symm
  unfold LatestQuorate ForexRateStore.LatestDay
  rw [hdays]
  constructor
  · intro hgreatest
    obtain ⟨rates, -, hrates, -⟩ := hgreatest.1.2
    exact ⟨rates, hgreatest, hrates⟩
  · rintro ⟨rates, hgreatest, -⟩
    exact hgreatest

section Lookup

variable [Unicode] (requested current : ℕ) {base_asset quote_asset : String}

omit [Calendar] in
/-- A lookup that succeeds. It finds the latest day with enough sources, and then both currencies
have to be there on this one day; an older day is not tried. -/
theorem get_ok_iff (h : Settled s) (hne : to_uppercase base_asset ≠ to_uppercase quote_asset) :
    (∃ rate, s.forex_store.get requested current base_asset quote_asset = .ok rate)
      ↔ ∃ day, LatestQuorate s.answered (ForexRateStore.shifted_timestamp requested current) day
        ∧ RatedOn s.answered day (to_uppercase base_asset)
        ∧ RatedOn s.answered day (to_uppercase quote_asset) := by
  have hpresent : ∀ {day rates}, s.forex_store.LatestDay
      (ForexRateStore.shifted_timestamp requested current) day rates → ∀ symbol,
        ForexRateStore.Present rates symbol ↔ RatedOn s.answered day symbol := by
    intro day rates hlatest
    exact h.present_iff hlatest.2 ((h.sourced_iff day).mp hlatest.1.1.2)
  constructor
  · rintro ⟨rate, hget⟩
    rcases s.forex_store.noSourcedDay_or_latestDay
      (ForexRateStore.shifted_timestamp requested current) with hno | ⟨day, rates, hlatest⟩
    · rw [ForexRateStore.get_of_noSourcedDay hne hno] at hget
      cases hget
    · have hanswer := ForexRateStore.get_of_latestDay hne hlatest
      rw [hget] at hanswer
      refine ⟨day, h.latestQuorate_iff.mpr ⟨rates, hlatest⟩, ?_⟩
      rw [← hpresent hlatest, ← hpresent hlatest]
      -- each of the other three cases is an error
      by_cases hbase : ForexRateStore.Present rates (to_uppercase base_asset)
      · refine ⟨hbase, ?_⟩
        by_contra hquote
        exact nomatch hanswer.quote_missing hbase hquote
      · by_cases hquote : ForexRateStore.Present rates (to_uppercase quote_asset)
        · exact nomatch hanswer.base_missing hbase hquote
        · exact nomatch hanswer.both_missing hbase hquote
  · rintro ⟨day, hquorate, hbase, hquote⟩
    obtain ⟨rates, hlatest⟩ := h.latestQuorate_iff.mp hquorate
    obtain ⟨rate, -, hok⟩ := (ForexRateStore.get_of_latestDay hne hlatest).found
      ((hpresent hlatest _).mpr hbase) ((hpresent hlatest _).mpr hquote)
    exact ⟨rate, hok⟩

omit [Calendar] in
/-- A lookup that fails for its timestamp. On a day that is found, other errors are given for
currencies that are missing. -/
theorem get_invalid_timestamp_iff (h : Settled s)
    (hne : to_uppercase base_asset ≠ to_uppercase quote_asset) :
    s.forex_store.get requested current base_asset quote_asset
        = .error (.InvalidTimestamp (ForexRateStore.shifted_timestamp requested current))
      ↔ ∀ day ∈ ForexRateStore.lookup_days
            (ForexRateStore.shifted_timestamp requested current), ¬ Quorate s.answered day := by
  constructor
  · intro hget
    rcases s.forex_store.noSourcedDay_or_latestDay
      (ForexRateStore.shifted_timestamp requested current) with hno | ⟨day, rates, hlatest⟩
    · exact fun day hday hquorate => hno day hday ((h.sourced_iff day).mpr hquorate)
    · -- on a day with enough sources the answer is a rate, or another error
      have hanswer := ForexRateStore.get_of_latestDay hne hlatest
      rw [hget] at hanswer
      by_cases hbase : ForexRateStore.Present rates (to_uppercase base_asset) <;>
        by_cases hquote : ForexRateStore.Present rates (to_uppercase quote_asset)
      · obtain ⟨_, -, hok⟩ := hanswer.found hbase hquote
        exact nomatch hok
      · exact nomatch hanswer.quote_missing hbase hquote
      · exact nomatch hanswer.base_missing hbase hquote
      · exact nomatch hanswer.both_missing hbase hquote
  · intro hnone
    apply ForexRateStore.get_of_noSourcedDay hne
    exact fun day hday hsourced => hnone day hday ((h.sourced_iff day).mp hsourced)

end Lookup

end Settled

variable [Unicode]

/-- **Which forex requests are served.** In every run of the forex update, with any answers,
heartbeat times in range and upgrades, in which no source quotes the computed symbol: two
different assets are served exactly when, on the latest of the days that may be asked for which
enough sources agree, both have a rate; a request fails for its timestamp exactly when there is no
such day; and whatever happens afterwards, a day keeps its sources.

The sources are counted for each of the four currencies by themselves: enough of them must have
quoted each one, not the same ones all four. The stored XDR rate has the smallest of the four
counts, of the lifetime in which that was greatest (`Settled.stored`), so its threshold is met
exactly when all four are. -/
theorem served_iff_quorate (events : List ForexEvent)
    (hevents : ∀ event ∈ events, NoCxdrQuoted event ∧ InTime event) :
    (∀ requested current base_asset quote_asset,
      to_uppercase base_asset ≠ to_uppercase quote_asset →
        ((∃ rate, (run ForexState.new events).forex_store.get requested current base_asset
              quote_asset = .ok rate)
          ↔ ∃ day, LatestQuorate (run ForexState.new events).answered
                (ForexRateStore.shifted_timestamp requested current) day
              ∧ RatedOn (run ForexState.new events).answered day (to_uppercase base_asset)
              ∧ RatedOn (run ForexState.new events).answered day (to_uppercase quote_asset))
        ∧ ((run ForexState.new events).forex_store.get requested current base_asset quote_asset
              = .error (.InvalidTimestamp (ForexRateStore.shifted_timestamp requested current))
          ↔ ∀ day ∈ ForexRateStore.lookup_days
                (ForexRateStore.shifted_timestamp requested current),
              ¬ Quorate (run ForexState.new events).answered day))
      ∧ ∀ later : List ForexEvent, (∀ event ∈ later, NoCxdrQuoted event ∧ InTime event) →
          ∀ day, Quorate (run ForexState.new events).answered day →
            Quorate (run ForexState.new (events ++ later)).answered day := by
  obtain ⟨hsettled, -⟩ := settled_run events settled_new hevents
  refine ⟨fun requested current base_asset quote_asset hne => ?_, fun later hlater day hday => ?_⟩
  · exact ⟨hsettled.get_ok_iff requested current hne,
      hsettled.get_invalid_timestamp_iff requested current hne⟩
  · rw [run, List.foldl_append]
    exact hday.mono fun lifetime => (settled_run later hsettled hlater).2 lifetime day

end Runs

/-- An update whose two reachable sources quote the basket, and an upgrade after it: the euro is
served from the day they were asked for, which keeps its sources over the upgrade. -/
theorem euro_served_after_upgrade :
    letI := defaultBuild
    letI := weekdays
    letI := asciiUnicode
    let events : List ForexEvent :=
      [.heartbeat 1_700_000_000, .answers fun _ => some basketQuotes]
    ∃ day, LatestQuorate (run ForexState.new events).answered 1_699_833_600 day
      ∧ Quorate (run ForexState.new (events ++ [.upgraded])).answered day := by
  let _ := defaultBuild
  let _ := weekdays
  let _ := asciiUnicode
  intro events
  have hevents : ∀ event ∈ events, NoCxdrQuoted event ∧ InTime event := by
    intro event hevent
    rcases List.mem_cons.mp hevent with rfl | hevent
    · exact ⟨trivial, by decide, by decide⟩
    · rw [List.mem_singleton.mp hevent]
      refine ⟨?_, trivial⟩
      intro forex rates hrates
      rw [← Option.some.inj hrates]
      decide
  obtain ⟨rate, hrate⟩ : ∃ rate, (run ForexState.new events).forex_store.get 1_699_833_600
      1_700_000_000 "EUR" "USD" = .ok rate := by
    have hok : ((run ForexState.new events).forex_store.get 1_699_833_600 1_700_000_000
        "EUR" "USD").isOk = true := by decide +kernel
    revert hok
    cases (run ForexState.new events).forex_store.get 1_699_833_600 1_700_000_000 "EUR" "USD" with
    | ok rate => exact fun _ => ⟨rate, rfl⟩
    | error e =>
        intro h
        cases h
  obtain ⟨hserved, hkept⟩ := served_iff_quorate events hevents
  obtain ⟨day, hlatest, -⟩ := (hserved 1_699_833_600 1_700_000_000 "EUR" "USD" (by decide)).1.mp
    ⟨rate, hrate⟩
  have hshifted : ForexRateStore.shifted_timestamp 1_699_833_600 1_700_000_000 = 1_699_833_600 := by
    decide
  rw [hshifted] at hlatest
  refine ⟨day, hlatest, hkept [.upgraded] ?_ day hlatest.1.2⟩
  intro event hevent
  rw [List.mem_singleton.mp hevent]
  exact ⟨trivial, trivial⟩

end periodic

end Xrc
