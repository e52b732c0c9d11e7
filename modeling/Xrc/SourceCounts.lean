/-
The counts in the forex store are counts of sources. Over every run of the forex update,
from an empty store on, with any answers, heartbeat times and upgrades, a stored XDR
rate that claims `n` sources is backed by `n` sources that quoted each currency of the
basket, within one lifetime of the collector.

Nothing the code checks says so directly: the collector appends whatever it is given, and
`put` merges entry by entry. What carries it is the check before a source is called,
`check_forex_status`, and that no other update runs until its answer is in. The invariant
is `Consistent`: the counts of the collector (`Counted`), the calls under way
(`Uncollected`) and the stored days (`Backed`).
-/
import Xrc.Periodic
import Mathlib.Data.Finset.Card

set_option autoImplicit false

namespace Xrc.periodic

open ForexRateStore OneDayRatesCollector

/-! ## The invariant

The ghost `answered` keeps every answer, with the lifetime of the collector it went to. A count
that is collected or stored has to be explained by it: as many sources as the count says have
quoted the symbol for the day, in one lifetime. `Consistent` says so of the collector, of the
store and of the update under way. -/

/-- The sources whose answers for a day, in one lifetime, quoted a symbol. -/
def sources_quoting (answered : List SourceAnswer) (lifetime timestamp : ℕ) (symbol : String) :
    Finset String :=
  ((answered.filter fun a => decide (a.lifetime = lifetime ∧ a.timestamp = timestamp
    ∧ symbol ∈ a.rates.symbols)).map SourceAnswer.source).toFinset

theorem mem_sources_quoting {answered : List SourceAnswer} {lifetime timestamp : ℕ}
    {symbol source : String} :
    source ∈ sources_quoting answered lifetime timestamp symbol ↔
      ∃ a ∈ answered, a.lifetime = lifetime ∧ a.timestamp = timestamp
        ∧ symbol ∈ a.rates.symbols ∧ a.source = source := by
  simp only [sources_quoting, List.mem_toFinset, List.mem_map, List.mem_filter,
    decide_eq_true_eq, and_assoc]

/-- Answers are only ever added. -/
theorem sources_quoting_mono {answered more : List SourceAnswer} (h : answered ⊆ more)
    (lifetime timestamp : ℕ) (symbol : String) :
    sources_quoting answered lifetime timestamp symbol
      ⊆ sources_quoting more lifetime timestamp symbol := by
  intro source hsource
  obtain ⟨a, ha, hrest⟩ := mem_sources_quoting.mp hsource
  exact mem_sources_quoting.mpr ⟨a, h ha, hrest⟩

/-- Every rate collected for a symbol is from a source of its own, which quoted it. The two
symbols are left out because they stand for one asset, whose rates may come from one source twice.
-/
def Counted (answered : List SourceAnswer) (lifetime : ℕ) (odc : OneDayRatesCollector) : Prop :=
  ∀ symbol, symbol ≠ "XDR" → symbol ≠ "SDR" →
    ∃ S : Finset String, S ⊆ odc.sources
      ∧ S ⊆ sources_quoting answered lifetime odc.timestamp symbol ∧ S.card = odc.count symbol

/-- What holds of the collector, given the answers so far. -/
structure Collected (answered : List SourceAnswer) (lifetime : ℕ)
    (collector : ForexRatesCollector) : Prop where
  nodup : collector.get_timestamps.Nodup
  counted : ∀ odc ∈ collector.days, Counted answered lifetime odc
  no_cxdr : ∀ odc ∈ collector.days, odc.rates COMPUTED_XDR_SYMBOL = none

/-- Nothing has been collected yet from the sources of these answers, for their days. The schedule
guarantees it: a source is not asked for a day that it has answered. -/
structure Uncollected (collector : ForexRatesCollector) (answers : List (String × ℕ)) : Prop where
  nodup : (answers.map Prod.fst).Nodup
  aligned : ∀ a ∈ answers, start_of_day a.2 = a.2
  fresh : ∀ a ∈ answers, ∀ odc ∈ collector.days, odc.timestamp = a.2 → a.1 ∉ odc.sources

/-- As many sources as a stored day claims for its XDR rate quoted each currency of the
basket, and these are stored with no smaller counts. -/
def Backed (answered : List SourceAnswer) (day : ℕ) (rates : ForexMultiRateMap) : Prop :=
  ∀ cxdr, rates COMPUTED_XDR_SYMBOL = some cxdr →
    ∃ lifetime, ∀ symbol ∈ basket,
      cxdr.base_asset_num_received_rates
          ≤ (sources_quoting answered lifetime day symbol).card
        ∧ ∃ rate, rates symbol = some rate
            ∧ cxdr.base_asset_num_received_rates ≤ rate.base_asset_num_received_rates

/-- The invariant of the forex update. The middle part is what makes the counts into numbers of
sources: an update under way has asked no source for a day that its answers are already collected
for. -/
structure Consistent (s : ForexState) : Prop where
  collected : Collected s.answered s.lifetime s.collector
  calls : ∀ timestamp called, s.updating = some (timestamp, called) →
    Uncollected s.collector (called.map fun p => (p.1.to_string, p.2))
  stored : ∀ day rates, s.forex_store.rates day = some rates → Backed s.answered day rates

theorem Counted.mono {answered more : List SourceAnswer} {lifetime : ℕ}
    {odc : OneDayRatesCollector} (h : answered ⊆ more) (hcounted : Counted answered lifetime odc) :
    Counted more lifetime odc := by
  intro symbol hxdr hsdr
  obtain ⟨S, hsources, hquoting, hcard⟩ := hcounted symbol hxdr hsdr
  exact ⟨S, hsources, hquoting.trans (sources_quoting_mono h _ _ _), hcard⟩

theorem Backed.mono {answered more : List SourceAnswer} {day : ℕ} {rates : ForexMultiRateMap}
    (h : answered ⊆ more) (hbacked : Backed answered day rates) : Backed more day rates := by
  intro cxdr hcxdr
  obtain ⟨lifetime, hbasket⟩ := hbacked cxdr hcxdr
  refine ⟨lifetime, fun symbol hsymbol => ?_⟩
  obtain ⟨hle, hstored⟩ := hbasket symbol hsymbol
  exact ⟨hle.trans (Finset.card_le_card (sources_quoting_mono h _ _ _)), hstored⟩

/-! ## Collecting one answer

A source is called for a day only if nothing was collected from it for this day, and it is
called once. So its answer adds to every count just as much as to the set of the sources behind
it. -/

theorem counted_new (answered : List SourceAnswer) (lifetime timestamp : ℕ) :
    Counted answered lifetime (OneDayRatesCollector.new timestamp) := by
  intro symbol _ _
  exact ⟨∅, Finset.empty_subset _, Finset.empty_subset _, rfl⟩

/-- **One answer keeps the counts**, when nothing was collected from its source before:
the source joins those behind every symbol it quotes. -/
theorem counted_update {answered : List SourceAnswer} {lifetime : ℕ}
    {odc : OneDayRatesCollector} (source : String) (rates : ForexRateMap)
    (hcounted : Counted answered lifetime odc) (hfresh : source ∉ odc.sources) :
    Counted (answered ++ [⟨lifetime, source, odc.timestamp, rates⟩]) lifetime
      (odc.update source rates) := by
  intro symbol hxdr hsdr
  obtain ⟨S, hsources, hquoting, hcard⟩ := hcounted symbol hxdr hsdr
  have hmono := sources_quoting_mono
    (List.subset_append_left answered [⟨lifetime, source, odc.timestamp, rates⟩])
    lifetime odc.timestamp symbol
  rw [update_timestamp, count_update odc source rates hxdr hsdr]
  by_cases hquoted : symbol ∈ rates.symbols
  · -- the source is new among those that quote it
    rw [if_pos hquoted]
    refine ⟨insert source S, ?_, ?_, ?_⟩
    · exact Finset.insert_subset (mem_sources_update odc source hquoted)
        (hsources.trans (sources_subset_update odc source rates))
    · refine Finset.insert_subset ?_ (hquoting.trans hmono)
      exact mem_sources_quoting.mpr ⟨_, List.mem_append_right _ (List.mem_singleton_self _),
        rfl, rfl, hquoted, rfl⟩
    · rw [Finset.card_insert_of_notMem fun h => hfresh (hsources h), hcard]
  · -- the count of a symbol it does not quote stays, with the sources behind it
    rw [if_neg hquoted]
    exact ⟨S, hsources.trans (sources_subset_update odc source rates), hquoting.trans hmono,
      hcard⟩

/-- A source that does not quote the computed symbol leaves it uncollected. -/
theorem no_cxdr_update {odc : OneDayRatesCollector} (source : String) {rates : ForexRateMap}
    (hodc : odc.rates COMPUTED_XDR_SYMBOL = none) (hquoted : COMPUTED_XDR_SYMBOL ∉ rates.symbols) :
    (odc.update source rates).rates COMPUTED_XDR_SYMBOL = none := by
  unfold OneDayRatesCollector.update
  split
  · exact hodc
  · show rates.entries.foldl push_rate odc.rates COMPUTED_XDR_SYMBOL = none
    rw [foldl_push_rate_of_notMem rates.entries odc.rates, hodc]
    intro entry hentry hsymbol
    -- a symbol is only renamed to the canonical one of the XDR
    unfold collected_symbol at hsymbol
    split at hsymbol
    · exact absurd hsymbol (by decide)
    · exact hquoted (hsymbol ▸ List.mem_map_of_mem hentry)

/-- **One round of the first loop.** The collector keeps its invariant, and the answers
that are left stay uncollected. -/
theorem collect_step_spec {answered : List SourceAnswer} {lifetime : ℕ}
    {collector : ForexRatesCollector} {source : String} {day : ℕ} {rates : ForexRateMap}
    {rest : List (String × ℕ)} (hcollected : Collected answered lifetime collector)
    (hpending : Uncollected collector ((source, day) :: rest))
    (hcxdr : COMPUTED_XDR_SYMBOL ∉ rates.symbols) :
    Collected (answered ++ [⟨lifetime, source, day, rates⟩]) lifetime
        (collector.update source day rates).1
      ∧ Uncollected (collector.update source day rates).1 rest := by
  have hday : start_of_day day = day := hpending.aligned (source, day) List.mem_cons_self
  have hnodup := hpending.nodup
  rw [List.map_cons, List.nodup_cons] at hnodup
  constructor
  · refine ⟨ForexRatesCollector.nodup_timestamps_update source day rates hcollected.nodup,
      fun odc hodc => ?_, fun odc hodc => ?_⟩
    · -- an old day, the day of the answer, or a new day with nothing but the answer
      rcases ForexRatesCollector.mem_days_update hodc with hold | ⟨old, hold, htime, rfl⟩ |
        ⟨-, rfl⟩
      · exact (hcollected.counted odc hold).mono (List.subset_append_left _ _)
      · rw [hday] at htime
        subst htime
        exact counted_update source rates (hcollected.counted old hold)
          (hpending.fresh (source, old.timestamp) List.mem_cons_self old hold rfl)
      · have hnew := counted_update source rates
          (counted_new answered lifetime (start_of_day day)) (Finset.notMem_empty source)
        rwa [show (OneDayRatesCollector.new (start_of_day day)).timestamp = day from hday] at hnew
    · rcases ForexRatesCollector.mem_days_update hodc with hold | ⟨old, hold, -, rfl⟩ | ⟨-, rfl⟩
      · exact hcollected.no_cxdr odc hold
      · exact no_cxdr_update source (hcollected.no_cxdr old hold) hcxdr
      · exact no_cxdr_update source rfl hcxdr
  · -- the sources of the answers that are left differ from this one
    refine ⟨hnodup.2, fun a ha => hpending.aligned a (List.mem_cons_of_mem _ ha), ?_⟩
    intro a ha odc hodc htime hsource
    have hne : a.1 ≠ source := fun h => hnodup.1 (List.mem_map.mpr ⟨a, ha, h⟩)
    rcases ForexRatesCollector.mem_days_update hodc with hold | ⟨old, hold, hold_time, rfl⟩ |
      ⟨-, rfl⟩
    · exact hpending.fresh a (List.mem_cons_of_mem _ ha) odc hold htime hsource
    · rw [update_timestamp] at htime
      rcases Finset.mem_insert.mp (sources_update_subset old source rates hsource) with h | h
      · exact hne h
      · exact hpending.fresh a (List.mem_cons_of_mem _ ha) old hold htime h
    · rcases Finset.mem_insert.mp (sources_update_subset _ source rates hsource) with h | h
      · exact hne h
      · exact absurd h (Finset.notMem_empty _)

/-- The first loop, over all answers: the collector keeps its invariant and every day to
store is the beginning of a day. -/
theorem collect_spec {lifetime : ℕ} :
    ∀ (answers : List (String × ℕ × ForexRateMap)) (answered : List SourceAnswer)
      (acc : ForexRatesCollector × List ℕ), Collected answered lifetime acc.1 →
      Uncollected acc.1 (answers.map fun a => (a.1, a.2.1)) →
      (∀ a ∈ answers, COMPUTED_XDR_SYMBOL ∉ a.2.2.symbols) →
      (∀ day ∈ acc.2, start_of_day day = day) →
        Collected (answered ++ answers.map fun a => ⟨lifetime, a.1, a.2.1, a.2.2⟩) lifetime
            (answers.foldl collect_step acc).1
          ∧ ∀ day ∈ (answers.foldl collect_step acc).2, start_of_day day = day := by
  intro answers
  induction answers with
  | nil =>
      intro answered acc hcollected _ _ hdays
      rw [List.map_nil, List.append_nil]
      exact ⟨hcollected, hdays⟩
  | cons a answers ih =>
      intro answered acc hcollected hpending hcxdr hdays
      -- the step lemma moves the head from the pending answers to the collected ones
      obtain ⟨hnext, hrest⟩ := collect_step_spec hcollected hpending
        (hcxdr a List.mem_cons_self)
      have hstep := ih (answered ++ [⟨lifetime, a.1, a.2.1, a.2.2⟩]) (collect_step acc a) hnext
        hrest (fun b hb => hcxdr b (List.mem_cons_of_mem _ hb)) ?_
      · rw [List.append_assoc] at hstep
        exact hstep
      · -- a day joins the list under the timestamp its source was called for
        intro day hday
        unfold collect_step at hday
        dsimp only at hday
        split at hday
        · rcases List.mem_append.mp hday with hold | hnew
          · exact hdays day hold
          · rw [List.mem_singleton.mp hnew]
            exact hpending.aligned (a.1, a.2.1) List.mem_cons_self
        · exact hdays day hday

/-! ## Storing a day

The store merges entry by entry, and so may keep currencies of one update and the computed rate
of another. What saves the count of the computed rate is that it is never larger than those of
its currencies, neither in the collector nor after a merge. -/

/-- What the collector has for a day is backed by the answers. The number of rates of a symbol is
that of the sources they are from, and these have quoted it for the day. -/
theorem backed_of_collected [Features] {answered : List SourceAnswer} {lifetime : ℕ}
    {collector : ForexRatesCollector} (hcollected : Collected answered lifetime collector)
    {day : ℕ} {rates : ForexMultiRateMap} (h : collector.get_rates_map day = some rates) :
    Backed answered day rates := by
  obtain ⟨odc, hfind, rfl⟩ := Option.map_eq_some_iff.mp h
  have hodc := List.mem_of_find?_eq_some hfind
  have htime : odc.timestamp = day := by simpa using List.find?_some hfind
  intro cxdr hcxdr
  refine ⟨lifetime, fun symbol hsymbol => ?_⟩
  obtain ⟨hle, rate, hrate, hreceived⟩ :=
    received_cxdr (hcollected.no_cxdr odc hodc) hcxdr symbol hsymbol
  -- none of the four currencies of the basket is a name of the XDR
  have hxdr : symbol ≠ "XDR" := by
    rintro rfl
    exact absurd hsymbol (by decide)
  have hsdr : symbol ≠ "SDR" := by
    rintro rfl
    exact absurd hsymbol (by decide)
  obtain ⟨S, -, hquoting, hcard⟩ := hcollected.counted odc hodc symbol hxdr hsdr
  have hcardle := Finset.card_le_card hquoting
  rw [htime] at hcardle
  exact ⟨by omega, rate, hrate, by omega⟩

/-- **Merging keeps a day backed**: the XDR rate that wins brings its own basket along,
and no stored count ever shrinks. -/
theorem backed_merge {answered : List SourceAnswer} {day : ℕ} {old : Option ForexMultiRateMap}
    {new : ForexMultiRateMap} (hold : ∀ rates, old = some rates → Backed answered day rates)
    (hnew : Backed answered day new) :
    Backed answered day fun symbol => merge_entry (old.bind (· symbol)) (new symbol) := by
  intro cxdr hcxdr
  -- the XDR entry is the old one or the new one, and brings its sources with it
  rcases (merge_entry_spec hcxdr).1 with hfrom | hfrom
  · obtain ⟨rates, rfl, hrates⟩ := Option.bind_eq_some_iff.mp hfrom
    obtain ⟨lifetime, hbasket⟩ := hold rates rfl cxdr hrates
    refine ⟨lifetime, fun symbol hsymbol => ?_⟩
    obtain ⟨hle, rate, hrate, hcount⟩ := hbasket symbol hsymbol
    obtain ⟨rate', hmerged, hmore⟩ := exists_merge_entry ((some rates).bind (· symbol))
      (new symbol) (Or.inl hrate)
    exact ⟨hle, rate', hmerged, hcount.trans hmore⟩
  · obtain ⟨lifetime, hbasket⟩ := hnew cxdr hfrom
    refine ⟨lifetime, fun symbol hsymbol => ?_⟩
    obtain ⟨hle, rate, hrate, hcount⟩ := hbasket symbol hsymbol
    obtain ⟨rate', hmerged, hmore⟩ := exists_merge_entry (old.bind (· symbol))
      (new symbol) (Or.inr hrate)
    exact ⟨hle, rate', hmerged, hcount.trans hmore⟩

/-- Dropping the USD entry does not matter for the basket. -/
theorem backed_update_usd {answered : List SourceAnswer} {day : ℕ} {rates : ForexMultiRateMap}
    (h : Backed answered day rates) : Backed answered day (Function.update rates USD none) := by
  intro cxdr hcxdr
  rw [Function.update_of_ne (by decide)] at hcxdr
  obtain ⟨lifetime, hbasket⟩ := h cxdr hcxdr
  refine ⟨lifetime, fun symbol hsymbol => ?_⟩
  have husd : symbol ≠ USD := by
    rintro rfl
    exact absurd hsymbol (by decide)
  rw [Function.update_of_ne husd]
  exact hbasket symbol hsymbol

/-- **The second loop keeps every stored day backed.** A day is merged from what was stored before
and what the collector has, entry by entry, and of two entries the one with more sources is taken;
both are backed. -/
theorem store_spec [Features] {answered : List SourceAnswer} {lifetime : ℕ}
    {collector : ForexRatesCollector} (hcollected : Collected answered lifetime collector) :
    ∀ (days : List ℕ) (store : ForexRateStore), (∀ day ∈ days, start_of_day day = day) →
      (∀ day rates, store.rates day = some rates → Backed answered day rates) →
        ∀ day rates, (days.foldl (store_step collector) store).rates day = some rates →
          Backed answered day rates := by
  intro days
  induction days with
  | nil => exact fun store _ hstored => hstored
  | cons d days ih =>
      intro store haligned hstored
      refine ih (store_step collector store d)
        (fun day hday => haligned day (List.mem_cons_of_mem _ hday)) ?_
      intro day rates hrates
      unfold store_step at hrates
      cases hmap : collector.get_rates_map d with
      | none =>
          rw [hmap] at hrates
          exact hstored day rates hrates
      | some collected =>
          rw [hmap] at hrates
          dsimp only at hrates
          by_cases hday : day = start_of_day d
          · -- the day that is put: merged from two backed ones
            subst hday
            rw [put_rates_self] at hrates
            rw [← Option.some.inj hrates, haligned d List.mem_cons_self]
            refine backed_merge (fun rates h => hstored d rates h) ?_
            exact backed_update_usd (backed_of_collected hcollected hmap)
          · rw [put_rates_of_ne store _ hday] at hrates
            exact hstored day rates hrates

/-! ## Runs

Each event keeps the invariant, a heartbeat because it asks only sources without an answer, the
answers by the two loops, and an upgrade because it opens a new lifetime. -/

section Runs

variable [Features] [Calendar]

/-- The calls of a new update are for sources nothing was collected from. The collector itself is
asked, which knows its sources by name for each of its days. -/
theorem uncollected_start {collector : ForexRatesCollector} (h : collector.get_timestamps.Nodup)
    (timestamp : ℕ) :
    Uncollected collector ((get_forexes_with_timestamps_and_context collector timestamp).map
      fun p => (p.1.to_string, p.2)) := by
  have hcalled : ∀ p ∈ get_forexes_with_timestamps_and_context collector timestamp,
      p.2 = key_timestamp p.1 timestamp ∧ check_forex_status collector p.1 p.2 = .ok () := by
    intro p hp
    obtain ⟨forex, -, hforex⟩ := List.mem_filterMap.mp hp
    split at hforex
    · rename_i hok
      cases hforex
      exact ⟨rfl, hok⟩
    · cases hforex
  refine ⟨?_, ?_, ?_⟩
  · -- each source is called once
    rw [List.map_map, get_forexes_with_timestamps_and_context, List.map_filterMap]
    refine List.Nodup.filterMap ?_ (by decide)
    intro a b name ha hb
    rw [Option.mem_def, Option.map_eq_some_iff] at ha hb
    obtain ⟨pa, hpa, hna⟩ := ha
    obtain ⟨pb, hpb, hnb⟩ := hb
    have hafst : pa.1 = a := by
      split at hpa
      · rw [← Option.some.inj hpa]
      · cases hpa
    have hbfst : pb.1 = b := by
      split at hpb
      · rw [← Option.some.inj hpb]
      · cases hpb
    rw [← hafst, ← hbfst]
    exact Forex.to_string_injective (hna.trans hnb.symm)
  · intro a ha
    obtain ⟨p, hp, rfl⟩ := List.mem_map.mp ha
    rw [(hcalled p hp).1, key_timestamp, start_of_day_start_of_day]
  · -- a source already collected for its day is not called
    intro a ha odc hodc htime hsource
    obtain ⟨p, hp, rfl⟩ := List.mem_map.mp ha
    have hstatus := (hcalled p hp).2
    dsimp only at htime hsource
    unfold check_forex_status at hstatus
    split at hstatus
    · cases hstatus
    · split at hstatus
      · cases hstatus
      · rw [ForexRatesCollector.sources_of_get_sources h hodc htime] at hstatus
        dsimp only at hstatus
        rw [if_pos hsource] at hstatus
        cases hstatus

/-- An event in which no source quotes a symbol of the computed rate's name. The computed rate is
stored under a symbol like any other, and a quote of this name would take its place. -/
def NoCxdrQuoted : ForexEvent → Prop
  | .answers answer => ∀ forex rates, answer forex = some rates →
      COMPUTED_XDR_SYMBOL ∉ rates.symbols
  | _ => True

omit [Features] [Calendar] in
theorem consistent_new : Consistent ForexState.new where
  collected := ⟨List.nodup_nil, fun _ h => absurd h List.not_mem_nil,
    fun _ h => absurd h List.not_mem_nil⟩
  calls := fun _ _ h => nomatch h
  stored := fun _ _ h => nomatch h

omit [Features] [Calendar] in
/-- The answers are those of some of the called sources. They come in the order of the calls, and
those without an answer are left out. -/
theorem forex_rates_sublist (answer : Forex → Option ForexRateMap) (called : List (Forex × ℕ)) :
    ((forex_rates called answer).map fun a => (a.1, a.2.1)).Sublist
      (called.map fun p => (p.1.to_string, p.2)) := by
  unfold forex_rates
  induction called with
  | nil => exact List.Sublist.slnil
  | cons p called ih =>
      rw [List.filterMap_cons, List.map_cons]
      split
      · exact ih.cons _
      · rename_i a ha
        obtain ⟨forex, day⟩ := p
        dsimp only at ha
        split at ha
        · split at ha
          · cases ha
          · cases ha
            exact ih.cons_cons _
        · cases ha

omit [Features] [Calendar] in
/-- A non-empty answer is what its source answered. -/
theorem exists_of_mem_forex_rates {answer : Forex → Option ForexRateMap}
    {called : List (Forex × ℕ)} {a : String × ℕ × ForexRateMap}
    (ha : a ∈ forex_rates called answer) : ∃ forex, answer forex = some a.2.2 := by
  obtain ⟨⟨forex, day⟩, -, hp⟩ := List.mem_filterMap.mp ha
  dsimp only at hp
  split at hp
  · rename_i map hmap
    split at hp
    · cases hp
    · cases hp
      exact ⟨forex, hmap⟩
  · cases hp

omit [Calendar] in
/-- The end of an update keeps the invariant: the first loop collects the answers, and the
second one stores what is backed by them. -/
theorem consistent_finish_update {s : ForexState} (h : Consistent s)
    {answer : Forex → Option ForexRateMap} (hevent : NoCxdrQuoted (.answers answer)) :
    Consistent (finish_update s answer) := by
  unfold finish_update
  cases hupdating : s.updating with
  | none => exact h
  | some update =>
      obtain ⟨timestamp, called⟩ := update
      dsimp only
      have hpending := h.calls timestamp called hupdating
      have hsub := forex_rates_sublist answer called
      -- the answers are for some of the calls, so nothing of them is collected yet
      have hanswers : Uncollected s.collector
          ((forex_rates called answer).map fun a => (a.1, a.2.1)) :=
        ⟨hpending.nodup.sublist (hsub.map _), fun a ha => hpending.aligned a (hsub.subset ha),
          fun a ha => hpending.fresh a (hsub.subset ha)⟩
      have hcxdr : ∀ a ∈ forex_rates called answer, COMPUTED_XDR_SYMBOL ∉ a.2.2.symbols := by
        intro a ha
        obtain ⟨forex, hforex⟩ := exists_of_mem_forex_rates ha
        exact hevent forex a.2.2 hforex
      -- the first loop collects, the second one stores what was collected
      obtain ⟨hcollected, haligned⟩ := collect_spec (forex_rates called answer) s.answered
        (s.collector, []) h.collected hanswers hcxdr (fun _ hd => absurd hd List.not_mem_nil)
      refine ⟨hcollected, fun _ _ hcalled => (nomatch hcalled), ?_⟩
      refine store_spec hcollected _ s.forex_store
        (fun day hday => haligned day (List.mem_dedup.mp hday)) ?_
      exact fun day rates hrates => (h.stored day rates hrates).mono (List.subset_append_left _ _)

/-- **One event keeps the invariant.** The calls that a heartbeat makes have to be fresh: none of
the sources that are asked for a day has been collected for it, so no answer is counted twice. -/
theorem consistent_step {s : ForexState} (h : Consistent s) (event : ForexEvent)
    (hevent : NoCxdrQuoted event) : Consistent (step s event) := by
  cases event with
  | heartbeat timestamp =>
      show Consistent (start_update s timestamp)
      unfold start_update
      split
      · exact h
      · split
        · exact h
        · -- only the calls are new
          refine ⟨h.collected, ?_, h.stored⟩
          intro t called hcalled
          cases hcalled
          exact uncollected_start h.collected.nodup _
  | answers answer => exact consistent_finish_update h hevent
  | upgraded =>
      -- the collector is new and the store stays
      exact ⟨⟨List.nodup_nil, fun _ h => absurd h List.not_mem_nil,
        fun _ h => absurd h List.not_mem_nil⟩, fun _ _ hcalled => (nomatch hcalled), h.stored⟩

/-- **Every run keeps the invariant.** That no source quotes the computed XDR rate is the only
thing asked of the answers, since the collector would take such a quote for its own. -/
theorem consistent_run (events : List ForexEvent) :
    ∀ {s : ForexState}, Consistent s → (∀ event ∈ events, NoCxdrQuoted event) →
      Consistent (run s events) := by
  induction events with
  | nil => exact fun h _ => h
  | cons event events ih =>
      intro s h hevents
      exact ih (consistent_step h event (hevents event List.mem_cons_self))
        fun e he => hevents e (List.mem_cons_of_mem _ he)

/-! ## What is served

A lookup serves a day whose computed rate has enough sources, and that count is one of distinct
sources by the invariant. -/

/-- **Enough distinct sources behind every served day.** Over every run from an empty store in
which no source quotes the computed symbol itself: the count of a stored XDR rate is a number of
distinct sources that quoted each currency of the basket for that day, within one lifetime of the
collector, and no entry of the basket has a smaller count. Hence `get` only serves days that
`MIN_SOURCES_TO_REPORT` sources stand behind.

The invariant, `Consistent`, ties the lists of rates in the collector to the answers it was given,
and the counts of stored entries to a lifetime in which they were collected. Different sources are
counted because an update asks no source for a day that it has answered already. -/
theorem served_days_are_sourced [Unicode] (events : List ForexEvent)
    (hcxdr : ∀ event ∈ events, NoCxdrQuoted event) :
    (∀ day rates cxdr, (run ForexState.new events).forex_store.rates day = some rates →
        rates COMPUTED_XDR_SYMBOL = some cxdr →
          ∃ lifetime, ∀ symbol ∈ basket,
            cxdr.base_asset_num_received_rates
                ≤ (sources_quoting (run ForexState.new events).answered lifetime day symbol).card
              ∧ ∃ rate, rates symbol = some rate
                  ∧ cxdr.base_asset_num_received_rates ≤ rate.base_asset_num_received_rates)
      ∧ ∀ requested current base_asset quote_asset q,
          to_uppercase base_asset ≠ to_uppercase quote_asset →
          (run ForexState.new events).forex_store.get requested current base_asset quote_asset
              = .ok q →
            ∃ day rates, (run ForexState.new events).forex_store.rates day = some rates
              ∧ rate_on_day rates (shifted_timestamp requested current) (to_uppercase base_asset)
                  (to_uppercase quote_asset) = .ok q
              ∧ ∃ lifetime, ∀ symbol ∈ basket, MIN_SOURCES_TO_REPORT
                  ≤ (sources_quoting (run ForexState.new events).answered lifetime day
                      symbol).card := by
  have hconsistent := consistent_run events consistent_new hcxdr
  refine ⟨fun day rates cxdr hday hrate => hconsistent.stored day rates hday cxdr hrate, ?_⟩
  intro requested current base_asset quote_asset q hne hget
  unfold ForexRateStore.get at hget
  dsimp only at hget
  rw [if_neg hne] at hget
  split at hget
  · cases hget
  · rename_i day rates hsearch
    obtain ⟨-, -, -, -, hday, henough⟩ :=
      search_spec (MAX_DAYS_TO_GO_BACK + 1) 0 (by omega) hsearch
    refine ⟨day, rates, hday, hget, ?_⟩
    -- the day was found for the count of its XDR entry, which sources stand behind
    unfold enough_sources at henough
    split at henough
    · cases henough
    · rename_i cxdr hrate
      obtain ⟨lifetime, hbasket⟩ := hconsistent.stored day rates hday cxdr hrate
      refine ⟨lifetime, fun symbol hsymbol => ?_⟩
      exact (of_decide_eq_true henough).trans (hbasket symbol hsymbol).1

end Runs

/-- Quotes for the basket, as one source could answer them. -/
def basketQuotes : ForexRateMap where
  entries := [("CNY", 140_000_000), ("EUR", 1_100_000_000), ("GBP", 1_250_000_000),
    ("JPY", 7_000_000)]
  ascending := by decide

/-- One update in which every called source answers: the two that are reachable over
IPv6 are behind the EUR/USD rate that is served afterwards. -/
theorem served_days_are_sourced_of_two :
    letI := defaultBuild
    letI := weekdays
    letI := asciiUnicode
    let events : List ForexEvent :=
      [.heartbeat 1_700_000_000, .answers fun _ => some basketQuotes]
    ∃ day, ∃ lifetime, ∀ symbol ∈ basket,
      2 ≤ (sources_quoting (run ForexState.new events).answered lifetime day symbol).card := by
  let _ := defaultBuild
  let _ := weekdays
  let _ := asciiUnicode
  intro events
  have hcxdr : ∀ event ∈ events, NoCxdrQuoted event := by
    intro event hevent
    rcases List.mem_cons.mp hevent with rfl | hevent
    · trivial
    · rw [List.mem_singleton.mp hevent]
      intro forex rates hrates
      rw [← Option.some.inj hrates]
      decide
  -- after one round of answers EUR is served
  obtain ⟨q, hq⟩ : ∃ q, (run ForexState.new events).forex_store.get 1_699_833_600 1_700_000_000
      "EUR" "USD" = .ok q := by
    have hok : ((run ForexState.new events).forex_store.get 1_699_833_600 1_700_000_000
        "EUR" "USD").isOk = true := by decide +kernel
    revert hok
    cases (run ForexState.new events).forex_store.get 1_699_833_600 1_700_000_000 "EUR" "USD" with
    | ok q => exact fun _ => ⟨q, rfl⟩
    | error e =>
        intro h
        cases h
  obtain ⟨day, -, -, -, hsourced⟩ := (served_days_are_sourced events hcxdr).2 1_699_833_600
    1_700_000_000 "EUR" "USD" q (by decide) hq
  exact ⟨day, hsourced⟩

end Xrc.periodic
