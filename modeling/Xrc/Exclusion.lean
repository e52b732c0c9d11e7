/-
Ordinary callers exclude each other. A request without a timestamp moves to the previous
minute while its current one is being fetched, and is then only answered from the cache; a
request with one is turned away. So whatever a request registers, no other one has, and since
it fetches nothing but what it has registered, no rate is fetched twice at a time.

`Exclusive` says so of a state of the canister, in terms of the guards that are alive.
-/
import Xrc.Overlap
import Xrc.Terms

set_option autoImplicit false

namespace Xrc

open Async CallExchangesImpl

/-! ## Keys of guards

The statement is about guards, as they stand in the suspended requests, and not about the keys
the invariants speak of. Of the two guards of a request only the outer one has registered
anything. -/

/-- The symbol-timestamp pairs a guard removes when it is dropped. -/
def Guard.keys : Guard → Finset CacheKey
  | .InflightCryptoUsdtRequestsGuard symbols timestamp => inflight_keys symbols timestamp
  | .RateLimitingRequestCounterGuard _ => ∅

/-- The guards that are alive, of all requests. -/
def Canister.guards {L : Type} (c : Canister L) : List Guard := c.tasks.flatMap Task.held

/-- The symbol and the timestamp of a call of `get_cryptocurrency_usdt_rate`. -/
def Call.fetched : Call → Option CacheKey
  | .get_cryptocurrency_usdt_rate _ asset timestamp => some (asset.symbol, timestamp)
  | .get_stablecoin_rates _ _ _ => none

/-- No two guards have registered the same pair, the in-flight set holds what they have registered
and nothing else, and no rate is being fetched by two requests. The third part is about the calls
themselves, and follows from the first for requests that fetch only what they have registered. -/
structure Exclusive {L : Type} (c : Canister L) : Prop where
  disjoint : c.guards.Pairwise fun g g' => Disjoint g.keys g'.keys
  inflight_eq : ∀ k, k ∈ c.state.inflight ↔ ∃ g ∈ c.guards, k ∈ g.keys
  fetched_once : ∀ (i j : ℕ) (task task' : Task L) k,
    c.tasks[i]? = some task → c.tasks[j]? = some task' →
      task.call.fetched = some k → task'.call.fetched = some k → i = j

section Exclusion

variable [Features] [Unicode] {L : Type}

omit [Unicode] in
/-- Of the two guards of a key only one has registered anything. -/
theorem GuardKey.mem_keys_guards {key : GuardKey} {k : CacheKey} :
    (∃ g ∈ key.guards, k ∈ g.keys) ↔ k ∈ key.keys := by
  constructor
  · rintro ⟨g, hg, hk⟩
    rcases List.mem_cons.mp hg with rfl | hg
    · exact hk
    · rw [List.mem_singleton.mp hg] at hk
      exact absurd hk (Finset.notMem_empty k)
  · intro hk
    exact ⟨_, List.mem_cons_self, hk⟩

omit [Unicode] in
theorem GuardKey.keys_subset {key : GuardKey} {g : Guard} (hg : g ∈ key.guards) :
    g.keys ⊆ key.keys := by
  intro k hk
  exact GuardKey.mem_keys_guards.mp ⟨g, hg, hk⟩

omit [Unicode] in
theorem GuardKey.pairwise_guards (key : GuardKey) :
    key.guards.Pairwise fun g g' => Disjoint g.keys g'.keys := by
  apply List.pairwise_pair.mpr
  exact Finset.disjoint_empty_right _

omit [Features] [Unicode] in
/-- What a request fetches is among what it has registered. -/
theorem GuardKey.Asks.fetched_mem {key : GuardKey} {call : Call} (hasks : key.Asks call)
    {k : CacheKey} (hk : call.fetched = some k) : k ∈ key.keys := by
  cases call with
  | get_cryptocurrency_usdt_rate exchanges asset timestamp =>
      rw [← Option.some.inj hk]
      exact mem_inflight_keys.mpr hasks
  | get_stablecoin_rates exchanges symbols timestamp => cases hk

/-- The guards that are alive, by the keys of the requests. -/
theorem Canister.WellFormed.guards_eq {c : Canister L} (hc : c.WellFormed) :
    c.guards = c.active.flatMap GuardKey.guards := by
  rw [Canister.guards, Canister.active, List.flatMap_map]
  apply List.flatMap_congr
  intro task htask
  exact (hc.tasks task htask).held_eq

variable [LruCache L CacheKey QueriedExchangeRate]

/-- The terms that ask for nothing. -/
def unconditional : Terms L where
  answers _ _ := True
  forex_store _ := True
  asked _ := True
  cache _ := True
  rate_of _ _ _ := True
  asked_sanitized _ := trivial
  asked_stablecoin _ _ := trivial
  cache_get _ _ _ := trivial
  cache_insert _ _ _ _ _ _ := trivial
  rate_of_lookup _ _ _ _ _ _ := trivial
  rate_of_crypto _ _ := trivial
  rate_of_stablecoin _ _ _ _ := trivial

/-- Every suspended request asks for what it has registered, now and later. -/
theorem serves_run (s : State L) (events : List Event) :
    ∀ task ∈ (run (Canister.idle s) events).tasks, (unconditional : Terms L).Serves task := by
  have hkept : (unconditional : Terms L).Kept (run (Canister.idle s) events) := by
    apply Terms.kept_run trivial trivial events
    intro event _
    cases event with
    | resume i now_secs answers =>
        intro call
        trivial
    | _ => trivial
  exact hkept.tasks

omit [LruCache L CacheKey QueriedExchangeRate] in
/-- **Exclusion from disjoint keys**: whoever fetches a rate has registered it. Requests whose
keys are disjoint hold disjoint guards, and a rate is only asked for under a guard that names it;
so two requests that wait for one rate would share a pair. -/
theorem exclusive_of_unshared {c : Canister L} (hwf : c.WellFormed)
    (hasks : ∀ task ∈ c.tasks, task.key.Asks task.call) (hunshared : Unshared c)
    (htracked : InflightTracked c)
    (hregistered : ∀ k ∈ c.state.inflight, ∃ key ∈ c.active, k ∈ key.keys) : Exclusive c where
  disjoint := by
    rw [hwf.guards_eq, List.pairwise_flatMap]
    refine ⟨fun key _ => key.pairwise_guards, ?_⟩
    refine List.Pairwise.imp ?_ hunshared
    intro key key' hdisjoint g hg g' hg'
    exact hdisjoint.mono (GuardKey.keys_subset hg) (GuardKey.keys_subset hg')
  inflight_eq := by
    intro k
    rw [hwf.guards_eq]
    constructor
    · intro hk
      obtain ⟨key, hkey, hmem⟩ := hregistered k hk
      obtain ⟨g, hg, hgk⟩ := GuardKey.mem_keys_guards.mpr hmem
      exact ⟨g, List.mem_flatMap.mpr ⟨key, hkey, hg⟩, hgk⟩
    · rintro ⟨g, hg, hgk⟩
      obtain ⟨key, hkey, hg⟩ := List.mem_flatMap.mp hg
      apply inflightTracked_iff_keys.mp htracked key hkey
      exact GuardKey.keys_subset hg hgk
  fetched_once := by
    intro i j task task' k hi hj hcall hcall'
    have hkey := (hasks task (List.mem_of_getElem? hi)).fetched_mem hcall
    have hkey' := (hasks task' (List.mem_of_getElem? hj)).fetched_mem hcall'
    have hi_key : c.active[i]? = some task.key := by
      rw [Canister.active, List.getElem?_map, hi, Option.map_some]
    have hj_key : c.active[j]? = some task'.key := by
      rw [Canister.active, List.getElem?_map, hj, Option.map_some]
    obtain ⟨hi_lt, hi_get⟩ := List.getElem?_eq_some_iff.mp hi_key
    obtain ⟨hj_lt, hj_get⟩ := List.getElem?_eq_some_iff.mp hj_key
    have hdisjoint := List.pairwise_iff_getElem.mp hunshared
    -- both have registered `k`, which disjoint keys do not permit
    by_contra hne
    rcases Nat.lt_or_gt_of_ne hne with hlt | hgt
    · have h := hdisjoint i j hi_lt hj_lt hlt
      rw [hi_get, hj_get] at h
      exact Finset.disjoint_left.mp h hkey hkey'
    · have h := hdisjoint j i hj_lt hi_lt hgt
      rw [hi_get, hj_get] at h
      exact Finset.disjoint_left.mp h hkey' hkey

/-- **No rate is fetched twice at a time**, however the requests of ordinary callers interleave.

An ordinary caller is turned away while a pair of its request is registered, so the guards of the
active requests are disjoint. From this follows that the set is just their union, and that no two
requests await the same fetch. -/
theorem ordinary_callers_exclude (s : State L) (events : List Event)
    (hordinary : ∀ env request, .call env request ∈ events →
      is_caller_privileged env.caller = false) :
    Exclusive (run (Canister.idle s) events) := by
  obtain ⟨hunshared, htracked⟩ := unshared_run s events hordinary
  refine exclusive_of_unshared (wellFormed_run _ (Canister.wellFormed_idle s) events) ?_ hunshared
    htracked (accounted_run s events).registered
  intro task htask
  exact (serves_run s events task htask).asks

end Exclusion

/-- Two requests for one minute, the second of which does not name it. -/
def overlappingFetches : List Event :=
  [.call (Environment.ordinary 1_699_833_630)
      ⟨⟨"BTC", .Cryptocurrency⟩, ⟨"ICP", .Cryptocurrency⟩, some 1_699_833_600⟩,
    .call (Environment.ordinary 1_699_833_630)
      ⟨⟨"ETH", .Cryptocurrency⟩, ⟨"USDT", .Cryptocurrency⟩, none⟩]

theorem overlapping_fetches_exclude :
    letI := defaultBuild
    letI := asciiUnicode
    (run (Canister.idle (State.new : State RecentRates)) overlappingFetches).active
        = [⟨["BTC", "ICP"], 1_699_833_600, 2⟩, ⟨["ETH", "USDT"], 1_699_833_600, 1⟩]
      ∧ Exclusive (run (Canister.idle (State.new : State RecentRates)) overlappingFetches) := by
  let _ := defaultBuild
  let _ := asciiUnicode
  refine ⟨by decide +kernel, ordinary_callers_exclude State.new overlappingFetches ?_⟩
  intro env request hmem
  simp only [overlappingFetches, List.mem_cons, List.not_mem_nil, or_false, Event.call.injEq] at hmem
  rcases hmem with ⟨rfl, -⟩ | ⟨rfl, -⟩
  · decide
  · decide

end Xrc
