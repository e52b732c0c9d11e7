/-
Overlapping requests and the in-flight set. The set keeps no count of its holders: the
guard of a request that ends takes its pairs out, whoever else has registered them. Only
callers who skip the in-flight check can come to share a pair.

`inflight_tracked_iff` says which runs lose a pair that is still being requested,
`inflight_tracked_of_ordinary_callers` that no run without privileged callers does.
-/
import Xrc.Accounting

set_option autoImplicit false

namespace Xrc

variable [Features] [Unicode] {L : Type} [LruCache L CacheKey QueriedExchangeRate]

/-! ## Tracking

Tracking is half of what the in-flight set should be: no pair that is being requested is
missing. The other half, that nothing else is registered, holds always (`Accounted`). -/

/-- Every pair registered by an active request is in the in-flight set. A request registers its
pairs when it is suspended for the first time and is active until it ends. -/
def InflightTracked (c : Canister L) : Prop :=
  ∀ key ∈ c.active, ∀ asset : Asset, asset.symbol ∈ key.symbols →
    is_inflight c.state asset key.timestamp = true

omit [Features] [Unicode] [LruCache L CacheKey QueriedExchangeRate] in
theorem inflightTracked_iff_keys {c : Canister L} :
    InflightTracked c ↔ ∀ key ∈ c.active, key.keys ⊆ c.state.inflight := by
  constructor
  · rintro h key hkey ⟨symbol, timestamp⟩ hk
    obtain ⟨hsymbol, htimestamp⟩ := mem_inflight_keys.mp hk
    have hasset := of_decide_eq_true (h key hkey ⟨symbol, .Cryptocurrency⟩ hsymbol)
    rw [← htimestamp] at hasset
    exact hasset
  · intro h key hkey asset hsymbol
    exact decide_eq_true (h key hkey (mem_inflight_keys.mpr ⟨hsymbol, rfl⟩))

/-! ## Ending with company

A guard that is dropped erases its keys. This only hurts a request that has registered one of
the same keys and is still active, and it does so immediately, so that the runs which keep the
tracking are exactly those without such a step (`forall_prefix_iff`). -/

/-- A request ends while another active one has registered one of its pairs. The guard of the one
that ends takes the pair out of the set, although the other one still awaits its rate. -/
def EndsShared (c : Canister L) : Event → Prop
  | .resume i now_secs answers =>
    ends c (.resume i now_secs answers) = true
      ∧ ∃ key, c.active[i]? = some key
        ∧ ∃ other ∈ c.active.eraseIdx i, ¬ Disjoint other.keys key.keys
  | _ => False

/-- **A step keeps the tracking**, unless a request ends whose pairs are shared. A guard that is
dropped removes its pairs from the set without looking at the other guards. This is the only move
that removes anything, so it decides both directions. -/
theorem inflightTracked_step_iff {c : Canister L} (hwf : c.WellFormed) (hc : InflightTracked c)
    (event : Event) : InflightTracked (step c event) ↔ ¬ EndsShared c event := by
  rw [inflightTracked_iff_keys] at hc ⊢
  have hmove := (step_move c hwf event).2
  generalize step c event = c' at hmove
  cases hmove with
  | quiet hends hactive hinflight _ =>
      -- nothing ends here, so neither side of the equivalence is about a shared pair
      have hshared : ¬ EndsShared c event := by
        cases event with
        | resume i now_secs answers =>
            rintro ⟨hends', -⟩
            rw [hends] at hends'
            cases hends'
        | _ => exact id
      refine iff_of_true (fun key hkey => ?_) hshared
      rw [hinflight]
      rw [hactive] at hkey
      exact hc key hkey
  | begins _ hactive hinflight _ =>
      -- a guard only adds pairs: the old ones stay, and the new request has its own
      refine iff_of_true (fun key hkey => ?_) id
      rw [hinflight]
      rw [hactive, List.mem_append, List.mem_singleton] at hkey
      rcases hkey with hkey | rfl
      · exact (hc key hkey).trans Finset.subset_union_left
      · exact Finset.subset_union_right
  | @ends i now_secs answers key hends hkey hactive hinflight _ =>
      -- the guard removes its pairs from the set, whoever else holds them
      rw [hactive, hinflight]
      constructor
      · rintro h ⟨-, key', hkey', other, hother, hshare⟩
        rw [hkey] at hkey'
        rw [← Option.some.inj hkey'] at hshare
        exact hshare ((Finset.subset_sdiff.mp (h other hother)).2)
      · intro h other hother
        refine Finset.subset_sdiff.mpr ⟨hc other (List.mem_of_mem_eraseIdx hother), ?_⟩
        by_contra hshare
        exact h ⟨hends, key, hkey, other, hother, hshare⟩

/-- **In-flight tracking survives overlapping requests** exactly in those runs in which no request
ends while another active one has registered one of its pairs.

The guard's `drop` removes a pair from the set without asking who else has registered it. Hence
one step keeps the property exactly when it ends no request that shares a pair, and the
equivalence over runs is that of the steps. -/
theorem inflight_tracked_iff (s : State L) (events : List Event) :
    (∀ n, InflightTracked (run (Canister.idle s) (events.take n)))
      ↔ ∀ n event, events[n]? = some event →
          ¬ EndsShared (run (Canister.idle s) (events.take n)) event := by
  refine forall_prefix_iff ?_ (Canister.wellFormed_idle s) nofun events
  intro c hwf hc event
  exact inflightTracked_step_iff hwf hc event

/-! ## Two privileged callers

Privileged callers skip the check for pairs in flight. Two of them are enough, and one that
fails early. -/

/-- All exchanges fail. -/
def unanswered : (call : Call) → Answer call
  | .get_cryptocurrency_usdt_rate _ _ _ => .error .NoRatesFound
  | .get_stablecoin_rates _ _ _ => []

/-- ICP against BTC, at a fixed minute. -/
def icpBtcRequest : GetExchangeRateRequest :=
  ⟨⟨"ICP", .Cryptocurrency⟩, ⟨"BTC", .Cryptocurrency⟩, some 1_699_833_600⟩

/-- Two privileged canisters ask for the same rate; the exchanges fail the first one, which
ends while the second one still waits for them. -/
def overlap : List Event :=
  [.call (Environment.privileged 1_699_833_600) icpBtcRequest,
    .call (Environment.privileged 1_699_833_600) icpBtcRequest]
    ++ List.replicate 6 (.outcall_returned 0)
    ++ [.resume 0 1_699_833_600 unanswered]

omit [Features] [Unicode] in
/-- The pairs of the second request are gone while it is active. -/
theorem overlapping_guard_dropped :
    letI := defaultBuild
    letI := asciiUnicode
    ¬ InflightTracked (run (Canister.idle (State.new : State RecentRates)) overlap) := by
  let _ := defaultBuild
  let _ := asciiUnicode
  intro h
  have hactive : (run (Canister.idle (State.new : State RecentRates)) overlap).active
      = [⟨["ICP", "BTC"], 1_699_833_600, 2⟩] := by decide +kernel
  have hgone : is_inflight (run (Canister.idle (State.new : State RecentRates)) overlap).state
      ⟨"ICP", .Cryptocurrency⟩ 1_699_833_600 = false := by decide +kernel
  have htracked := h ⟨["ICP", "BTC"], 1_699_833_600, 2⟩ (by rw [hactive]; exact List.mem_cons_self)
    ⟨"ICP", .Cryptocurrency⟩ List.mem_cons_self
  rw [hgone] at htracked
  cases htracked

/-! ## Ordinary callers

The two invariants need each other: as long as everything is tracked no ordinary caller is
admitted for a pair in flight, and as long as no pair is shared nothing that is dropped is
missed. -/

/-- No two active requests have registered the same pair. Then the set is the disjoint union of
their keys, and each guard takes out its own. -/
def Unshared (c : Canister L) : Prop :=
  c.active.Pairwise fun key key' => Disjoint key.keys key'.keys

omit [Features] [Unicode] [LruCache L CacheKey QueriedExchangeRate] in
/-- The symbols a request registers are those of its cryptocurrencies. -/
theorem crypto_of_mem_fetched_symbols {request : GetExchangeRateRequest} {symbol : String}
    (h : symbol ∈ fetched_symbols request) :
    (routed_request request).base_asset = ⟨symbol, .Cryptocurrency⟩
      ∨ (routed_request request).quote_asset = ⟨symbol, .Cryptocurrency⟩ := by
  obtain ⟨⟨base, base_class⟩, ⟨quote, quote_class⟩, timestamp⟩ := request
  cases base_class <;> cases quote_class
  · simp only [fetched_symbols, List.mem_cons, List.not_mem_nil, or_false] at h
    rcases h with rfl | rfl
    · exact Or.inl rfl
    · exact Or.inr rfl
  · rw [List.mem_singleton.mp h]
    exact Or.inl rfl
  · rw [List.mem_singleton.mp h]
    exact Or.inl rfl
  · cases h

/-- None of the pairs a request registers is in flight when an ordinary caller is admitted. A
privileged caller is admitted all the same, and this is how two requests come to share a pair. -/
theorem disjoint_keys_of_admitted {env : Environment} {request : GetExchangeRateRequest}
    {s : State L} (hadmitted : Admitted env request s)
    (hcaller : is_caller_privileged env.caller = false) :
    Disjoint s.inflight (guard_key env request s).keys := by
  have hinflight := (validate_request_of_not_privileged hadmitted hcaller).2
  rw [has_inflight_crypto, Bool.or_eq_false_iff] at hinflight
  rw [Finset.disjoint_right]
  rintro ⟨symbol, timestamp⟩ hk hmem
  obtain ⟨hsymbol, htimestamp⟩ := mem_inflight_keys.mp hk
  -- the validation has looked at both assets, and the pair is of one of them
  have hfree : is_inflight s ⟨symbol, .Cryptocurrency⟩ (chosen_timestamp env request s).value
      = false := by
    rcases crypto_of_mem_fetched_symbols hsymbol with hasset | hasset
    · have hbase := hinflight.1
      rw [hasset] at hbase
      exact hbase
    · have hquote := hinflight.2
      rw [hasset] at hquote
      exact hquote
  apply of_decide_eq_false hfree
  have htime : timestamp = (chosen_timestamp env request s).value := htimestamp
  rw [← htime]
  exact hmem

/-- **A step by ordinary callers** makes no two requests share a pair, and so loses none. An
ordinary caller is turned away when a pair of the request is registered already, and tracking
makes the set the union of all guards. The two properties need each other in this step. -/
theorem unshared_step {c : Canister L} {event : Event} (hwf : c.WellFormed)
    (hunshared : Unshared c) (hc : InflightTracked c)
    (hordinary : ∀ env request, event = .call env request →
      is_caller_privileged env.caller = false) :
    Unshared (step c event) ∧ InflightTracked (step c event) := by
  have hkeys := inflightTracked_iff_keys.mp hc
  have hshared : ¬ EndsShared c event := by
    cases event with
    | resume i now_secs answers =>
        -- `other` sits before or after the request that ends; the pairs are disjoint either way
        rintro ⟨-, key, hkey, other, hother, hshare⟩
        obtain ⟨j, hji, hj⟩ := List.mem_eraseIdx_iff_getElem?.mp hother
        obtain ⟨hi, rfl⟩ := List.getElem?_eq_some_iff.mp hkey
        obtain ⟨hj', rfl⟩ := List.getElem?_eq_some_iff.mp hj
        rcases Nat.lt_or_gt_of_ne hji with hlt | hgt
        · exact hshare (List.pairwise_iff_getElem.mp hunshared j i hj' hi hlt)
        · exact hshare (List.pairwise_iff_getElem.mp hunshared i j hi hj' hgt).symm
    | _ => exact id
  refine ⟨?_, (inflightTracked_step_iff hwf hc event).mpr hshared⟩
  have hmove := (step_move c hwf event).2
  generalize step c event = c' at hmove
  unfold Unshared
  cases hmove with
  | quiet _ hactive _ _ =>
      rw [hactive]
      exact hunshared
  | @begins env request hadmitted hactive _ _ =>
      -- whatever is registered is in the set, and the validation found the set free of these
      have hfree := disjoint_keys_of_admitted hadmitted (hordinary env request rfl)
      rw [hactive, List.pairwise_append]
      refine ⟨hunshared, List.pairwise_singleton _ _, fun key hkey key' hkey' => ?_⟩
      rw [List.mem_singleton.mp hkey']
      exact hfree.mono_left (hkeys key hkey)
  | ends _ _ hactive _ _ =>
      rw [hactive]
      exact hunshared.sublist (List.eraseIdx_sublist _ _)

/-- The two go together over a run: sharing is excluded by the tracking, and the tracking is
only lost by sharing. -/
theorem unshared_run (s : State L) (events : List Event)
    (hordinary : ∀ env request, .call env request ∈ events →
      is_caller_privileged env.caller = false) :
    Unshared (run (Canister.idle s) events) ∧ InflightTracked (run (Canister.idle s) events) := by
  induction events using List.reverseRecOn with
  | nil => exact ⟨List.Pairwise.nil, nofun⟩
  | append_singleton events event ih =>
      obtain ⟨hunshared, hc⟩ := ih fun env request hmem =>
        hordinary env request (List.mem_append_left _ hmem)
      rw [run_concat]
      refine unshared_step (wellFormed_run _ (Canister.wellFormed_idle s) events) hunshared hc
        fun env request hevent => hordinary env request ?_
      rw [← hevent]
      exact List.mem_append_right _ (List.mem_singleton_self _)

/-- **Ordinary callers never share a pair**: without privileged callers every run keeps what is
being requested in the in-flight set. -/
theorem inflight_tracked_of_ordinary_callers (s : State L) (events : List Event)
    (hordinary : ∀ env request, .call env request ∈ events →
      is_caller_privileged env.caller = false) :
    InflightTracked (run (Canister.idle s) events) :=
  (unshared_run s events hordinary).2

end Xrc
