/-
The accounting of outcalls, over all interleavings. The request counter is the sum of what
the active requests have reserved; it bounds the outcalls in flight; and whoever is subject
to the rate limit is only admitted while the limit leaves room.

The counter saturates, but never does: a suspended request takes more memory than the
counter can lose to it, so that the sum of all reservations stays below a word.
-/
import Xrc.Canister

set_option autoImplicit false

namespace Xrc

open Machine

variable [Features] [Unicode] {L : Type} [LruCache L CacheKey QueriedExchangeRate]

/-! ## The invariant

Each move changes the counter and the sum of the reservations by the same amount. That the
counter does not saturate needs a bound on the number of requests, and the only one there is
comes from the memory they take: the reservations of all requests that fit are far below the
largest word. -/

/-- What the active requests have reserved. -/
def Canister.reserved (c : Canister L) : ℕ := (c.active.map GuardKey.share).sum

/-- The outcalls in flight. -/
def Canister.outstanding (c : Canister L) : ℕ := (c.tasks.map Task.outstanding).sum

/-- The counter is what is reserved, and whatever is registered belongs to a request. The
converse, that every request's pairs are registered, is not part of it: the set forgets a pair
when one of two requests that share it ends. -/
structure Accounted (c : Canister L) : Prop where
  counter_eq : c.state.request_counter = c.reserved
  registered : ∀ k ∈ c.state.inflight, ∃ key ∈ c.active, k ∈ key.keys

omit [Unicode] [LruCache L CacheKey QueriedExchangeRate] in
/-- A request reserves 27 outcalls at most. -/
theorem GuardKey.share_le {key : GuardKey} (h : key.num_rates_needed ≤ 3) : key.share ≤ 27 :=
  Nat.mul_le_mul available_exchanges_count_le h

omit [LruCache L CacheKey QueriedExchangeRate] in
/-- The reservations of all requests that fit into the memory fit into a word. -/
theorem reserved_le_wordMax {c : Canister L} (hc : c.WellFormed) : c.reserved ≤ wordMax 32 := by
  have hshare : ∀ n ∈ c.active.map GuardKey.share, n ≤ 27 := by
    intro n hn
    obtain ⟨key, hkey, rfl⟩ := List.mem_map.mp hn
    obtain ⟨task, htask, rfl⟩ := List.mem_map.mp hkey
    exact GuardKey.share_le (hc.tasks task htask).num_rates_needed_le
  have hsum := List.sum_le_card_nsmul _ _ hshare
  have hmemory := hc.memory
  simp only [Canister.active, List.length_map, Nat.nsmul_eq_mul] at hsum
  simp only [MIN_SUSPENDED_REQUEST_BYTES, WASM_MEMORY_BYTES] at hmemory
  have hword : wordMax 32 = 2 ^ 32 - 1 := rfl
  rw [hword]
  calc c.reserved ≤ c.tasks.length * 27 := hsum
    _ ≤ 2 ^ 32 - 1 := by omega

omit [LruCache L CacheKey QueriedExchangeRate] in
/-- The outcalls in flight are among those reserved. -/
theorem outstanding_le_reserved {c : Canister L} (hc : c.WellFormed) :
    c.outstanding ≤ c.reserved := by
  rw [Canister.outstanding, Canister.reserved, Canister.active, List.map_map]
  exact List.sum_le_sum fun task htask => (hc.tasks task htask).outstanding_le

omit [Unicode] [LruCache L CacheKey QueriedExchangeRate] in
theorem accounted_idle (s : State L) : Accounted (Canister.idle s) :=
  ⟨rfl, fun k hk => absurd hk (Finset.notMem_empty k)⟩

/-- **No move breaks the accounting.** One that begins a request adds its share to the counter and
its pairs to the set, and one that ends a request takes both away again. The set may lose more
than that, where pairs are shared, and so it is only bounded here. -/
theorem Accounted.step {c c' : Canister L} {event : Event} (hc : Accounted c)
    (hwf' : c'.WellFormed) (hmove : Move c c' event) : Accounted c' := by
  cases hmove with
  | quiet _ hactive hinflight hcounter =>
      -- neither the requests nor what is guarded has changed
      refine ⟨?_, ?_⟩
      · rw [hcounter, Canister.reserved, hactive]
        exact hc.counter_eq
      · rw [hinflight, hactive]
        exact hc.registered
  | @begins env request _ hactive hinflight hcounter =>
      have hreserved : c'.reserved
          = c.reserved + (guard_key env (sanitize_request request) c.state).share := by
        simp only [Canister.reserved, hactive, List.map_append, List.sum_append, List.map_cons,
          List.map_nil, List.sum_cons, List.sum_nil, Nat.add_zero]
      refine ⟨?_, fun k hk => ?_⟩
      · -- the memory bound on `c'` keeps the addition from saturating
        have hfits := reserved_le_wordMax hwf'
        rw [hreserved, ← hc.counter_eq] at hfits
        rw [hcounter, saturating_add_eq hfits, hreserved, hc.counter_eq]
      · rw [hinflight, Finset.mem_union] at hk
        rw [hactive]
        rcases hk with hk | hk
        · obtain ⟨key, hkey, hmem⟩ := hc.registered k hk
          exact ⟨key, List.mem_append_left _ hkey, hmem⟩
        · exact ⟨_, List.mem_append_right _ (List.mem_singleton_self _), hk⟩
  | @ends i _ _ key _ hkey hactive hinflight hcounter =>
      obtain ⟨hi, hget⟩ := List.getElem?_eq_some_iff.mp hkey
      refine ⟨?_, fun k hk => ?_⟩
      · -- the request that ends gives back exactly its own summand
        have hsum := List.CommMonoid.add_sum_eraseIdx
          (l := c.active.map GuardKey.share) (i := i) (by rw [List.length_map]; exact hi)
        rw [List.getElem_map, hget, List.eraseIdx_map] at hsum
        rw [hcounter, hc.counter_eq, Canister.reserved, Canister.reserved, hactive, ← hsum]
        exact Nat.add_sub_cancel_left _ _
      · rw [hinflight, Finset.mem_sdiff] at hk
        obtain ⟨key', hkey', hmem⟩ := hc.registered k hk.1
        obtain ⟨j, hj⟩ := List.mem_iff_getElem?.mp hkey'
        refine ⟨key', ?_, hmem⟩
        rw [hactive, List.mem_eraseIdx_iff_getElem?]
        refine ⟨j, fun hji => hk.2 ?_, hj⟩
        -- a key of the request that has just ended is no longer registered
        rw [hji, hkey] at hj
        rw [Option.some.inj hj]
        exact hmem

theorem accounted_run (s : State L) (events : List Event) :
    Accounted (run (Canister.idle s) events) := by
  induction events using List.reverseRecOn with
  | nil => exact accounted_idle s
  | append_singleton events event ih =>
      have hwf := wellFormed_run _ (Canister.wellFormed_idle s) events
      obtain ⟨hwf', hmove⟩ := step_move _ hwf event
      rw [run_concat]
      exact ih.step hwf' hmove

/-! ## Admission

A request that is subject to the limit is compared with the counter before it reserves, in the
same segment. So the counter is within the limit right after such a request was admitted, while
requests that are exempt may take it beyond. -/

omit [Features] [Unicode] [LruCache L CacheKey QueriedExchangeRate] in
/-- Whether a pair is privileged does not depend on its order. -/
theorem is_privileged_asset_pair_comm (base_asset quote_asset : Asset) :
    is_privileged_asset_pair base_asset quote_asset
      = is_privileged_asset_pair quote_asset base_asset := by
  unfold is_privileged_asset_pair
  cases base_asset.class' <;> cases quote_asset.class' <;> dsimp only
  exact Bool.or_comm _ _

/-- A request subject to the rate limit: neither its caller is privileged, nor is it a
privileged pair without a timestamp. -/
def is_limited (env : Environment) (request : GetExchangeRateRequest) : Bool :=
  !is_caller_privileged env.caller
    && (!is_privileged_asset_pair request.base_asset request.quote_asset
      || request.timestamp.isSome)

omit [Unicode] [LruCache L CacheKey QueriedExchangeRate] in
/-- What the validation makes sure of for a caller who is not privileged. -/
theorem validate_request_of_not_privileged {env : Environment} {request : GetExchangeRateRequest}
    {num_rates_needed : ℕ} {timestamp : NormalizedTimestamp} {s : State L}
    (h : validate_request env request num_rates_needed timestamp s = .ok ())
    (hcaller : is_caller_privileged env.caller = false) :
    is_rate_limited s num_rates_needed request = false
      ∧ has_inflight_crypto s request timestamp.value = false := by
  have houtcome := validate_request_outcome env request num_rates_needed timestamp s
  rw [h] at houtcome
  exact houtcome.2.2 hcaller

/-- A limited request that is admitted leaves room for its outcalls. The validation compares the
counter with the limit in the routed request, which is limited whenever the original one is, as
the order of the assets does not matter. -/
theorem room_of_admitted {env : Environment} {request : GetExchangeRateRequest} {s : State L}
    (hadmitted : Admitted env request s) (hlimited : is_limited env request = true) :
    s.request_counter + (guard_key env request s).share ≤ REQUEST_COUNTER_LIMIT := by
  rw [is_limited, Bool.and_eq_true, Bool.not_eq_true'] at hlimited
  obtain ⟨hcaller, hpair⟩ := hlimited
  have hrate := (validate_request_of_not_privileged hadmitted hcaller).1
  have hpair' : (!is_privileged_asset_pair (routed_request request).base_asset
      (routed_request request).quote_asset || (routed_request request).timestamp.isSome)
        = true := by
    unfold routed_request
    split
    · rw [invert_assets_in_request]
      rw [is_privileged_asset_pair_comm]
      exact hpair
    · exact hpair
  rw [is_rate_limited, hpair', Bool.and_true, decide_eq_false_iff_not, Nat.not_lt,
    http_requests_needed_eq (rates_needed_le env request s)] at hrate
  -- the check adds with saturation, which cannot pass for a sum above a word
  have hword : REQUEST_COUNTER_LIMIT < wordMax 32 := by decide
  rcases min_le_iff.mp hrate with hroom | hroom
  · rw [Nat.add_comm]
    exact hroom
  · exact absurd hroom (Nat.not_le_of_lt hword)

/-- **Outcall accounting.** However requests and outcalls interleave: the counter is the sum of
the reservations of the active requests and bounds the outcalls in flight; only admitted requests
become active, and one that is subject to the rate limit leaves the counter within it; and without
active requests nothing is reserved or registered.

The four clauses are read off one invariant, `Accounted`, which each step keeps because a guard is
taken in the segment that reserves and given back in the one that ends the request. That outcalls
stay within what is reserved goes by the contract of every handler on its own. -/
theorem outcalls_accounted (s : State L) (events : List Event) :
    let c := run (Canister.idle s) events
    c.state.request_counter
        = (c.active.map fun key => available_exchanges_count * key.num_rates_needed).sum
      ∧ c.outstanding ≤ c.state.request_counter
      ∧ (∀ env request,
          (c.tasks.length < (step c (.call env request)).tasks.length →
              Admitted env (sanitize_request request) c.state)
            ∧ (Admitted env (sanitize_request request) c.state →
              is_limited env (sanitize_request request) = true →
                (step c (.call env request)).state.request_counter ≤ REQUEST_COUNTER_LIMIT))
      ∧ (c.tasks = [] → c.state.request_counter = 0 ∧ c.state.inflight = ∅) := by
  intro c
  have hwf : c.WellFormed := wellFormed_run _ (Canister.wellFormed_idle s) events
  have hc : Accounted c := accounted_run s events
  refine ⟨hc.counter_eq, ?_, fun env request => ?_, fun hidle => ?_⟩
  · rw [hc.counter_eq]
    exact outstanding_le_reserved hwf
  · have hmove := (step_move c hwf (.call env request)).2
    cases hmove with
    | quiet _ hactive _ hcounter =>
        -- answered in its first segment, or not taken at all: no new request
        refine ⟨fun hlength => ?_, fun hadmitted hlimited => ?_⟩
        · have hsame := congrArg List.length hactive
          simp only [Canister.active, List.length_map] at hsame
          exact absurd hsame (Nat.ne_of_gt hlength)
        · rw [hcounter]
          exact (Nat.le_add_right _ _).trans (room_of_admitted hadmitted hlimited)
    | begins hadmitted _ _ hcounter =>
        refine ⟨fun _ => hadmitted, fun _ hlimited => ?_⟩
        rw [hcounter]
        exact (Nat.min_le_left _ _).trans (room_of_admitted hadmitted hlimited)
  · have hactive : c.active = [] := by rw [Canister.active, hidle, List.map_nil]
    refine ⟨?_, Finset.eq_empty_of_forall_notMem fun k hk => ?_⟩
    · rw [hc.counter_eq, Canister.reserved, hactive]
      rfl
    · obtain ⟨key, hkey, -⟩ := hc.registered k hk
      rw [hactive] at hkey
      cases hkey

end Xrc
