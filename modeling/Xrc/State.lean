/-
The shared state a request handler works on, and the two guards that live across its
suspension points: `inflight.rs`, which registers the symbols being fetched, and
`rate_limiting.rs`, which counts the outcalls that have been reserved.

The counter is a `usize` of a 32-bit target. `accepted` is the ledger of the cycles
taken from callers, in order; it stands for the effect of `msg_cycles_accept`.
-/
import Xrc.Cache
import Xrc.Exchanges
import Xrc.Forex
import Xrc.Async

set_option autoImplicit false

namespace Xrc

open Machine

/-- The state of the canister that requests read and write. The ledger `accepted` records the fees
that were taken, in order. No function reads it; it is what statements about charging are made on.
-/
structure State (L : Type) where
  cache : ExchangeRateCache L
  forex_store : ForexRateStore
  listing_store : ListingStore
  /-- The symbol-timestamp pairs that are currently being requested. -/
  inflight : Finset CacheKey
  request_counter : ℕ
  accepted : List ℕ

/-- Maximum number of entries in the cache. -/
def MAX_CACHE_SIZE : ℕ := 1000

/-- The state of a newly installed canister. -/
def State.new {L : Type} [LruCache L CacheKey QueriedExchangeRate] : State L :=
  { cache := ExchangeRateCache.new MAX_CACHE_SIZE
    forex_store := ForexRateStore.new
    listing_store := ListingStore.default
    inflight := ∅
    request_counter := 0
    accepted := [] }

/-- The guards a request owns at its suspension points. Each remembers what it has to give back
when it is dropped, and nothing else. -/
inductive Guard where
  | InflightCryptoUsdtRequestsGuard (symbols : List String) (timestamp : ℕ)
  | RateLimitingRequestCounterGuard (http_requests_needed : ℕ)
  deriving DecidableEq, Repr

variable {L : Type}

/-! ## `inflight.rs`

The set holds symbols with timestamps, not requests. A guard that is dropped takes its keys out
whether or not another request has registered the same ones; `Overlap` and `Tracking` are about
what follows from this. -/

/-- Checks if the asset-timestamp pair is being requested. -/
def is_inflight (s : State L) (asset : Asset) (timestamp : ℕ) : Bool :=
  decide ((asset.symbol, timestamp) ∈ s.inflight)

/-- The keys a guard registers. -/
def inflight_keys (symbols : List String) (timestamp : ℕ) : Finset CacheKey :=
  (symbols.map fun symbol => (symbol, timestamp)).toFinset

/-- `InflightCryptoUsdtRequestsGuard::new`. -/
def State.add_inflight (s : State L) (symbols : List String) (timestamp : ℕ) : State L :=
  { s with inflight := s.inflight ∪ inflight_keys symbols timestamp }

/-- `InflightCryptoUsdtRequestsGuard::drop`. -/
def State.remove_inflight (s : State L) (symbols : List String) (timestamp : ℕ) : State L :=
  { s with inflight := s.inflight \ inflight_keys symbols timestamp }

/-! ## `rate_limiting.rs`

The counter is compared before a request and raised after the comparison, so that between two
suspension points it stands for the outcalls of the requests that are under way. -/

/-- A limit for how many HTTP requests may be issued at any given time. -/
def REQUEST_COUNTER_LIMIT : ℕ := 56

/-- The HTTP requests a number of rates takes. -/
def http_requests_needed [Features] (num_rates_needed : ℕ) : ℕ :=
  saturating_mul 32 available_exchanges_count num_rates_needed

/-- Checks that a request must not be made. -/
def is_rate_limited [Features] (s : State L) (num_rates_needed : ℕ)
    (request : GetExchangeRateRequest) : Bool :=
  decide (REQUEST_COUNTER_LIMIT
      < saturating_add 32 (http_requests_needed num_rates_needed) s.request_counter)
    && (!is_privileged_asset_pair request.base_asset request.quote_asset
      || request.timestamp.isSome)

/-- `RateLimitingRequestCounterGuard::new`. -/
def State.reserve (s : State L) (http_requests_needed : ℕ) : State L :=
  { s with request_counter := saturating_add 32 s.request_counter http_requests_needed }

/-- `RateLimitingRequestCounterGuard::drop`. -/
def State.release (s : State L) (http_requests_needed : ℕ) : State L :=
  { s with request_counter := s.request_counter - http_requests_needed }

/-! ## The guards around a future

In the source a guard lives as long as the future it is moved into. Here the future is a tree of
its suspension points, and `guarded` puts the guard at each of them and the drop at each end. -/

section Guards

variable {κ α : Type} {ρ : κ → Type}

/-- `with_inflight_tracking`. -/
def with_inflight_tracking (symbols : List String) (timestamp : ℕ)
    (future : State L → Async (State L) Guard κ ρ α) (s : State L) :
    Async (State L) Guard κ ρ α :=
  (future (s.add_inflight symbols timestamp)).guarded
    (.InflightCryptoUsdtRequestsGuard symbols timestamp)
    fun s => s.remove_inflight symbols timestamp

/-- `with_request_counter`. -/
def with_request_counter [Features] (num_rates_needed : ℕ)
    (future : State L → Async (State L) Guard κ ρ α) (s : State L) :
    Async (State L) Guard κ ρ α :=
  let http_requests_needed := http_requests_needed num_rates_needed
  (future (s.reserve http_requests_needed)).guarded
    (.RateLimitingRequestCounterGuard http_requests_needed)
    fun s => s.release http_requests_needed

end Guards

theorem mem_inflight_keys {symbols : List String} {timestamp : ℕ} {key : CacheKey} :
    key ∈ inflight_keys symbols timestamp ↔ key.1 ∈ symbols ∧ key.2 = timestamp := by
  obtain ⟨symbol, t⟩ := key
  simp only [inflight_keys, List.mem_toFinset, List.mem_map, Prod.mk.injEq]
  constructor
  · rintro ⟨s, hs, rfl, rfl⟩
    exact ⟨hs, rfl⟩
  · rintro ⟨hs, rfl⟩
    exact ⟨symbol, hs, rfl, rfl⟩

/-- Three rates are the most a request needs; their outcalls never saturate. -/
theorem http_requests_needed_eq [Features] {num_rates_needed : ℕ} (h : num_rates_needed ≤ 3) :
    http_requests_needed num_rates_needed = available_exchanges_count * num_rates_needed := by
  apply saturating_mul_eq
  calc available_exchanges_count * num_rates_needed ≤ 9 * 3 :=
        Nat.mul_le_mul available_exchanges_count_le h
    _ ≤ wordMax 32 := by decide

end Xrc
