/-
`listings.rs` and the listing half of `exchanges.rs`: what is read off an exchange's
listing response, the structural guard that accepts or rejects it, and the store of the
accepted listings over whole runs of refreshes.

The store keeps nothing but the last accepted refresh of each exchange
(`by_exchange_store_after`), so that the guard and the gate are statements about that
refresh.
-/
import Xrc.Exchanges
import Mathlib.Data.Finset.Insert
import Mathlib.Logic.Function.Basic

set_option autoImplicit false

namespace Xrc

open Machine

/-! ## Reading a listing response

The model starts from the markets that a response deserializes to, in the order of the response.
Each counts, and those that are tradable against USDT give their base to the listing; symbols
are compared without regard to ASCII case, and bases are stored in upper case. -/

/-- A spot market of a listing response. -/
structure ListedMarket where
  /-- The base asset symbol, as reported by the exchange. -/
  base : String
  /-- The quote asset symbol, as reported by the exchange. -/
  quote : String
  /-- Whether the market is currently tradable. -/
  tradable : Bool
  deriving DecidableEq, Repr

/-- The result of parsing a listing response. -/
structure ListedPairs where
  /-- The base assets tradable against USDT, in upper case. -/
  bases : Finset String
  /-- The number of spot markets, across all quotes. -/
  total_markets : ℕ
  deriving DecidableEq

/-- `str::eq_ignore_ascii_case`. -/
def eq_ignore_ascii_case (a b : String) : Bool :=
  a.toList.map Char.toLower == b.toList.map Char.toLower

section Extract

variable [Unicode]

/-- The body of the loop of `extract_listed_pairs`. -/
def list_market (listed : ListedPairs) (market : ListedMarket) : ListedPairs :=
  { bases := if market.tradable && eq_ignore_ascii_case market.quote USDT then
      insert (to_uppercase market.base) listed.bases else listed.bases
    total_markets := listed.total_markets + 1 }

@[simp] theorem total_markets_list_market (listed : ListedPairs) (market : ListedMarket) :
    (list_market listed market).total_markets = listed.total_markets + 1 := rfl

/-- `extract_listed_pairs`, of a response that deserializes to these markets. -/
def extract_listed_pairs (markets : List ListedMarket) : ListedPairs :=
  markets.foldl list_market ⟨∅, 0⟩

/-- What the loop adds to what it starts from. A market adds its base if it is traded against
USDT, and is counted in any case. -/
theorem foldl_list_market (markets : List ListedMarket) :
    ∀ listed : ListedPairs,
      (markets.foldl list_market listed).total_markets = listed.total_markets + markets.length
        ∧ ∀ base, base ∈ (markets.foldl list_market listed).bases ↔ base ∈ listed.bases
          ∨ ∃ market ∈ markets, market.tradable = true
            ∧ eq_ignore_ascii_case market.quote USDT = true ∧ to_uppercase market.base = base := by
  induction markets with
  | nil =>
      intro listed
      simp
  | cons market markets ih =>
      intro listed
      obtain ⟨htotal, hbases⟩ := ih (list_market listed market)
      rw [List.foldl_cons]
      refine ⟨?_, ?_⟩
      · rw [htotal, total_markets_list_market, List.length_cons]
        omega
      · intro base
        rw [hbases base, List.exists_mem_cons_iff, ← or_assoc]
        refine or_congr ?_ Iff.rfl
        rw [list_market]
        -- the market is one of those kept, or it counts and nothing else
        by_cases hkept : (market.tradable && eq_ignore_ascii_case market.quote USDT) = true
        · rw [if_pos hkept, Finset.mem_insert, or_comm, eq_comm]
          rw [Bool.and_eq_true] at hkept
          simp only [hkept.1, hkept.2, true_and]
        · rw [if_neg hkept]
          rw [Bool.and_eq_true] at hkept
          refine ⟨Or.inl, fun h => h.resolve_right ?_⟩
          rintro ⟨htradable, hquote, -⟩
          exact hkept ⟨htradable, hquote⟩

/-- Every market counts. -/
@[simp] theorem total_markets_extract_listed_pairs (markets : List ListedMarket) :
    (extract_listed_pairs markets).total_markets = markets.length := by
  rw [extract_listed_pairs, (foldl_list_market markets _).1, Nat.zero_add]

/-- A base is listed when a tradable market against USDT has it, in any case. -/
theorem mem_bases_extract_listed_pairs {markets : List ListedMarket} {base : String} :
    base ∈ (extract_listed_pairs markets).bases ↔ ∃ market ∈ markets, market.tradable = true
      ∧ eq_ignore_ascii_case market.quote USDT = true ∧ to_uppercase market.base = base := by
  rw [extract_listed_pairs, (foldl_list_market markets _).2 base]
  simp

end Extract

/-! ## The structural guard

A response that is too small, or lost more than half of the markets of the listing in store, is
taken for a truncated one. The fraction is computed in doubles; a count below `2 ^ 53` is one
exactly, and then the guard compares twice the new total with the old one. -/

/-- A refresh is rejected unless it parses to at least this many markets. -/
def MIN_TOTAL_MARKETS : ℕ := 50

/-- `(total as f64 * MIN_RETAINED_FRACTION).ceil() as u64`: the fraction is one half, and
half of a double is exact. -/
def min_retained (total : ℕ) : ℕ := (f64_of_nat total + 1) / 2

/-- For totals that are doubles it is half of the total, rounded up. -/
theorem min_retained_le_iff {previous total : ℕ} (h : previous < 2 ^ 53) :
    min_retained previous ≤ total ↔ previous ≤ 2 * total := by
  rw [min_retained, f64_of_nat_eq h]
  omega

/-- The result of offering a freshly fetched listing to the store. -/
inductive AcceptOutcome where
  | Accepted
  | RejectedTooFewMarkets (total : ℕ)
  | RejectedTotalDrop (total previous : ℕ)
  deriving DecidableEq, Repr

namespace ListingStore

/-- `ListingStore::accept`. -/
def accept (self : ListingStore) (exchange : String) (fetched : ListedPairs) (now_secs : ℕ) :
    AcceptOutcome × ListingStore :=
  let total := fetched.total_markets
  let insert := { self with
    by_exchange := Function.update self.by_exchange exchange
      (some ⟨fetched.bases, total, now_secs⟩) }
  if total < MIN_TOTAL_MARKETS then (.RejectedTooFewMarkets total, self)
  else
    match self.by_exchange exchange with
    | some previous =>
      if total < min_retained previous.total_markets then
        (.RejectedTotalDrop total previous.total_markets, self)
      else (.Accepted, insert)
    | none => (.Accepted, insert)

variable {self : ListingStore} {exchange : String} {fetched : ListedPairs} {now_secs : ℕ}

/-- What `accept` does: it stores the listing exactly when it says so. -/
theorem accept_snd : (self.accept exchange fetched now_secs).2
    = if (self.accept exchange fetched now_secs).1 = .Accepted then
        ⟨Function.update self.by_exchange exchange
          (some ⟨fetched.bases, fetched.total_markets, now_secs⟩)⟩
      else self := by
  unfold accept
  dsimp only
  by_cases htotal : fetched.total_markets < MIN_TOTAL_MARKETS
  · simp only [if_pos htotal, reduceCtorEq, if_false]
  · simp only [if_neg htotal]
    cases self.by_exchange exchange with
    | none => simp only [if_true]
    | some previous =>
        by_cases hdrop : fetched.total_markets < min_retained previous.total_markets
        · simp only [if_pos hdrop, reduceCtorEq, if_false]
        · simp only [if_neg hdrop, if_true]

/-- When `accept` accepts. A first listing has nothing to be compared with, and any later one must
not have less than half of the markets. -/
theorem accept_fst_iff : (self.accept exchange fetched now_secs).1 = .Accepted
    ↔ MIN_TOTAL_MARKETS ≤ fetched.total_markets
      ∧ ∀ previous, self.by_exchange exchange = some previous →
        min_retained previous.total_markets ≤ fetched.total_markets := by
  unfold accept
  dsimp only
  by_cases htotal : fetched.total_markets < MIN_TOTAL_MARKETS
  · rw [if_pos htotal]
    simp only [reduceCtorEq, not_le.mpr htotal, false_and]
  · rw [if_neg htotal]
    cases self.by_exchange exchange with
    | none => simp only [not_lt.mp htotal, reduceCtorEq, false_implies, implies_true, and_self]
    | some previous =>
        simp only [not_lt.mp htotal, true_and, Option.some.injEq, forall_eq']
        by_cases hdrop : fetched.total_markets < min_retained previous.total_markets
        · simp only [if_pos hdrop, reduceCtorEq, not_le.mpr hdrop]
        · simp only [if_neg hdrop, not_lt.mp hdrop]

end ListingStore

/-! ## Runs of refreshes

A history lists the refreshes of all exchanges, the most recent one first. Since a refresh that
is rejected leaves the store as it is, the store is a function of the last accepted one of each
exchange (`by_exchange_store_after`), and every result below is read off that refresh. -/

/-- One refresh of one exchange: what its fetch came to, and the time of the heartbeat
that it belongs to. -/
structure ListingRefresh where
  exchange : String
  now_secs : ℕ
  /-- The markets of the parsed response, or why there is none. -/
  response : Except CallExchangeError (List ListedMarket)

namespace ListingRefresh

/-- The markets of the response, none when the fetch failed. -/
def markets (self : ListingRefresh) : List ListedMarket :=
  match self.response with
  | .ok markets => markets
  | .error _ => []

variable [Unicode]

/-- The body of the loop over the fetched listings of `update_listing_store`: what the
store says to the refresh, nothing when the fetch failed, and the store afterwards. -/
def offer (self : ListingRefresh) (store : ListingStore) : Option AcceptOutcome × ListingStore :=
  match self.response with
  | .ok markets =>
    let accepted := store.accept self.exchange (extract_listed_pairs markets) self.now_secs
    (some accepted.1, accepted.2)
  | .error _ => (none, store)

/-- The refresh is accepted by `store`. Whether it is depends on the listing in the store, with
whose size the new one is compared. -/
def AcceptedBy (self : ListingRefresh) (store : ListingStore) : Prop :=
  (self.offer store).1 = some .Accepted

instance (self : ListingRefresh) (store : ListingStore) : Decidable (self.AcceptedBy store) :=
  inferInstanceAs (Decidable ((self.offer store).1 = some .Accepted))

/-- The listing an accepted refresh leaves behind. -/
def listing (self : ListingRefresh) : ExchangeListing :=
  ⟨(extract_listed_pairs self.markets).bases, self.markets.length, self.now_secs⟩

/-- Offering a refresh stores its listing exactly when it is accepted. -/
theorem offer_snd (self : ListingRefresh) (store : ListingStore) :
    (self.offer store).2 = if self.AcceptedBy store then
        ⟨Function.update store.by_exchange self.exchange (some self.listing)⟩
      else store := by
  rcases self with ⟨exchange, now_secs, error | markets⟩
  · rfl
  · show (store.accept exchange (extract_listed_pairs markets) now_secs).2 = _
    rw [ListingStore.accept_snd]
    simp only [AcceptedBy, offer, Option.some.injEq, listing, ListingRefresh.markets,
      total_markets_extract_listed_pairs]

/-- When a refresh is accepted, in terms of the listing it replaces. -/
theorem acceptedBy_iff (self : ListingRefresh) (store : ListingStore) :
    self.AcceptedBy store ↔ (∃ markets, self.response = .ok markets)
      ∧ MIN_TOTAL_MARKETS ≤ self.markets.length
      ∧ ∀ previous, store.by_exchange self.exchange = some previous →
        min_retained previous.total_markets ≤ self.markets.length := by
  rcases self with ⟨exchange, now_secs, error | markets⟩
  · simp only [AcceptedBy, offer, reduceCtorEq, exists_false, false_and]
  · simp only [AcceptedBy, offer, Option.some.injEq, ListingStore.accept_fst_iff,
      ListingRefresh.markets, total_markets_extract_listed_pairs, Except.ok.injEq, exists_eq',
      true_and]

end ListingRefresh

section Runs

variable [Unicode]

/-- The store after a run of refreshes, the most recent one first. -/
def store_after : List ListingRefresh → ListingStore
  | [] => ListingStore.default
  | refresh :: earlier => (refresh.offer (store_after earlier)).2

/-- The most recent refresh of an exchange that was accepted. -/
def latest_accepted (exchange : String) : List ListingRefresh → Option ListingRefresh
  | [] => none
  | refresh :: earlier =>
    if refresh.exchange = exchange ∧ refresh.AcceptedBy (store_after earlier) then some refresh
    else latest_accepted exchange earlier

/-- **What the store remembers** of a whole run: for each exchange the listing of its most
recent accepted refresh. -/
theorem by_exchange_store_after (exchange : String) (history : List ListingRefresh) :
    (store_after history).by_exchange exchange
      = (latest_accepted exchange history).map ListingRefresh.listing := by
  induction history with
  | nil => rfl
  | cons refresh earlier ih =>
      rw [store_after, ListingRefresh.offer_snd, latest_accepted]
      by_cases haccepted : refresh.AcceptedBy (store_after earlier)
      · rw [if_pos haccepted]
        by_cases hexchange : refresh.exchange = exchange
        · rw [if_pos ⟨hexchange, haccepted⟩, hexchange]
          exact Function.update_self _ _ _
        · rw [if_neg (fun h => hexchange h.1), ← ih]
          exact Function.update_of_ne (Ne.symm hexchange) _ _
      · rw [if_neg haccepted, if_neg (fun h => haccepted h.2)]
        exact ih

/-- What is stored was accepted, and with it every market count that decides later
refreshes is one of the run. -/
theorem latest_accepted_mem {exchange : String} {history : List ListingRefresh}
    {refresh : ListingRefresh} (h : latest_accepted exchange history = some refresh) :
    refresh ∈ history := by
  induction history with
  | nil => cases h
  | cons latest earlier ih =>
      rw [latest_accepted] at h
      split at h
      · rw [Option.some.inj h]
        exact List.mem_cons_self
      · exact List.mem_cons_of_mem _ (ih h)

/-- It is a refresh of that exchange, whose response was parsed and large enough. The gate has
looked at it at the time, and nothing but an accepted refresh enters the store. -/
theorem latest_accepted_large {exchange : String} {history : List ListingRefresh}
    {refresh : ListingRefresh} (h : latest_accepted exchange history = some refresh) :
    refresh.exchange = exchange ∧ refresh.response = .ok refresh.markets
      ∧ MIN_TOTAL_MARKETS ≤ refresh.markets.length := by
  induction history with
  | nil => cases h
  | cons latest earlier ih =>
      rw [latest_accepted] at h
      split at h
      · rename_i hlatest
        rw [← Option.some.inj h]
        obtain ⟨⟨markets, hmarkets⟩, hlarge, -⟩ :=
          (ListingRefresh.acceptedBy_iff latest _).mp hlatest.2
        refine ⟨hlatest.1, ?_, hlarge⟩
        rw [ListingRefresh.markets, hmarkets]
      · exact ih h

/-- The gate leaves an exchange out exactly when its listing is fresh and lacks the base. Without
a listing, or with a stale one, the exchange is always asked. -/
theorem should_query_eq_false_iff (history : List ListingRefresh) (exchange base : String)
    (now_secs : ℕ) :
    (store_after history).should_query exchange base now_secs = false
      ↔ ∃ refresh, latest_accepted exchange history = some refresh
        ∧ now_secs ≤ refresh.now_secs + MAX_LISTING_STALENESS_SECS
        ∧ ∀ market ∈ refresh.markets, market.tradable = true →
          eq_ignore_ascii_case market.quote USDT = true →
          to_uppercase market.base ≠ to_uppercase base := by
  rw [ListingStore.should_query, by_exchange_store_after]
  cases hlatest : latest_accepted exchange history with
  | none => simp only [Option.map_none, Bool.true_eq_false, reduceCtorEq, false_and, exists_false]
  | some refresh =>
      simp only [Option.map_some, Option.some.injEq, exists_eq_left', ListingRefresh.listing,
        Bool.or_eq_false_iff, decide_eq_false_iff_not, mem_bases_extract_listed_pairs, not_exists,
        not_and]
      refine and_congr ?_ Iff.rfl
      omega

/-- **The listing gate over whole runs.** For every run of refreshes, accepted, rejected or
failed, whose market counts are below `2 ^ 53`: an exchange is dropped for a base exactly when its
most recent accepted refresh is at most `MAX_LISTING_STALENESS_SECS` old and parsed no tradable
market of the base against USDT; a further refresh is accepted exactly when it parsed at least
`MIN_TOTAL_MARKETS` markets, and at least half of those of the last accepted one; and a refresh
that is not accepted changes no answer.

The store after a history is the latest accepted refresh of each exchange, by induction over the
history. The gate then only compares one listing with the query, and one refresh with its
predecessor; the half is taken in doubles, which is exact below `2 ^ 53`. -/
theorem listing_gate (history : List ListingRefresh)
    (hsmall : ∀ refresh ∈ history, refresh.markets.length < 2 ^ 53) :
    (∀ (exchanges : List Exchange) (exchange : Exchange) (base : String) (now_secs : ℕ),
        exchange ∈ exchanges →
        (exchange ∉ (store_after history).exchanges_listing_base_against_usdt exchanges base
            now_secs
          ↔ ∃ refresh, latest_accepted exchange.name history = some refresh
            ∧ now_secs ≤ refresh.now_secs + MAX_LISTING_STALENESS_SECS
            ∧ ∀ market ∈ refresh.markets, market.tradable = true →
              eq_ignore_ascii_case market.quote USDT = true →
              to_uppercase market.base ≠ to_uppercase base))
      ∧ (∀ refresh : ListingRefresh, refresh.AcceptedBy (store_after history)
          ↔ (∃ markets, refresh.response = .ok markets)
            ∧ MIN_TOTAL_MARKETS ≤ refresh.markets.length
            ∧ ∀ earlier, latest_accepted refresh.exchange history = some earlier →
              earlier.markets.length ≤ 2 * refresh.markets.length)
      ∧ ∀ refresh : ListingRefresh, ¬refresh.AcceptedBy (store_after history) →
          ∀ (exchanges : List Exchange) (base : String) (now_secs : ℕ),
            (store_after (refresh :: history)).exchanges_listing_base_against_usdt exchanges base
                now_secs
              = (store_after history).exchanges_listing_base_against_usdt exchanges base
                now_secs := by
  refine ⟨?_, ?_, ?_⟩
  · intro exchanges exchange base now_secs hmem
    -- an exchange is left out exactly when its last accepted listing is recent and lacks the base
    rw [← should_query_eq_false_iff, ListingStore.exchanges_listing_base_against_usdt,
      List.mem_filter]
    simp only [hmem, true_and, Bool.not_eq_true]
  · intro refresh
    -- the size of the stored listing is that of the last accepted refresh
    rw [ListingRefresh.acceptedBy_iff, by_exchange_store_after]
    refine and_congr Iff.rfl (and_congr Iff.rfl ?_)
    constructor
    · intro h earlier hearlier
      have hle := h earlier.listing (by rw [hearlier, Option.map_some])
      exact (min_retained_le_iff (hsmall _ (latest_accepted_mem hearlier))).mp hle
    · intro h previous hprevious
      obtain ⟨earlier, hearlier, rfl⟩ := Option.map_eq_some_iff.mp hprevious
      exact (min_retained_le_iff (hsmall _ (latest_accepted_mem hearlier))).mpr
        (h earlier hearlier)
  · intro refresh hrejected exchanges base now_secs
    -- a refresh that is not accepted leaves the store as it is
    rw [store_after, ListingRefresh.offer_snd, if_neg hrejected]

end Runs

/-- A first listing of OKX, with the fewest markets that are accepted, all of one coin. -/
def okxListsIcp : List ListingRefresh :=
  [⟨"Okx", 1_000, .ok (List.replicate 50 ⟨"icp", "usdt", true⟩)⟩]

theorem okx_dropped_for_btc :
    letI := asciiUnicode
    Exchange.Okx ∉ (store_after okxListsIcp).exchanges_listing_base_against_usdt [.Okx] "BTC"
      260_200 := by
  let _ := asciiUnicode
  refine ((listing_gate okxListsIcp (by decide)).1 [.Okx] .Okx "BTC" 260_200
    List.mem_cons_self).mpr ⟨_, if_pos ⟨rfl, by decide +kernel⟩, by decide, ?_⟩
  decide +kernel

end Xrc
