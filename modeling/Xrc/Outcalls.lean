/-
`api.rs`: the implementation of `CallExchanges` over single outcalls. A query asks
several exchanges and builds one rate from those that answered; a stablecoin is asked
for as whichever of its pairs an exchange trades, and inverted when USDT is the base.

`outcalls` counts the HTTP requests of a call, `implement` is the answer it gets from
the answers of the exchanges.
-/
import Xrc.Api
import Mathlib.Algebra.Order.BigOperators.Group.List

set_option autoImplicit false

namespace Xrc

namespace CallExchangesImpl

/-! ## Collecting the results

A query asks the exchanges that list the base, makes one rate of those that answered, and names
those that failed over HTTP. An exchange that answered with something unreadable, or with no
data, is only left out. -/

/-- The rates among the results. -/
def received_rates (results : List (Except CallExchangeError ℕ)) : List ℕ :=
  results.filterMap Except.toOption

/-- The exchange a result blames: only an HTTP error names one. -/
def failed_exchange (exchanges : List Exchange) : Except CallExchangeError ℕ → Option Exchange
  | .error (.Http exchange _) => exchanges.find? fun e => decide (e.name = exchange)
  | _ => none

section Queries

variable [Unicode]

/-- The exchanges queried for a base asset against USDT. -/
def queried (listing_store : ListingStore) (now_secs : ℕ) (exchanges : List Exchange)
    (asset : Asset) : List Exchange :=
  listing_store.exchanges_listing_base_against_usdt exchanges asset.symbol now_secs

/-- `CallExchangesImpl::get_cryptocurrency_usdt_rate`. -/
def get_cryptocurrency_usdt_rate (listing_store : ListingStore) (now_secs : ℕ)
    (answers : ExchangeAnswers) (exchanges : List Exchange) (asset : Asset) (timestamp : ℕ) :
    QueryResult :=
  let queried := queried listing_store now_secs exchanges asset
  let results := queried.map fun exchange => answers exchange ⟨timestamp, usdt_asset, asset⟩
  let rates := received_rates results
  let failed_exchanges := results.filterMap (failed_exchange exchanges)
  if rates.isEmpty then .error .NoRatesFound
  else
    let queried_exchange_rate := QueriedExchangeRate.new asset usdt_asset timestamp rates
      queried.length rates.length none
    if queried_exchange_rate.rates.isEmpty then .error .NoRatesFound
    else .ok ⟨queried_exchange_rate, failed_exchanges⟩

/-! ## Stablecoins

A stablecoin is asked for as the first of its pairs that an exchange trades. Where the pair is
the other way round, the rate is inverted before it is collected, and a rate of zero is no rate. -/

/-- The pair an exchange is asked for to learn about a stablecoin. -/
def stablecoin_pair (symbol : String) (exchange : Exchange) : Option (String × String) :=
  exchange.supported_stablecoin_pairs.find? fun pair =>
    decide (pair.1 = symbol) || decide (pair.2 = symbol)

/-- `call_exchange_for_stablecoin`. -/
def call_exchange_for_stablecoin (answers : ExchangeAnswers) (exchange : Exchange)
    (base_symbol quote_symbol : String) (timestamp : ℕ) (invert : Bool) :
    Except CallExchangeError ℕ :=
  let result := answers exchange
    { timestamp := timestamp
      quote_asset := ⟨quote_symbol, .Cryptocurrency⟩
      base_asset := ⟨base_symbol, .Cryptocurrency⟩ }
  if invert then
    result.bind fun rate =>
      match checked_invert_rate rate DECIMALS with
      | some inverted => .ok inverted
      | none => .error .NoRatesFound
  else result

/-- `get_stablecoin_rate` of `api.rs`. -/
def get_stablecoin_rate (answers : ExchangeAnswers) (exchanges : List Exchange)
    (timestamp : ℕ) (symbol : String) : QueryResult :=
  let results := exchanges.filterMap fun exchange =>
    (stablecoin_pair symbol exchange).map fun pair =>
      call_exchange_for_stablecoin answers exchange pair.1 pair.2 timestamp
        (decide (pair.1 = USDT))
  let rates := received_rates results
  if rates.isEmpty then .error .NoRatesFound
  else
    .ok
      { queried_exchange_rate := QueriedExchangeRate.new ⟨symbol, .Cryptocurrency⟩ usdt_asset
          timestamp rates exchanges.length rates.length none
        failed_exchanges := results.filterMap (failed_exchange exchanges) }

/-! ## Calls

`outcalls` counts requests, so that the limit on outcalls can be compared with what a call
really makes. In `undisturbed` nothing but the exchanges has a say. -/

/-- The answer to a call, from the answers of the exchanges. -/
def implement (listing_store : ListingStore) (now_secs : ℕ) (answers : ExchangeAnswers) :
    (call : Call) → Answer call
  | .get_cryptocurrency_usdt_rate exchanges asset timestamp =>
    get_cryptocurrency_usdt_rate listing_store now_secs answers exchanges asset timestamp
  | .get_stablecoin_rates exchanges symbols timestamp =>
    symbols.map (get_stablecoin_rate answers exchanges timestamp)

/-- The world in which only the exchanges answer and nothing else happens meanwhile. -/
def undisturbed {L : Type} (now_secs : ℕ) (answers : ExchangeAnswers) :
    World (State L) Call Answer :=
  ⟨fun _ call s => (implement s.listing_store now_secs answers call, s)⟩

/-- The number of HTTP requests a call makes. -/
def outcalls (listing_store : ListingStore) (now_secs : ℕ) : Call → ℕ
  | .get_cryptocurrency_usdt_rate exchanges asset _ =>
    (queried listing_store now_secs exchanges asset).length
  | .get_stablecoin_rates exchanges symbols _ =>
    (symbols.map fun symbol => (exchanges.filterMap (stablecoin_pair symbol)).length).sum

/-- A query for a cryptocurrency makes one request an exchange at most. -/
theorem outcalls_crypto_le (listing_store : ListingStore) (now_secs : ℕ)
    (exchanges : List Exchange) (asset : Asset) (timestamp : ℕ) :
    outcalls listing_store now_secs (.get_cryptocurrency_usdt_rate exchanges asset timestamp)
      ≤ exchanges.length := listing_store.length_exchanges_listing_le _ _ _

/-- A query for stablecoins makes one request an exchange and stablecoin at most. -/
theorem outcalls_stablecoins_le (listing_store : ListingStore) (now_secs : ℕ)
    (exchanges : List Exchange) (symbols : List String) (timestamp : ℕ) :
    outcalls listing_store now_secs (.get_stablecoin_rates exchanges symbols timestamp)
      ≤ exchanges.length * symbols.length := by
  have hle : ∀ n ∈ symbols.map fun symbol =>
      (exchanges.filterMap (stablecoin_pair symbol)).length, n ≤ exchanges.length := by
    intro n hn
    obtain ⟨symbol, -, rfl⟩ := List.mem_map.mp hn
    exact List.length_filterMap_le _ _
  have hsum := List.sum_le_card_nsmul _ _ hle
  rw [List.length_map, Nat.nsmul_eq_mul, Nat.mul_comm] at hsum
  exact hsum

/-! ## What an answer looks like

What the proofs about handlers use of an answer: it is built by `new`, for the symbol and the
minute that were asked for, and it is not empty. -/

/-- A rate against USDT as `new` builds it, for a given symbol and timestamp. Its rates may have
been dropped, all of them even; but those that are left are in range and in order. -/
structure FreshRate (rate : QueriedExchangeRate) (symbol : String) (timestamp : ℕ) : Prop where
  symbol_eq : rate.base_asset.symbol = symbol
  quote_eq : rate.quote_asset = usdt_asset
  timestamp_eq : rate.timestamp = timestamp
  decimals_eq : rate.decimals = none
  sorted : rate.rates.Pairwise (· ≤ ·)
  inRange : InRange rate.rates

omit [Unicode] in
theorem freshRate_new (asset : Asset) (timestamp : ℕ) (rates : List ℕ) (queried received : ℕ) :
    FreshRate (QueriedExchangeRate.new asset usdt_asset timestamp rates queried received none)
      asset.symbol timestamp :=
  ⟨rfl, rfl, rfl, rfl, QueriedExchangeRate.new_rates_pairwise _ _ _ _ _ _ _,
    QueriedExchangeRate.new_rates_inRange _ _ _ _ _ _ _⟩

/-- A successful query for a cryptocurrency: the rate is fresh and not empty. -/
theorem freshRate_of_crypto {listing_store : ListingStore} {now_secs : ℕ}
    {answers : ExchangeAnswers} {exchanges : List Exchange} {asset : Asset} {timestamp : ℕ}
    {response : QueriedExchangeRateWithFailedExchanges}
    (h : get_cryptocurrency_usdt_rate listing_store now_secs answers exchanges asset timestamp
      = .ok response) :
    FreshRate response.queried_exchange_rate asset.symbol timestamp
      ∧ response.queried_exchange_rate.rates ≠ [] := by
  unfold get_cryptocurrency_usdt_rate at h
  dsimp only at h
  split at h
  · cases h
  · split at h
    · cases h
    · rename_i hne
      rw [← Except.ok.inj h]
      refine ⟨freshRate_new asset timestamp _ _ _, fun hempty => hne ?_⟩
      rw [List.isEmpty_iff]
      exact hempty

end Queries

end CallExchangesImpl

end Xrc
