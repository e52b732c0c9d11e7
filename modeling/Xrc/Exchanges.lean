/-
`exchanges.rs` and `listings.rs` as far as the price logic reads them: which exchanges
there are, which of them can be reached, which stablecoin pairs they trade, and the
discovered listings that gate the queries for a base asset. What comes back over HTTP
from an exchange is the result of `call_exchange`: a rate or one of its errors.
-/
import Xrc.Types
import Xrc.Machine
import Mathlib.Data.Finset.Basic

set_option autoImplicit false

namespace Xrc

/-! ## The exchanges

A closed list, compiled into the canister. What differs between them, and matters to a price, is
the name, whether an IPv6 subnet can reach them, and which stablecoins they trade. -/

inductive Exchange where
  | Coinbase
  | KuCoin
  | Okx
  | GateIo
  | Mexc
  | Poloniex
  | CryptoCom
  | Bitget
  | Digifinex
  deriving DecidableEq, Repr

/-- All of the known exchanges. -/
def EXCHANGES : List Exchange :=
  [.Coinbase, .KuCoin, .Okx, .GateIo, .Mexc, .Poloniex, .CryptoCom, .Bitget, .Digifinex]

namespace Exchange

/-- The exchange's canonical name. -/
def name : Exchange → String
  | Coinbase => "Coinbase"
  | KuCoin => "KuCoin"
  | Okx => "Okx"
  | GateIo => "GateIo"
  | Mexc => "Mexc"
  | Poloniex => "Poloniex"
  | CryptoCom => "CryptoCom"
  | Bitget => "Bitget"
  | Digifinex => "Digifinex"

/-- Checks if the exchange supports IPv6. -/
def supports_ipv6 : Exchange → Bool
  | GateIo | Mexc | Poloniex => false
  | Coinbase | KuCoin | Okx | CryptoCom | Bitget | Digifinex => true

/-- The stablecoin pairs the exchange is asked for. -/
def supported_stablecoin_pairs : Exchange → List (String × String)
  | Coinbase | Poloniex => [(USDT, USDC)]
  | KuCoin => [(USDC, USDT)]
  | CryptoCom => []
  | Okx | GateIo | Mexc | Bitget | Digifinex => [(USDS, USDT), (USDC, USDT)]

/-- Whether the exchange should be called. -/
def is_available [Features] (self : Exchange) : Bool :=
  Features.ipv4_support || self.supports_ipv6

end Exchange

/-- `get_available_exchanges`. -/
def get_available_exchanges [Features] : List Exchange := EXCHANGES.filter Exchange.is_available

/-- `available_exchanges_count`. -/
def available_exchanges_count [Features] : ℕ := get_available_exchanges.length

theorem available_exchanges_count_le [Features] : available_exchanges_count ≤ 9 :=
  List.length_filter_le _ _

/-! ## Calling an exchange

To the price logic an outcall is a function of the exchange and the arguments. How such an
answer comes about, through the management canister and a transform, is the subject of
`HttpOutcall`. -/

/-- The errors of `call_exchange`. -/
inductive CallExchangeError where
  | Http (exchange error : String)
  | Candid (exchange error : String)
  | NoRatesFound
  | NoData (exchange : String)
  deriving DecidableEq, Repr

/-- The arguments of a call to an exchange. -/
structure CallExchangeArgs where
  timestamp : ℕ
  quote_asset : Asset
  base_asset : Asset
  deriving DecidableEq, Repr

/-- How the exchanges answer: what `call_exchange` returns for each exchange and each
set of arguments. -/
abbrev ExchangeAnswers : Type := Exchange → CallExchangeArgs → Except CallExchangeError ℕ

/-! ## The discovered listings

The gate only ever leaves exchanges out, and without a fresh listing it leaves out none. So all
that a wrong listing can do to a price is to take away sources. -/

/-- A discovered listing older than this is not trusted. -/
def MAX_LISTING_STALENESS_SECS : ℕ := 3 * ONE_DAY_SECONDS

/-- The last accepted listing of one exchange. -/
structure ExchangeListing where
  /-- The base assets tradable against USDT, in upper case. -/
  bases : Finset String
  /-- Total spot markets, across all quotes, in the last accepted refresh. -/
  total_markets : ℕ
  /-- Timestamp (seconds) of the last accepted refresh. -/
  last_success_secs : ℕ

/-- The last accepted listing of each exchange, by name. -/
structure ListingStore where
  by_exchange : String → Option ExchangeListing

namespace ListingStore

variable [Unicode]

/-- `ListingStore::default()`. -/
def default : ListingStore := ⟨fun _ => none⟩

/-- Whether the crypto path should query `exchange` for `base`/USDT. -/
def should_query (self : ListingStore) (exchange base : String) (now_secs : ℕ) : Bool :=
  match self.by_exchange exchange with
  | none => true
  | some listing =>
    let age := now_secs - listing.last_success_secs
    decide (MAX_LISTING_STALENESS_SECS < age)
      || decide (to_uppercase base ∈ listing.bases)

/-- `exchanges_listing_base_against_usdt`. -/
def exchanges_listing_base_against_usdt (self : ListingStore) (exchanges : List Exchange)
    (base : String) (now_secs : ℕ) : List Exchange :=
  exchanges.filter fun exchange => self.should_query exchange.name base now_secs

/-- The listings only ever drop exchanges. -/
theorem length_exchanges_listing_le (self : ListingStore) (exchanges : List Exchange)
    (base : String) (now_secs : ℕ) :
    (self.exchanges_listing_base_against_usdt exchanges base now_secs).length
      ≤ exchanges.length := List.length_filter_le _ _

end ListingStore

end Xrc
