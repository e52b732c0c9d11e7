/-
The data the exchange rate canister exchanges with its callers (`ic-xrc-types`), the
constants of `lib.rs`, the error constructors of `errors.rs`, and the two things the
rest of the model takes as given: the features the crate is compiled with, and the
Unicode tables behind `char::to_uppercase` and `char::is_alphanumeric`.
-/
import Mathlib.Data.Nat.Basic
import Mathlib.Tactic.Common

set_option autoImplicit false

namespace Xrc

/-! ## What the build fixes

Neither the Cargo features nor the Unicode tables are known to the code, so they are parameters
of the model: a theorem holds for every build and for all tables that agree on ASCII. The
witnesses use `defaultBuild` and `asciiUnicode`. -/

/-- The Cargo features of the `xrc` crate that change what it computes. -/
class Features where
  /-- `ipv4-support`: every exchange and every forex source is available. -/
  ipv4_support : Bool
  /-- `disable-forex-timezone-offset`. -/
  disable_forex_timezone_offset : Bool
  /-- `disable-forex-weekend-check`. -/
  disable_forex_weekend_check : Bool

/-- A build with none of the features. -/
@[reducible] def defaultBuild : Features where
  ipv4_support := false
  disable_forex_timezone_offset := false
  disable_forex_weekend_check := false

/-- The two Unicode tables the canister reads through the standard library. Only their
values on ASCII are fixed; everywhere else they are any tables. -/
class Unicode where
  /-- `char::to_uppercase`, one character to its full upper-case mapping. -/
  to_uppercase : Char → List Char
  /-- `char::is_alphanumeric`. -/
  is_alphanumeric : Char → Bool
  to_uppercase_ascii : ∀ c : Char, c.toNat < 128 → to_uppercase c = [c.toUpper]
  is_alphanumeric_ascii : ∀ c : Char, c.toNat < 128 → is_alphanumeric c = c.isAlphanum

/-- The tables that treat every character outside ASCII as caseless. -/
@[reducible] def asciiUnicode : Unicode where
  to_uppercase c := [c.toUpper]
  is_alphanumeric c := c.isAlphanum
  to_uppercase_ascii _ _ := rfl
  is_alphanumeric_ascii _ _ := rfl

/-- `str::to_uppercase`. -/
def to_uppercase [Unicode] (s : String) : String :=
  String.ofList (s.toList.flatMap Unicode.to_uppercase)

/-! ## The constants of `lib.rs`

The amounts are in cycles, the times in seconds, and rates are scaled by `RATE_UNIT` unless they
say otherwise. -/

/-- Rates may not deviate by more than one tenth of the smallest considered rate. -/
def RATE_DEVIATION_DIVISOR : ℕ := 10

def XRC_REQUEST_CYCLES_COST : ℕ := 1_000_000_000
def XRC_OUTBOUND_HTTP_CALL_CYCLES_COST : ℕ := 240_000_000
def XRC_BASE_CYCLES_COST : ℕ := 20_000_000
def XRC_MINIMUM_FEE_COST : ℕ := 1_000_000

/-- The maximum relative difference between accepted rates is 20%. -/
def MAX_RELATIVE_DIFFERENCE_DIVISOR : ℕ := 5

def USD : String := "USD"
def USDT : String := "USDT"
def USDS : String := "USDS"
def USDC : String := "USDC"
def BTC : String := "BTC"
def ETH : String := "ETH"
def ICP : String := "ICP"

def PRIVILEGED_CRYPTO_ASSETS : List String := [BTC, ETH, ICP, USDT]

/-- The number of decimals of a rate that says nothing else. -/
def DECIMALS : ℕ := 9

/-- The rate unit is `10 ^ DECIMALS`. -/
def RATE_UNIT : ℕ := 1_000_000_000

def ONE_MINUTE_SECONDS : ℕ := 60
def ONE_HOUR_SECONDS : ℕ := 60 * ONE_MINUTE_SECONDS
def ONE_DAY_SECONDS : ℕ := 24 * ONE_HOUR_SECONDS

/-- A principal identifier, as its bytes. -/
structure Principal where
  bytes : List ℕ
  deriving DecidableEq, Repr

/-- `Principal::anonymous()`. -/
def Principal.anonymous : Principal := ⟨[4]⟩

/-- The Cycles Minting Canister, the NNS dapp and NNS Governance. -/
def PRIVILEGED_CANISTER_IDS : List Principal :=
  [⟨[0x00, 0x00, 0x00, 0x00, 0x00, 0x00, 0x00, 0x04, 0x01, 0x01]⟩,
   ⟨[0x00, 0x00, 0x00, 0x00, 0x00, 0x00, 0x00, 0x08, 0x01, 0x01]⟩,
   ⟨[0x00, 0x00, 0x00, 0x00, 0x00, 0x00, 0x00, 0x01, 0x01, 0x01]⟩]

/-! ## Requests and answers

Field by field as in the Candid interface. The messages of `Other` are kept with their code,
since some results are about which texts a caller can be sent. -/

inductive AssetClass where
  | Cryptocurrency
  | FiatCurrency
  deriving DecidableEq, Repr

structure Asset where
  symbol : String
  class' : AssetClass
  deriving DecidableEq, Repr

structure GetExchangeRateRequest where
  base_asset : Asset
  quote_asset : Asset
  timestamp : Option ℕ
  deriving DecidableEq, Repr

structure ExchangeRateMetadata where
  decimals : ℕ
  base_asset_num_queried_sources : ℕ
  base_asset_num_received_rates : ℕ
  quote_asset_num_queried_sources : ℕ
  quote_asset_num_received_rates : ℕ
  standard_deviation : ℕ
  forex_timestamp : Option ℕ
  deriving DecidableEq, Repr

structure ExchangeRate where
  base_asset : Asset
  quote_asset : Asset
  timestamp : ℕ
  rate : ℕ
  metadata : ExchangeRateMetadata
  deriving DecidableEq, Repr

structure OtherError where
  code : ℕ
  description : String
  deriving DecidableEq, Repr

inductive ExchangeRateError where
  | AnonymousPrincipalNotAllowed
  | Pending
  | CryptoBaseAssetNotFound
  | CryptoQuoteAssetNotFound
  | StablecoinRateNotFound
  | StablecoinRateTooFewRates
  | StablecoinRateZeroRate
  | ForexInvalidTimestamp
  | ForexBaseAssetNotFound
  | ForexQuoteAssetNotFound
  | ForexAssetsNotFound
  | RateLimited
  | NotEnoughCycles
  | InconsistentRatesReceived
  | Other (error : OtherError)
  deriving DecidableEq, Repr

/-- `usdt_asset()`. -/
def usdt_asset : Asset := ⟨USDT, .Cryptocurrency⟩

/-- `usd_asset()`. -/
def usd_asset : Asset := ⟨USD, .FiatCurrency⟩

/-! ## The coded errors of `errors.rs`

`Other` is the only error with a code and a text. Four of them exist, one for a timestamp that
is not over yet, two for symbols, and one for a rate that is not valid. -/

namespace errors

def TIMESTAMP_IS_IN_FUTURE_ERROR_CODE : ℕ := 1
def BASE_ASSET_INVALID_SYMBOL_ERROR_CODE : ℕ := 2
def QUOTE_ASSET_INVALID_SYMBOL_ERROR_CODE : ℕ := 3
def INVALID_RATE_ERROR_CODE : ℕ := 4

def BASE_ASSET_INVALID_SYMBOL_ERROR_MESSAGE : String := "Base asset symbol is invalid"
def QUOTE_ASSET_INVALID_SYMBOL_ERROR_MESSAGE : String := "Quote asset symbol is invalid"
def INVALID_RATE_ERROR_MESSAGE : String := "The computed rate is invalid"

def timestamp_is_in_future_error (requested_timestamp current_timestamp : ℕ) :
    ExchangeRateError :=
  .Other
    { code := TIMESTAMP_IS_IN_FUTURE_ERROR_CODE
      description := "Current IC time is " ++ toString current_timestamp ++ ". "
        ++ toString requested_timestamp ++ " is in the future!" }

def base_asset_symbol_invalid_error : ExchangeRateError :=
  .Other
    { code := BASE_ASSET_INVALID_SYMBOL_ERROR_CODE
      description := BASE_ASSET_INVALID_SYMBOL_ERROR_MESSAGE }

def quote_asset_symbol_invalid_error : ExchangeRateError :=
  .Other
    { code := QUOTE_ASSET_INVALID_SYMBOL_ERROR_CODE
      description := QUOTE_ASSET_INVALID_SYMBOL_ERROR_MESSAGE }

/-- The error `validate` returns for a median outside its range. -/
def invalid_rate_error : ExchangeRateError :=
  .Other { code := INVALID_RATE_ERROR_CODE, description := INVALID_RATE_ERROR_MESSAGE }

end errors

end Xrc
