/-
`exchanges.rs`: what is read off the responses of the exchanges. Of a candle response it is one
price of the first candle, of a listing response the base assets that can be traded against
USDT. The responses are the JSON values they are deserialized into; what the exchanges write
into them is theirs.
-/
import Xrc.Listings
import Xrc.Normalization

set_option autoImplicit false

namespace Xrc

open Machine

abbrev Bytes : Type := List UInt8

/-! ## Texts of the standard library

The functions on texts and bytes that the parsers call, by their documented behaviour. Only
`from_utf8_lossy` takes more than a line: every longest invalid piece becomes one replacement
character, and how long such a piece is depends on the first byte of its sequence. -/

/-- A continuation byte of UTF-8. -/
def is_continuation (byte : UInt8) : Bool := 0x80 ≤ byte && byte ≤ 0xBF

/-- The second bytes a first byte of a longer sequence may have, and the length of the
sequence. -/
def sequence_of (first : UInt8) : Option (ℕ × UInt8 × UInt8) :=
  if 0xC2 ≤ first && first ≤ 0xDF then some (2, 0x80, 0xBF)
  else if first = 0xE0 then some (3, 0xA0, 0xBF)
  else if first = 0xED then some (3, 0x80, 0x9F)
  else if 0xE1 ≤ first && first ≤ 0xEF then some (3, 0x80, 0xBF)
  else if first = 0xF0 then some (4, 0x90, 0xBF)
  else if 0xF1 ≤ first && first ≤ 0xF3 then some (4, 0x80, 0xBF)
  else if first = 0xF4 then some (4, 0x80, 0x8F)
  else none

/-- The value of a multi-byte sequence. -/
def code_point (length : ℕ) (first : UInt8) (rest : Bytes) : Char :=
  Char.ofNat (rest.foldl (fun value byte => value * 64 + byte.toNat % 64)
    (first.toNat % 2 ^ (7 - length)))

/-- `String::from_utf8_lossy`, over at most `fuel` bytes: every longest invalid piece is one
replacement character. -/
def from_utf8_lossy_fuel : ℕ → Bytes → List Char
  | 0, _ => []
  | _ + 1, [] => []
  | fuel + 1, first :: bytes =>
    if first < 0x80 then Char.ofNat first.toNat :: from_utf8_lossy_fuel fuel bytes
    else
      match sequence_of first, bytes with
      | some (length, low, high), second :: more =>
        if low ≤ second && second ≤ high then
          let rest := second :: (more.take (length - 2)).takeWhile is_continuation
          (if rest.length + 1 = length then code_point length first rest else '\uFFFD')
            :: from_utf8_lossy_fuel fuel (bytes.drop rest.length)
        else '\uFFFD' :: from_utf8_lossy_fuel fuel bytes
      | _, _ => '\uFFFD' :: from_utf8_lossy_fuel fuel bytes

def from_utf8_lossy (bytes : Bytes) : String :=
  String.ofList (from_utf8_lossy_fuel bytes.length bytes)

/-- The digits of a decimal number. -/
def parse_digits (digits : List Char) : Option ℕ :=
  if digits ≠ [] ∧ digits.all Char.isDigit then
    some (digits.foldl (fun value digit => value * 10 + (digit.toNat - 48)) 0)
  else none

/-- `str::parse::<u64>`. -/
def parse_u64 (s : String) : Option ℕ :=
  let digits := match s.toList with
    | '+' :: digits => digits
    | digits => digits
  (parse_digits digits).filter fun value => decide (value < 2 ^ 64)

/-- `s.split(separator).next()`; a text has a first piece. -/
def first_piece (s : String) (separator : Char) : String :=
  String.ofList (s.toList.takeWhile fun c => c ≠ separator)

/-- `str::strip_suffix`. -/
def strip_suffix (s suffix : String) : Option String :=
  if suffix.toList <:+ s.toList then
    some (String.ofList (s.toList.take (s.toList.length - suffix.toList.length)))
  else none

/-! ## Floating-point numbers

Prices are doubles between the text of a response and the fixed-point rate. How they round is of
no account for any proof, only that the cast to a `u64` saturates; so the type and its
operations are a class. -/

/-- The double-precision numbers and what the responses' parsers do with them. -/
class F64 where
  Val : Type
  /-- `str::parse::<f64>`, or the text of its error. -/
  parse : String → Except String Val
  /-- `as f64`, of a `u64`. -/
  of_u64 : ℕ → Val
  /-- `as u64`, which saturates. -/
  to_u64 : Val → ℕ
  add : Val → Val → Val
  mul : Val → Val → Val
  div : Val → Val → Val
  is_finite : Val → Bool
  le : Val → Val → Bool
  eq : Val → Val → Bool
  to_u64_lt : ∀ x, to_u64 x < 2 ^ 64

/-! ## The errors

An error of the extraction carries the beginning of the body it is about, on one line. Its text
is part of the message a transform fails with. -/

namespace ExtractError

/-- How much of a body an error holds. -/
def MAX_ERROR_RESPONSE_LEN : ℕ := 4 * 1024

def response_snippet (bytes : Bytes) : String :=
  String.ofList ((from_utf8_lossy (bytes.take MAX_ERROR_RESPONSE_LEN)).toList.map fun c =>
    if c = '\n' then ' ' else c)

def json_deserialize (bytes : Bytes) (error : String) : ExtractError :=
  .JsonDeserialize (response_snippet bytes) error

def extract (bytes : Bytes) : ExtractError := .Extract (response_snippet bytes)

/-- How an error is displayed. -/
def to_string : ExtractError → String
  | MalformedFilterExpression filter errors =>
      let joined_errors := "\n".intercalate errors
      s!"Parsing filter ({filter}) failed: {joined_errors}"
  | Extract response => s!"Failed to extract rate from response: {response}"
  | JsonDeserialize response error =>
      s!"Failed to deserialize JSON: error: {error} response: {response}"
  | XmlDeserialize error => s!"Failed to deserialize XML: {error}"
  | InvalidNumericRate filter value =>
      s!"Invalid numeric rate found with filter ({filter}): {value}"
  | RateNotFound filter => s!"Rate could not be found with filter ({filter})"

end ExtractError

/-! ## The rates of the exchanges

Nine responses, each of its own shape, and one function for each that finds the price in it. The
shapes are those of the deserialized types; what the type does not name is not there. -/

section Rates

variable [F64]

/-- How the value of a response is written. -/
inductive ExtractedValue where
  | Str (value : String)
  | Float (value : F64.Val)

abbrev CoinbaseResponse : Type :=
  List (ℕ × F64.Val × F64.Val × F64.Val × F64.Val × F64.Val)

structure KuCoinResponse where
  data : List (String × String × String × String × String × String × String)

structure OkxResponse where
  data : List
    (String × String × String × String × String × String × String × String × String)

abbrev GateIoResponse : Type :=
  List (String × String × String × String × String × String × String × String)

abbrev MexcResponse : Type :=
  List (ℕ × String × String × String × String × String × ℕ × String)

abbrev PoloniexResponse : Type :=
  List (String × String × String × String × String × String × String × String × ℕ × ℕ × String
    × String × ℕ × ℕ)

structure CryptoResponseResultData where
  o : String

structure CryptoResponseResult where
  data : List CryptoResponseResultData

structure CryptoResponse where
  result : CryptoResponseResult

structure BitgetResponse where
  data : List (String × String × String × String × String × String × String × String)

structure DigifinexResponse where
  data : List (ℕ × F64.Val × F64.Val × F64.Val × F64.Val × F64.Val)

namespace Exchange

/-- The type a candle response is deserialized into. -/
def Response : Exchange → Type
  | Coinbase => CoinbaseResponse
  | KuCoin => KuCoinResponse
  | Okx => OkxResponse
  | GateIo => GateIoResponse
  | Mexc => MexcResponse
  | Poloniex => PoloniexResponse
  | CryptoCom => CryptoResponse
  | Bitget => BitgetResponse
  | Digifinex => DigifinexResponse

/-- The price an exchange's `extract_rate` takes, of the first candle. -/
def extract_fn : (self : Exchange) → self.Response → Option ExtractedValue
  | Coinbase, response =>
      response.head?.map fun (_, _, _, kline_3, _, _) => .Float kline_3
  | KuCoin, response => response.data.head?.map fun (_, kline_1, _) => .Str kline_1
  | Okx, response => response.data.head?.map fun (_, kline_1, _) => .Str kline_1
  | GateIo, response => response.head?.map fun (_, _, _, kline_3, _) => .Str kline_3
  | Mexc, response => response.head?.map fun (_, kline_1, _) => .Str kline_1
  | Poloniex, response => response.head?.map fun (_, _, kline_2, _) => .Str kline_2
  | CryptoCom, response => response.result.data.head?.map fun kline => .Str kline.o
  | Bitget, response => response.data.head?.map fun (_, kline_1, _) => .Str kline_1
  | Digifinex, response =>
      response.data.head?.map fun (_, _, _, _, _, kline_5) => .Float kline_5

end Exchange

end Rates

/-! ## The listings of the exchanges

The same for the listings: their types, and the function that reads a market off each item, its
two symbols and whether it can be traded. Which of the markets count is decided later, for all
exchanges alike. -/

structure CoinbaseProduct where
  base_currency : String
  quote_currency : String
  status : String
  trading_disabled : Bool

structure KuCoinSymbol where
  base_currency : String
  quote_currency : String
  enable_trading : Bool

structure KuCoinSymbolsResponse where
  data : List KuCoinSymbol

structure OkxInstrument where
  base_ccy : String
  quote_ccy : String
  state : String

structure OkxInstrumentsResponse where
  data : List OkxInstrument

structure GateIoPair where
  base : String
  quote : String
  trade_status : String

structure MexcDefaultSymbols where
  data : List String

structure PoloniexMarket where
  base_currency_name : String
  quote_currency_name : String
  state : String

structure CryptoComInstrument where
  base_ccy : String
  quote_ccy : String
  inst_type : String
  tradable : Bool

structure CryptoComInstrumentsResult where
  data : List CryptoComInstrument

structure CryptoComInstrumentsResponse where
  result : CryptoComInstrumentsResult

structure BitgetSymbol where
  base_coin : String
  quote_coin : String
  status : String

structure BitgetSymbolsResponse where
  data : List BitgetSymbol

structure DigifinexSymbol where
  base_asset : String
  quote_asset : String
  status : String

structure DigifinexSymbolsResponse where
  symbol_list : List DigifinexSymbol

namespace Exchange

/-- The type a listing response is deserialized into. -/
def Listing : Exchange → Type
  | Coinbase => List CoinbaseProduct
  | KuCoin => KuCoinSymbolsResponse
  | Okx => OkxInstrumentsResponse
  | GateIo => List GateIoPair
  | Mexc => MexcDefaultSymbols
  | Poloniex => List PoloniexMarket
  | CryptoCom => CryptoComInstrumentsResponse
  | Bitget => BitgetSymbolsResponse
  | Digifinex => DigifinexSymbolsResponse

/-- The markets an exchange's `extract_listed_usdt_bases` reads off its listing. -/
def markets_fn : (self : Exchange) → self.Listing → List ListedMarket
  | Coinbase, products => products.map fun product =>
      ⟨product.base_currency, product.quote_currency,
        product.status == "online" && !product.trading_disabled⟩
  | KuCoin, response => response.data.map fun symbol =>
      ⟨symbol.base_currency, symbol.quote_currency, symbol.enable_trading⟩
  | Okx, response => response.data.map fun instrument =>
      ⟨instrument.base_ccy, instrument.quote_ccy, instrument.state == "live"⟩
  | GateIo, pairs => pairs.map fun pair =>
      ⟨pair.base, pair.quote, pair.trade_status == "tradable"⟩
  | Mexc, response => response.data.map fun symbol =>
      match strip_suffix symbol USDT with
      | some base => if base ≠ "" then ⟨base, USDT, true⟩ else ⟨symbol, "", true⟩
      | none => ⟨symbol, "", true⟩
  | Poloniex, markets => markets.map fun market =>
      ⟨market.base_currency_name, market.quote_currency_name, market.state == "NORMAL"⟩
  | CryptoCom, response =>
      (response.result.data.filter fun instrument => instrument.inst_type == "CCY_PAIR").map
        fun instrument => ⟨instrument.base_ccy, instrument.quote_ccy, instrument.tradable⟩
  | Bitget, response => response.data.map fun symbol =>
      ⟨symbol.base_coin, symbol.quote_coin, symbol.status == "online"⟩
  | Digifinex, response => response.symbol_list.map fun symbol =>
      ⟨symbol.base_asset, symbol.quote_asset, symbol.status == "TRADING"⟩

end Exchange

/-! ## From the bytes of a response

Deserializing gives a value of the type of the exchange, or an error with its text. From there
on the extraction is one function for all exchanges. -/

/-- `serde_json` and `serde_xml_rs`, for the responses of the exchanges: the value of a body, or
the text of the error. -/
class ExchangeSerde [F64] where
  from_slice : (exchange : Exchange) → Bytes → Except String exchange.Response
  listing_from_slice : (exchange : Exchange) → Bytes → Except String exchange.Listing

section Extract

variable [F64] [ExchangeSerde]

/-- `extract_rate`, of the deserialized response and the function that finds the value. -/
def extract_rate {R : Type} (bytes : Bytes) (response : Except String R)
    (extract_fn : R → Option ExtractedValue) : Except ExtractError ℕ :=
  match response with
  | .error err => .error (.json_deserialize bytes err)
  | .ok response =>
    match extract_fn response with
    | none => .error (.extract bytes)
    | some (.Str value) =>
      match F64.parse value with
      | .error err => .error (.json_deserialize bytes err)
      | .ok rate => .ok (F64.to_u64 (F64.mul rate (F64.of_u64 RATE_UNIT)))
    | some (.Float rate) => .ok (F64.to_u64 (F64.mul rate (F64.of_u64 RATE_UNIT)))

namespace Exchange

/-- `Exchange::extract_rate`. -/
def extract_rate (self : Exchange) (bytes : Bytes) : Except ExtractError ℕ :=
  Xrc.extract_rate bytes (ExchangeSerde.from_slice self bytes) self.extract_fn

/-- `Exchange::extract_listed_usdt_bases`. -/
def extract_listed_usdt_bases [Unicode] (self : Exchange) (bytes : Bytes) :
    Except ExtractError ListedPairs :=
  match ExchangeSerde.listing_from_slice self bytes with
  | .error err => .error (.json_deserialize bytes err)
  | .ok listing => .ok (extract_listed_pairs (self.markets_fn listing))

end Exchange

end Extract

end Xrc
