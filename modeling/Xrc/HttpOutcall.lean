/-
`http.rs` and the outcalls of `lib.rs`: a request to the management canister, the three
transforms its answers go through, and the three calls that send one and read the other. A
transform runs on every replica, on the raw response that replica received; it knows the source
only by the context that was sent along.

Each transform is a relay of `Xrc.Relay`. So what a call returns is what its own source's parser
makes of a raw response (`outcalls_read_their_source`), and replicas agree exactly if their
responses parse alike (`replicas_agree_iff`).
-/
import Xrc.Relay
import Xrc.ForexSources
import Xrc.Labels

set_option autoImplicit false

namespace Xrc

open Machine

/-! ## Requests to the management canister

`http.rs` is a builder: each method returns the request with one more field set. Headers are a
list of which the user agent is replaced in place, the names being compared without regard to
case. -/

namespace http

inductive HttpMethod where
  | GET
  | POST
  | HEAD
  deriving DecidableEq, Repr

structure HttpHeader where
  name : String
  value : String
  deriving DecidableEq, Repr

/-- A response, raw or transformed. -/
structure HttpResponse where
  status : ℕ
  headers : List HttpHeader
  body : Bytes
  deriving DecidableEq

/-- A method of a canister. -/
structure TransformFunc where
  principal : Principal
  method : String

structure TransformContext where
  function : TransformFunc
  context : Bytes

structure TransformArgs where
  response : HttpResponse
  context : Bytes

structure CanisterHttpRequestArgument where
  url : String
  max_response_bytes : Option ℕ
  method : HttpMethod
  headers : List HttpHeader
  body : Option Bytes
  transform : Option TransformContext

structure CanisterHttpRequest where
  args : CanisterHttpRequestArgument
  cycles : ℕ

namespace CanisterHttpRequest

def new : CanisterHttpRequest where
  cycles := 0
  args :=
    { url := ""
      max_response_bytes := none
      headers := [⟨"User-Agent", DEFAULT_USER_AGENT⟩]
      body := none
      method := .GET
      transform := none }

def url (self : CanisterHttpRequest) (url : String) : CanisterHttpRequest :=
  { self with args := { self.args with url := url } }

def method (self : CanisterHttpRequest) (http_method : HttpMethod) : CanisterHttpRequest :=
  { self with args := { self.args with method := http_method } }

def get (self : CanisterHttpRequest) (url : String) : CanisterHttpRequest :=
  (self.url url).method .GET

def add_headers (self : CanisterHttpRequest) (headers : List (String × String)) :
    CanisterHttpRequest :=
  { self with args := { self.args with
      headers := self.args.headers ++ headers.map fun header => ⟨header.1, header.2⟩ } }

/-- The first header of the name is replaced, or one is added. -/
def replace_user_agent (user_agent : String) : List HttpHeader → List HttpHeader
  | [] => [⟨"User-Agent", user_agent⟩]
  | header :: headers =>
    if eq_ignore_ascii_case header.name "User-Agent" then
      { header with value := user_agent } :: headers
    else header :: replace_user_agent user_agent headers

def user_agent (self : CanisterHttpRequest) (user_agent : String) : CanisterHttpRequest :=
  { self with args := { self.args with
      headers := replace_user_agent user_agent self.args.headers } }

def transform_context (self : CanisterHttpRequest) (canister_self : Principal) (method : String)
    (context : Bytes) : CanisterHttpRequest :=
  { self with args := { self.args with
      transform := some ⟨⟨canister_self, method⟩, context⟩ } }

def max_response_bytes (self : CanisterHttpRequest) (max_response_bytes : ℕ) :
    CanisterHttpRequest :=
  { self with args := { self.args with max_response_bytes := some max_response_bytes } }

def with_cycles (self : CanisterHttpRequest) (cycles : ℕ) : CanisterHttpRequest :=
  { self with cycles := cycles }

end CanisterHttpRequest

end http

/-! ## What is written and read back

Whatever travels with a request, and what a transform puts into a body, is encoded by `candid`.
All that is used of it is that a value it has written is read back as that value. -/

structure ForexContext where
  id : ℕ
  payload : Bytes
  deriving DecidableEq

/-- `candid`: whatever it writes it reads back. -/
class Encoding where
  Error : Type
  to_string : Error → String
  /-- `(usize,)`. -/
  index : Codec Error Bytes ℕ
  /-- `(Option<u64>,)`. -/
  rate : Codec Error Bytes (Option ℕ)
  /-- `(BTreeSet<String>, u64)`. -/
  listing : Codec Error Bytes (Finset String × ℕ)
  /-- `(u64,)`. -/
  timestamp : Codec Error Bytes ℕ
  context : Codec Error Bytes ForexContext
  rate_map : Codec Error Bytes ForexRateMap

/-- How a transform fails. -/
inductive Trap where
  | explicit (message : String)
  | panic
  deriving DecidableEq, Repr

/-- The application-subnet feature, which changes what an outcall is paid. -/
class Subnet where
  application_subnet : Bool

namespace Exchange

section Encode

variable [Encoding]

/-- `Exchange::get_index`. -/
def get_index (self : Exchange) : ℕ := EXCHANGES.idxOf self

omit [Encoding] in
/-- The exchange at its own position is itself. -/
theorem getElem?_get_index (self : Exchange) : EXCHANGES[self.get_index]? = some self := by
  cases self <;> rfl

def encode_context (self : Exchange) : Except Encoding.Error Bytes :=
  Encoding.index.encode self.get_index

def decode_context (bytes : Bytes) : Except Encoding.Error ℕ := Encoding.index.decode bytes

def encode_response (rate : Option ℕ) : Except Encoding.Error Bytes := Encoding.rate.encode rate

def decode_response (bytes : Bytes) : Except Encoding.Error (Option ℕ) := Encoding.rate.decode bytes

def encode_listing_response (listed : ListedPairs) : Except Encoding.Error Bytes :=
  Encoding.listing.encode (listed.bases, listed.total_markets)

/-- The total is cast to a `usize` of 32 bits. -/
def decode_listing_response (bytes : Bytes) : Except Encoding.Error ListedPairs :=
  (Encoding.listing.decode bytes).map fun (bases, total_markets) =>
    ⟨bases, truncate 32 total_markets⟩

end Encode

def cycles [Subnet] (_ : Exchange) : ℕ := if Subnet.application_subnet then 500_000_000 else 0

def max_response_bytes (_ : Exchange) : ℕ := 3 * ONE_KIB

def DEFAULT_LISTING_MAX_RESPONSE_BYTES : ℕ := 1_900_000

def listing_max_response_bytes (_ : Exchange) : ℕ := DEFAULT_LISTING_MAX_RESPONSE_BYTES

def listing_url : Exchange → String
  | Coinbase => "https://api.exchange.coinbase.com/products"
  | KuCoin => "https://api.kucoin.com/api/v1/symbols"
  | Okx => "https://www.okx.com/api/v5/public/instruments?instType=SPOT"
  | GateIo => "https://api.gateio.ws/api/v4/spot/currency_pairs"
  | Mexc => "https://api.mexc.com/api/v3/defaultSymbols"
  | Poloniex => "https://api.poloniex.com/markets"
  | CryptoCom => "https://api.crypto.com/exchange/v1/public/get-instruments"
  | Bitget => "https://api.bitget.com/api/v2/spot/public/symbols"
  | Digifinex => "https://openapi.digifinex.com/v3/spot/symbols"

end Exchange

namespace Forex

structure ContextArgs where
  timestamp : ℕ

section Encode

variable [Encoding]

def encode_payload (_ : Forex) (args : ContextArgs) : Except Encoding.Error Bytes :=
  Encoding.timestamp.encode args.timestamp

def encode_context (self : Forex) (args : ContextArgs) : Except Encoding.Error Bytes :=
  match self.encode_payload args with
  | .error error => .error error
  | .ok payload => Encoding.context.encode ⟨self.get_id, payload⟩

def decode_context (bytes : Bytes) : Except Encoding.Error ForexContext :=
  Encoding.context.decode bytes

def decode_response (bytes : Bytes) : Except Encoding.Error ForexRateMap :=
  Encoding.rate_map.decode bytes

end Encode

def cycles [Subnet] (_ : Forex) : ℕ := if Subnet.application_subnet then 1_000_000_000 else 0

end Forex

/-! ## The transforms

The three transforms decode the context, parse the body and encode what they found. They fail
where the source traps or panics, and the text of the failure names what could not be decoded,
parsed or encoded. -/

section Transforms

variable [F64] [Chrono] [Unicode] [Encoding] [ExchangeSerde] [ForexSerde]

/-- The error of a transform of a forex response. -/
inductive TransformHttpResponseError where
  | Extract (error : ExtractError)
  | Candid (error : Encoding.Error)

def TransformHttpResponseError.to_string : TransformHttpResponseError → String
  | .Extract error => let text := error.to_string; s!"Failed to extract rate: {text}"
  | .Candid error => let text := Encoding.to_string error; s!"Failed to encode/decode: {text}"

/-- `IsForex::transform_http_response_body`; it is `none` when the extraction panics. -/
def Forex.transform_http_response_body (self : Forex) (body payload : Bytes) :
    Option (Except TransformHttpResponseError Bytes) :=
  match Encoding.timestamp.decode payload with
  | .error error => some (.error (.Candid error))
  | .ok timestamp =>
    match self.extract_rate body timestamp with
    | none => none
    | some (.error error) => some (.error (.Extract error))
    | some (.ok forex_rate_map) =>
      match Encoding.rate_map.encode forex_rate_map with
      | .error error => some (.error (.Candid error))
      | .ok encoded => some (.ok encoded)

def undecoded_context (err : Encoding.Error) : Trap :=
  let text := Encoding.to_string err
  .explicit s!"Failed to decode context: {text}"

def unknown_exchange (index : ℕ) : Trap :=
  .explicit s!"Provided index {index} does not map to any supported exchange."

def unknown_forex (id : ℕ) : Trap :=
  .explicit s!"Provided forex index {id} does not map to any supported forex source."

/-- `{:?}` of an `Option<u64>`. -/
def debug_rate : Option ℕ → String
  | some rate => s!"Some({rate})"
  | none => "None"

def unencoded_rate (rate : Option ℕ) (err : Encoding.Error) : Trap :=
  let rate := debug_rate rate
  let text := Encoding.to_string err
  .explicit s!"failed to encode rate ({rate}): {text}"

def unencoded_listing (err : Encoding.Error) : Trap :=
  let text := Encoding.to_string err
  .explicit s!"failed to encode listing: {text}"

/-- A response without its headers and with another body. -/
def sanitized (response : http.HttpResponse) (body : Bytes) : http.HttpResponse :=
  { response with headers := [], body := body }

/-- The rate of a response; a response without a data point has none. -/
def Exchange.extracted (exchange : Exchange) (body : Bytes) : Except Trap (Option ℕ) :=
  match exchange.extract_rate body with
  | .ok rate => .ok (some rate)
  | .error (.Extract _) => .ok none
  | .error err => .error (.explicit err.to_string)

def transform_exchange_http_response (args : http.TransformArgs) :
    Except Trap http.HttpResponse :=
  match Exchange.decode_context args.context with
  | .error err => .error (undecoded_context err)
  | .ok index =>
    match EXCHANGES[index]? with
    | none => .error (unknown_exchange index)
    | some exchange =>
      match exchange.extracted args.response.body with
      | .error trap => .error trap
      | .ok rate =>
        match Exchange.encode_response rate with
        | .error err => .error (unencoded_rate rate err)
        | .ok body => .ok (sanitized args.response body)

def transform_listing_http_response (args : http.TransformArgs) :
    Except Trap http.HttpResponse :=
  match Exchange.decode_context args.context with
  | .error err => .error (undecoded_context err)
  | .ok index =>
    match EXCHANGES[index]? with
    | none => .error (unknown_exchange index)
    | some exchange =>
      match exchange.extract_listed_usdt_bases args.response.body with
      | .error err => .error (.explicit err.to_string)
      | .ok listed =>
        match Exchange.encode_listing_response listed with
        | .error err => .error (unencoded_listing err)
        | .ok body => .ok (sanitized args.response body)

def transform_forex_http_response (args : http.TransformArgs) : Except Trap http.HttpResponse :=
  match Forex.decode_context args.context with
  | .error err => .error (undecoded_context err)
  | .ok context =>
    match FOREX_SOURCES[context.id]? with
    | none => .error (unknown_forex context.id)
    | some forex =>
      match forex.transform_http_response_body args.response.body context.payload with
      | none => .error .panic
      | some (.error err) => .error (.explicit err.to_string)
      | some (.ok body) => .ok (sanitized args.response body)

/-- The transforms among the canister's query methods. -/
def transform_method (method : String) :
    Option (http.TransformArgs → Except Trap http.HttpResponse) :=
  if method = "transform_exchange_http_response" then some transform_exchange_http_response
  else if method = "transform_forex_http_response" then some transform_forex_http_response
  else if method = "transform_listing_http_response" then some transform_listing_http_response
  else none

/-! ### The transforms as relays

One transform is like the other but for the three codecs and the parser. `Xrc.Relay` has the
general case: a response carries to the caller the value which the parser found, and two raw
responses are made the same exactly when they carry the same value. -/

/-- What the payload of a listing response is made of. -/
def Exchange.listed (exchange : Exchange) (body : Bytes) : Except Trap (Finset String × ℕ) :=
  match exchange.extract_listed_usdt_bases body with
  | .error err => .error (.explicit err.to_string)
  | .ok listed => .ok (listed.bases, listed.total_markets)

/-- The rates of a forex response for a day. -/
def Forex.extracted (forex : Forex) (timestamp : ℕ) (body : Bytes) : Except Trap ForexRateMap :=
  match forex.extract_rate body timestamp with
  | none => .error .panic
  | some (.error error) =>
      .error (.explicit (TransformHttpResponseError.Extract error).to_string)
  | some (.ok forex_rate_map) => .ok forex_rate_map

/-- The relay of a rate: under the index of an exchange, the rate its response holds. -/
def rate_relay : Relay Encoding.Error Bytes ℕ Bytes (Option ℕ) Trap where
  context := Encoding.index
  result := Encoding.rate
  reduce index body :=
    match EXCHANGES[index]? with
    | none => .error (unknown_exchange index)
    | some exchange => exchange.extracted body
  unread := undecoded_context
  unwritten := unencoded_rate

/-- The relay of a listing. -/
def listing_relay : Relay Encoding.Error Bytes ℕ Bytes (Finset String × ℕ) Trap where
  context := Encoding.index
  result := Encoding.listing
  reduce index body :=
    match EXCHANGES[index]? with
    | none => .error (unknown_exchange index)
    | some exchange => exchange.listed body
  unread := undecoded_context
  unwritten _ := unencoded_listing

/-- The relay of a forex source's rates: under the position of the source and a day. -/
def forex_relay : Relay Encoding.Error Bytes ForexContext Bytes ForexRateMap Trap where
  context := Encoding.context
  result := Encoding.rate_map
  reduce context body :=
    match FOREX_SOURCES[context.id]? with
    | none => .error (unknown_forex context.id)
    | some forex =>
      match Encoding.timestamp.decode context.payload with
      | .error error => .error (.explicit (TransformHttpResponseError.Candid error).to_string)
      | .ok timestamp => forex.extracted timestamp body
  unread := undecoded_context
  unwritten _ error := .explicit (TransformHttpResponseError.Candid error).to_string

section Reduce

variable {body : Bytes}

omit [Chrono] [Unicode] [ForexSerde] in
theorem reduce_rate_relay (exchange : Exchange) :
    rate_relay.reduce exchange.get_index body = exchange.extracted body := by
  simp only [rate_relay, exchange.getElem?_get_index]

omit [Chrono] [ForexSerde] in
theorem reduce_listing_relay (exchange : Exchange) :
    listing_relay.reduce exchange.get_index body = exchange.listed body := by
  simp only [listing_relay, exchange.getElem?_get_index]

omit [ExchangeSerde] in
/-- The source and the day of a call are read back from its context. -/
theorem reduce_forex_relay {forex : Forex} {timestamp : ℕ} {payload : Bytes}
    (hpayload : Encoding.timestamp.encode timestamp = .ok payload) :
    forex_relay.reduce ⟨forex.get_id, payload⟩ body = forex.extracted timestamp body := by
  simp only [forex_relay, forex.getElem?_get_id, Encoding.timestamp.decode_encode hpayload]

end Reduce

omit [Chrono] [Unicode] [ForexSerde] in
theorem transform_exchange_http_response_eq (args : http.TransformArgs) :
    transform_exchange_http_response args
      = (rate_relay.transform args.context args.response.body).map (sanitized args.response) := by
  rw [transform_exchange_http_response, Relay.transform, Exchange.decode_context]
  dsimp only [rate_relay, Exchange.encode_response]
  cases Encoding.index.decode args.context with
  | error err => rfl
  | ok index =>
      dsimp only
      cases EXCHANGES[index]? with
      | none => rfl
      | some exchange =>
          dsimp only
          cases exchange.extracted args.response.body with
          | error trap => rfl
          | ok rate =>
              dsimp only
              cases Encoding.rate.encode rate <;> rfl

omit [Chrono] [ForexSerde] in
theorem transform_listing_http_response_eq (args : http.TransformArgs) :
    transform_listing_http_response args
      = (listing_relay.transform args.context args.response.body).map
          (sanitized args.response) := by
  rw [transform_listing_http_response, Relay.transform, Exchange.decode_context]
  dsimp only [listing_relay, Exchange.encode_listing_response]
  cases Encoding.index.decode args.context with
  | error err => rfl
  | ok index =>
      dsimp only
      -- an index beyond the exchanges is a panic on both sides
      cases EXCHANGES[index]? with
      | none => rfl
      | some exchange =>
          dsimp only [Exchange.listed]
          cases exchange.extract_listed_usdt_bases args.response.body with
          | error err => rfl
          | ok listed =>
              dsimp only
              cases Encoding.listing.encode (listed.bases, listed.total_markets) <;> rfl

omit [ExchangeSerde] in
theorem transform_forex_http_response_eq (args : http.TransformArgs) :
    transform_forex_http_response args
      = (forex_relay.transform args.context args.response.body).map
          (sanitized args.response) := by
  rw [transform_forex_http_response, Relay.transform, Forex.decode_context]
  dsimp only [forex_relay]
  -- the relay's steps are those of the transform, one failure after the other
  cases Encoding.context.decode args.context with
  | error err => rfl
  | ok context =>
      dsimp only
      cases FOREX_SOURCES[context.id]? with
      | none => rfl
      | some forex =>
          dsimp only [Forex.transform_http_response_body, Forex.extracted]
          cases Encoding.timestamp.decode context.payload with
          | error error => rfl
          | ok timestamp =>
              dsimp only
              cases forex.extract_rate args.response.body timestamp with
              | none => rfl
              | some extracted =>
                  cases extracted with
                  | error error => rfl
                  | ok forex_rate_map =>
                      dsimp only
                      cases Encoding.rate_map.encode forex_rate_map <;> rfl

end Transforms

section Relayed

variable [Encoding] {C R : Type} {relay : Relay Encoding.Error Bytes C Bytes R Trap} {c : C}
  {context : Bytes} {raw response : http.HttpResponse}

/-- What the caller reads off a transformed response. -/
theorem read_sanitized (hcontext : relay.context.encode c = .ok context)
    (h : (relay.transform context raw.body).map (sanitized raw) = .ok response) :
    ∃ value, relay.reduce c raw.body = .ok value
      ∧ relay.result.decode response.body = .ok value := by
  cases hwritten : relay.transform context raw.body with
  | error trap =>
      rw [hwritten] at h
      cases h
  | ok written =>
      rw [hwritten] at h
      rw [← Except.ok.inj h]
      exact Relay.read_transformed hcontext hwritten

/-- Another replica comes to the same response exactly if its raw response has the same status
and the same value. -/
theorem sanitized_alike_iff {raw' : http.HttpResponse}
    (hcontext : relay.context.encode c = .ok context)
    (h : (relay.transform context raw.body).map (sanitized raw) = .ok response) :
    (relay.transform context raw'.body).map (sanitized raw') = .ok response
      ↔ raw'.status = raw.status ∧ relay.reduce c raw'.body = relay.reduce c raw.body := by
  cases hwritten : relay.transform context raw.body with
  | error trap =>
      rw [hwritten] at h
      cases h
  | ok written =>
      rw [hwritten] at h
      rw [← Relay.transformed_alike_iff hcontext hwritten, ← Except.ok.inj h]
      cases relay.transform context raw'.body with
      | error trap => simp [Except.map]
      | ok written' => simp [Except.map, sanitized]

end Relayed

/-! ## The calls

`Management` stands for everything between the canister and the sources. It may answer a request
with an error or with a transformed response, but the response must come from a raw one by the
transform the request names. -/

section Calls

variable [F64] [Chrono] [Unicode] [Encoding] [ExchangeSerde] [ForexSerde]

/-- A response comes of a raw one, by the transform that the request names. -/
def Delivered (canister_self : Principal) (args : http.CanisterHttpRequestArgument)
    (raw response : http.HttpResponse) : Prop :=
  match args.transform with
  | none => response = raw
  | some t => t.function.principal = canister_self → ∀ transform,
      transform_method t.function.method = some transform → transform ⟨raw, t.context⟩ = .ok response

/-- The management canister, as it answers one round of outcalls: with a rejection code and its
message, or with a response some replicas agree on. Which replicas these are, and how many, is of
no account: all that is used is that the response comes from a raw one that some replica received.
-/
structure Management where
  canister_self : Principal
  http_request : http.CanisterHttpRequestArgument → ℕ → Except (ℕ × String) http.HttpResponse
  delivers : ∀ {args : http.CanisterHttpRequestArgument} {cycles : ℕ}
    {response : http.HttpResponse}, http_request args cycles = .ok response →
      ∃ raw, Delivered canister_self args raw response

/-- `CanisterHttpRequest::send`. -/
def http.CanisterHttpRequest.send (self : http.CanisterHttpRequest) (management : Management) :
    Except String http.HttpResponse :=
  match management.http_request self.args self.cycles with
  | .error (_, message) => .error message
  | .ok response => .ok response

open http.CanisterHttpRequest

variable [Subnet] (management : Management)

/-- The request of `call_exchange_raw`. -/
def exchange_request (exchange : Exchange) (args : CallExchangeArgs) (context : Bytes) :
    http.CanisterHttpRequest :=
  ((((new.get (exchange.get_url args.base_asset.symbol args.quote_asset.symbol
    args.timestamp)).transform_context management.canister_self "transform_exchange_http_response"
    context).max_response_bytes exchange.max_response_bytes).with_cycles exchange.cycles)

def call_exchange_raw (exchange : Exchange) (args : CallExchangeArgs) :
    Except CallExchangeError ℕ :=
  match exchange.encode_context with
  | .error error =>
    let text := Encoding.to_string error
    .error (.Candid exchange.name s!"Failure while encoding context: {text}")
  | .ok context =>
    match (exchange_request management exchange args context).send management with
    | .error error => .error (.Http exchange.name error)
    | .ok response =>
      match Exchange.decode_response response.body with
      | .ok (some rate) => .ok rate
      | .ok none => .error (.NoData exchange.name)
      | .error error =>
        let text := Encoding.to_string error
        .error (.Candid exchange.name s!"Failure while decoding response: {text}")

/-- The request of `call_exchange_listing`. -/
def listing_request (exchange : Exchange) (context : Bytes) : http.CanisterHttpRequest :=
  (((new.get exchange.listing_url).transform_context management.canister_self
    "transform_listing_http_response" context).max_response_bytes
    exchange.listing_max_response_bytes).with_cycles exchange.cycles

def call_exchange_listing (exchange : Exchange) : Except CallExchangeError ListedPairs :=
  match exchange.encode_context with
  | .error error =>
    let text := Encoding.to_string error
    .error (.Candid exchange.name s!"Failure while encoding context: {text}")
  | .ok context =>
    match (listing_request management exchange context).send management with
    | .error error => .error (.Http exchange.name error)
    | .ok response =>
      match Exchange.decode_listing_response response.body with
      | .ok listed => .ok listed
      | .error error =>
        let text := Encoding.to_string error
        .error (.Candid exchange.name s!"Failure while decoding listing response: {text}")

/-- The request of `call_forex`. -/
def forex_request (forex : Forex) (args : Forex.ContextArgs) (context : Bytes) :
    http.CanisterHttpRequest :=
  (((((new.get (forex.get_url args.timestamp)).transform_context management.canister_self
    "transform_forex_http_response" context).max_response_bytes
    forex.max_response_bytes).add_headers forex.get_additional_http_request_headers).user_agent
    forex.get_user_agent).with_cycles forex.cycles

def call_forex (forex : Forex) (args : Forex.ContextArgs) :
    Except CallForexError ForexRateMap :=
  match forex.encode_context args with
  | .error error => .error (.Candid forex.to_string (Encoding.to_string error))
  | .ok context =>
    match (forex_request management forex args context).send management with
    | .error error => .error (.Http forex.to_string error)
    | .ok response =>
      match Forex.decode_response response.body with
      | .ok rates => .ok rates
      | .error error => .error (.Candid forex.to_string (Encoding.to_string error))

/-! ### What the calls return

For each of the three calls, what its result says about the raw response behind it. A value was
found in the body by the parser of this source, and an error is one the request really ended in. -/

/-- A raw response was received to a request. -/
def Management.Received (request : http.CanisterHttpRequest) (raw : http.HttpResponse) : Prop :=
  ∃ response, management.http_request request.args request.cycles = .ok response
    ∧ Delivered management.canister_self request.args raw response

variable {management}

omit [Subnet] in
/-- The body of a response to a request whose transform is a relay. All three transforms are of
this form, so what is known of an outcall is derived here, once for all of them. -/
theorem received_value {C R : Type} {relay : Relay Encoding.Error Bytes C Bytes R Trap} {c : C}
    {context : Bytes} {method : String}
    {transform : http.TransformArgs → Except Trap http.HttpResponse}
    {request : http.CanisterHttpRequest} {response : http.HttpResponse}
    (hrequest : request.args.transform = some ⟨⟨management.canister_self, method⟩, context⟩)
    (hmethod : transform_method method = some transform)
    (htransform : ∀ args : http.TransformArgs, transform args
      = (relay.transform args.context args.response.body).map (sanitized args.response))
    (hcontext : relay.context.encode c = .ok context)
    (hresponse : management.http_request request.args request.cycles = .ok response) :
    ∃ raw value, management.Received request raw ∧ relay.reduce c raw.body = .ok value
      ∧ relay.result.decode response.body = .ok value := by
  -- what was received is some raw response after the transform of the request
  obtain ⟨raw, hdelivered⟩ := management.delivers hresponse
  have hsanitized := hdelivered
  rw [Delivered, hrequest] at hsanitized
  have htransformed := hsanitized rfl transform hmethod
  rw [htransform] at htransformed
  obtain ⟨value, hreduce, hdecode⟩ := read_sanitized hcontext htransformed
  exact ⟨raw, value, ⟨response, hresponse, hdelivered⟩, hreduce, hdecode⟩

variable (management)

/-- What the result of a call to an exchange says: a rate is that of a raw response to the
request; no data, that such a response parsed but held none; the other errors, that the call or
the encoding of the context failed. -/
def ReadsRate (exchange : Exchange) (args : CallExchangeArgs) :
    Except CallExchangeError ℕ → Prop
  | .ok rate => ∃ context raw, exchange.encode_context = .ok context
      ∧ management.Received (exchange_request management exchange args context) raw
      ∧ exchange.extract_rate raw.body = .ok rate
  | .error (.NoData name) => name = exchange.name ∧ ∃ context raw snippet,
      exchange.encode_context = .ok context
        ∧ management.Received (exchange_request management exchange args context) raw
        ∧ exchange.extract_rate raw.body = .error (.Extract snippet)
  | .error (.Http name message) => name = exchange.name ∧ ∃ context code,
      exchange.encode_context = .ok context
        ∧ management.http_request (exchange_request management exchange args context).args
            exchange.cycles = .error (code, message)
  | .error (.Candid name _) => name = exchange.name ∧ ∃ err, exchange.encode_context = .error err
  | .error .NoRatesFound => False

/-- What the result of fetching a listing says. -/
def ReadsListing (exchange : Exchange) : Except CallExchangeError ListedPairs → Prop
  | .ok listed => ∃ context raw parsed, exchange.encode_context = .ok context
      ∧ management.Received (listing_request management exchange context) raw
      ∧ exchange.extract_listed_usdt_bases raw.body = .ok parsed
      ∧ listed = ⟨parsed.bases, truncate 32 parsed.total_markets⟩
  | .error (.Http name message) => name = exchange.name ∧ ∃ context code,
      exchange.encode_context = .ok context
        ∧ management.http_request (listing_request management exchange context).args
            exchange.cycles = .error (code, message)
  | .error (.Candid name _) => name = exchange.name ∧ ∃ err, exchange.encode_context = .error err
  | .error (.NoData _) | .error .NoRatesFound => False

/-- What the result of a call to a forex source says. -/
def ReadsForex (forex : Forex) (args : Forex.ContextArgs) :
    Except CallForexError ForexRateMap → Prop
  | .ok rates => ∃ context raw, forex.encode_context args = .ok context
      ∧ management.Received (forex_request management forex args context) raw
      ∧ forex.extract_rate raw.body args.timestamp = some (.ok rates)
  | .error (.Http name message) => name = forex.to_string ∧ ∃ context code,
      forex.encode_context args = .ok context
        ∧ management.http_request (forex_request management forex args context).args
            forex.cycles = .error (code, message)
  | .error (.Candid name _) => name = forex.to_string ∧ ∃ err, forex.encode_context args = .error err
  | .error (.Empty _) => False

theorem call_exchange_reads (exchange : Exchange) (args : CallExchangeArgs) :
    ReadsRate management exchange args (call_exchange_raw management exchange args) := by
  rw [call_exchange_raw]
  cases hcontext : exchange.encode_context with
  | error err => exact ⟨rfl, err, hcontext⟩
  | ok context =>
      dsimp only
      rw [http.CanisterHttpRequest.send]
      cases hresponse : management.http_request
        (exchange_request management exchange args context).args
        (exchange_request management exchange args context).cycles with
      -- the request was rejected, with the message that is passed on
      | error rejection => exact ⟨rfl, context, rejection.1, hcontext, hresponse⟩
      | ok response =>
          obtain ⟨raw, value, hreceived, hreduce, hdecode⟩ := received_value rfl rfl
            transform_exchange_http_response_eq hcontext hresponse
          dsimp only
          rw [show Exchange.decode_response response.body = .ok value from hdecode]
          rw [reduce_rate_relay, Exchange.extracted] at hreduce
          split at hreduce
          · rename_i rate hrate
            cases hreduce
            exact ⟨context, raw, hcontext, hreceived, hrate⟩
          · -- the body parsed, but there was no data point in it
            rename_i snippet hnone
            cases hreduce
            exact ⟨rfl, context, raw, snippet, hcontext, hreceived, hnone⟩
          · cases hreduce

theorem call_exchange_listing_reads (exchange : Exchange) :
    ReadsListing management exchange (call_exchange_listing management exchange) := by
  rw [call_exchange_listing]
  cases hcontext : exchange.encode_context with
  | error err => exact ⟨rfl, err, hcontext⟩
  | ok context =>
      dsimp only
      rw [http.CanisterHttpRequest.send]
      cases hresponse : management.http_request
        (listing_request management exchange context).args
        (listing_request management exchange context).cycles with
      | error rejection => exact ⟨rfl, context, rejection.1, hcontext, hresponse⟩
      | ok response =>
          -- the value that is decoded is the one that the transform has read
          obtain ⟨raw, value, hreceived, hreduce, hdecode⟩ := received_value rfl rfl
            transform_listing_http_response_eq hcontext hresponse
          dsimp only
          rw [Exchange.decode_listing_response,
            show Encoding.listing.decode response.body = .ok value from hdecode]
          rw [reduce_listing_relay, Exchange.listed] at hreduce
          split at hreduce
          · cases hreduce
          · rename_i parsed hparsed
            cases hreduce
            exact ⟨context, raw, parsed, hcontext, hreceived, hparsed, rfl⟩

theorem call_forex_reads (forex : Forex) (args : Forex.ContextArgs) :
    ReadsForex management forex args (call_forex management forex args) := by
  rw [call_forex]
  cases hcontext : forex.encode_context args with
  | error err => exact ⟨rfl, err, hcontext⟩
  | ok context =>
      dsimp only
      rw [http.CanisterHttpRequest.send]
      cases hresponse : management.http_request
        (forex_request management forex args context).args
        (forex_request management forex args context).cycles with
      | error rejection => exact ⟨rfl, context, rejection.1, hcontext, hresponse⟩
      | ok response =>
          -- the context holds the id of the source and the day, which the transform reads back
          have hencode := hcontext
          rw [Forex.encode_context, Forex.encode_payload] at hencode
          cases hpayload : Encoding.timestamp.encode args.timestamp with
          | error error =>
              rw [hpayload] at hencode
              cases hencode
          | ok payload =>
              rw [hpayload] at hencode
              obtain ⟨raw, rates, hreceived, hreduce, hdecode⟩ := received_value rfl rfl
                transform_forex_http_response_eq hencode hresponse
              dsimp only
              rw [show Forex.decode_response response.body = .ok rates from hdecode]
              rw [reduce_forex_relay hpayload, Forex.extracted] at hreduce
              split at hreduce
              · cases hreduce
              · cases hreduce
              · rename_i extracted hextracted
                cases hreduce
                exact ⟨context, raw, hcontext, hreceived, hextracted⟩

/-- **Outcalls read their own source.** Whatever the management canister answers, every call to an
exchange, for a listing or to a forex source returns what the parser of that very source, for the
day of the call, makes of a raw response to its request, or says truly why there is none.

A raw response meets a transform of its own replica, which learns the source and the day from the
context only. The theorem thus rests on the context being read back as it was written, and
likewise the value that the transform puts into the body; both are instances of `Relay`. -/
theorem outcalls_read_their_source :
    (∀ exchange args,
        ReadsRate management exchange args (call_exchange_raw management exchange args))
      ∧ (∀ exchange, ReadsListing management exchange (call_exchange_listing management exchange))
      ∧ ∀ forex args, ReadsForex management forex args (call_forex management forex args) :=
  ⟨call_exchange_reads management, call_exchange_listing_reads management,
    call_forex_reads management⟩

/-- A management canister that receives the same body to every request. -/
def oneBody (body : Bytes) : Management where
  canister_self := ⟨[0, 0, 0, 0, 2, 16, 0, 1, 1, 1]⟩
  http_request args _ :=
    match args.transform with
    | none => .ok ⟨200, [], body⟩
    | some t =>
      match transform_method t.function.method with
      | none => .error (5, "no such method")
      | some transform =>
        match transform ⟨⟨200, [], body⟩, t.context⟩ with
        | .ok response => .ok response
        | .error _ => .error (5, "the canister trapped")
  -- whatever is returned is this body, transformed as asked
  delivers := by
    intro args cycles response h
    refine ⟨⟨200, [], body⟩, ?_⟩
    rw [Delivered]
    cases htransform : args.transform with
    | none =>
        rw [htransform] at h
        exact (Except.ok.inj h).symm
    | some t =>
        dsimp only
        intro _ transform hmethod
        rw [htransform] at h
        dsimp only at h
        rw [hmethod] at h
        dsimp only at h
        split at h
        · rw [← Except.ok.inj h]
          assumption
        · cases h

end Calls

/-! ## Agreement of the replicas

Replicas agree when their transformed responses are equal. The relays reduce that to the values
their parsers find, and what the parsers of the listings find does not depend on the order of
the markets. -/

section Agreement

variable [F64] [Chrono] [Unicode] [Encoding] [ExchangeSerde] [ForexSerde]

omit [F64] [Chrono] [Encoding] [ExchangeSerde] [ForexSerde] in
/-- The order of the markets of a listing does not matter. -/
theorem extract_listed_pairs_perm {markets markets' : List ListedMarket}
    (h : markets'.Perm markets) : extract_listed_pairs markets' = extract_listed_pairs markets := by
  have hbases : (extract_listed_pairs markets').bases = (extract_listed_pairs markets).bases := by
    ext base
    simp only [mem_bases_extract_listed_pairs, h.mem_iff]
  have htotal : (extract_listed_pairs markets').total_markets
      = (extract_listed_pairs markets).total_markets := by
    simp [h.length_eq]
  cases hleft : extract_listed_pairs markets'
  cases hright : extract_listed_pairs markets
  simp_all

/-- **When replicas agree.** Once one replica has transformed its raw response, another one comes
to the same response exactly if its own raw response has the same status and parses to the same
rate, listing or rates: neither the headers nor anything else in the body counts. The markets of a
listing may come in any order.

Encoding is injective, since what is written can be read back. So two transformed responses are
equal exactly when the values in them are, and their status, which the transform leaves alone. -/
theorem replicas_agree_iff (context : Bytes) (raw raw' response : http.HttpResponse) :
    (∀ exchange : Exchange, exchange.encode_context = .ok context →
        transform_exchange_http_response ⟨raw, context⟩ = .ok response →
        (transform_exchange_http_response ⟨raw', context⟩ = .ok response
          ↔ raw'.status = raw.status ∧ exchange.extracted raw'.body = exchange.extracted raw.body))
      ∧ (∀ exchange : Exchange, exchange.encode_context = .ok context →
        transform_listing_http_response ⟨raw, context⟩ = .ok response →
        (transform_listing_http_response ⟨raw', context⟩ = .ok response
            ↔ raw'.status = raw.status ∧ exchange.listed raw'.body = exchange.listed raw.body)
          ∧ ∀ listing listing', ExchangeSerde.listing_from_slice exchange raw.body = .ok listing →
            ExchangeSerde.listing_from_slice exchange raw'.body = .ok listing' →
            (exchange.markets_fn listing').Perm (exchange.markets_fn listing) →
            raw'.status = raw.status →
              transform_listing_http_response ⟨raw', context⟩ = .ok response)
      ∧ ∀ (forex : Forex) (timestamp : ℕ), forex.encode_context ⟨timestamp⟩ = .ok context →
        transform_forex_http_response ⟨raw, context⟩ = .ok response →
        (transform_forex_http_response ⟨raw', context⟩ = .ok response
          ↔ raw'.status = raw.status
            ∧ forex.extracted timestamp raw'.body = forex.extracted timestamp raw.body) := by
  refine ⟨?_, ?_, ?_⟩
  · intro exchange hcontext h
    rw [transform_exchange_http_response_eq] at h ⊢
    rw [sanitized_alike_iff hcontext h, reduce_rate_relay, reduce_rate_relay]
  · intro exchange hcontext h
    have hiff : transform_listing_http_response ⟨raw', context⟩ = .ok response
        ↔ raw'.status = raw.status ∧ exchange.listed raw'.body = exchange.listed raw.body := by
      rw [transform_listing_http_response_eq] at h ⊢
      rw [sanitized_alike_iff hcontext h, reduce_listing_relay, reduce_listing_relay]
    refine ⟨hiff, fun listing listing' hlisting hlisting' hperm hstatus => hiff.mpr ⟨hstatus, ?_⟩⟩
    rw [Exchange.listed, Exchange.listed, Exchange.extract_listed_usdt_bases,
      Exchange.extract_listed_usdt_bases, hlisting, hlisting']
    dsimp only
    -- the bases are a set and the total is a length, both blind to the order
    rw [extract_listed_pairs_perm hperm]
  · intro forex timestamp hcontext h
    rw [Forex.encode_context, Forex.encode_payload] at hcontext
    -- without an encoded day there is no context, and nothing was transformed
    cases hpayload : Encoding.timestamp.encode timestamp with
    | error error =>
        rw [hpayload] at hcontext
        cases hcontext
    | ok payload =>
        rw [hpayload] at hcontext
        rw [transform_forex_http_response_eq] at h ⊢
        rw [sanitized_alike_iff hcontext h, reduce_forex_relay hpayload, reduce_forex_relay hpayload]

end Agreement

/-! ### One candle, received twice

A body of Coinbase in two spellings, with codecs and a parser that know just the values needed,
to show that the assumptions on them can be met. -/

/-- The doubles that are fractions, with the numerals of whole numbers. -/
@[reducible] def fractions : F64 where
  Val := ℚ
  parse s :=
    match parse_u64 s with
    | some value => .ok value
    | none => .error "invalid float literal"
  of_u64 value := value
  to_u64 x := min x.floor.toNat (2 ^ 64 - 1)
  add x y := x + y
  mul x y := x * y
  div x y := x / y
  is_finite _ := true
  le x y := decide (x ≤ y)
  eq x y := decide (x = y)
  to_u64_lt x := by omega

instance : DecidableEq ForexRateMap := fun a b =>
  decidable_of_iff (a.entries = b.entries) ⟨fun h => by cases a; cases b; cases h; rfl, congrArg _⟩

/-- `candid`, for one value of each type. -/
@[reducible] def oneOfEach (index : ℕ × Bytes) (rate : Option ℕ × Bytes)
    (listing : (Finset String × ℕ) × Bytes) (timestamp : ℕ × Bytes) (context : ForexContext × Bytes)
    (rate_map : ForexRateMap × Bytes) : Encoding where
  Error := String
  to_string error := error
  index := Codec.single index.1 index.2 "other index"
  rate := Codec.single rate.1 rate.2 "other rate"
  listing := Codec.single listing.1 listing.2 "other listing"
  timestamp := Codec.single timestamp.1 timestamp.2 "other timestamp"
  context := Codec.single context.1 context.2 "other context"
  rate_map := Codec.single rate_map.1 rate_map.2 "other rates"

/-- `[[1, 1, 1, 2, 1, 1]]`, with a blank behind it in some replies. -/
def candleBody (blanks : ℕ) : Bytes :=
  [91, 91, 49, 44, 49, 44, 49, 44, 50, 44, 49, 44, 49, 93, 93] ++ List.replicate blanks 32

/-- The position of Coinbase, encoded. -/
def coinbaseIndex : Bytes := [68, 73, 68, 76, 0, 1, 120, 0, 0, 0, 0, 0, 0, 0, 0]

/-- A rate of two, encoded. -/
def rateOfTwo : Bytes := [68, 73, 68, 76, 1, 110, 120, 1, 0, 1, 0, 148, 53, 119, 0, 0, 0, 0]

@[reducible] def candleEncoding : Encoding :=
  oneOfEach (0, coinbaseIndex) (some 2_000_000_000, rateOfTwo) ((∅, 0), []) (0, []) (⟨0, []⟩, [])
    (ForexRateMap.empty, [])

/-- A deserializer that knows this body only. -/
@[reducible] def candleSerde : @ExchangeSerde fractions :=
  let _ := fractions
  { from_slice := fun exchange body =>
      match exchange with
      | .Coinbase =>
        if body = candleBody 0 ∨ body = candleBody 1 then .ok [(1, (1 : ℚ), (1 : ℚ), (2 : ℚ), (1 : ℚ), (1 : ℚ))]
        else .error "expected value"
      | _ => .error "expected value"
    listing_from_slice := fun _ _ => .error "expected value" }

/-- The thirteenth of November 2023. -/
@[reducible] def oneDate : Chrono where
  parse_from_str text _ := if text = "2023-11-13 00:00:00" then some 1_699_833_600 else none
  format timestamp format :=
    if timestamp = 1_699_833_600 ∧ format = "%d-%m-%Y" then some "13-11-2023" else none
  parse_from_str_lt h := by
    rw [Option.ite_none_right_eq_some] at h
    rw [← Option.some.inj h.2]
    decide

theorem replicas_agree_on_a_candle :
    letI := fractions
    letI := oneDate
    letI := asciiUnicode
    letI := candleEncoding
    letI := candleSerde
    letI : ForexSerde := ⟨fun _ _ => .error "expected value"⟩
    transform_exchange_http_response
        ⟨⟨200, [⟨"Date", "now"⟩], candleBody 1⟩, coinbaseIndex⟩
      = .ok ⟨200, [], rateOfTwo⟩ := by
  let _ := fractions
  let _ := oneDate
  let _ := asciiUnicode
  let _ := candleEncoding
  let _ := candleSerde
  let _ : ForexSerde := ⟨fun _ _ => .error "expected value"⟩
  refine ((replicas_agree_iff coinbaseIndex ⟨200, [], candleBody 0⟩
    ⟨200, [⟨"Date", "now"⟩], candleBody 1⟩ ⟨200, [], rateOfTwo⟩).1 .Coinbase rfl ?_).mpr ⟨rfl, ?_⟩
  · decide +kernel
  · decide +kernel

/-- Asked for ICP at the start of that day, Coinbase is taken at its word: the rate is the one its
own parser finds in a body received to its own request. -/
theorem candle_read_from_coinbase :
    letI := fractions
    letI := oneDate
    letI := asciiUnicode
    letI := candleEncoding
    letI := candleSerde
    letI : ForexSerde := ⟨fun _ _ => .error "expected value"⟩
    letI : Subnet := ⟨false⟩
    ∃ context raw, Exchange.Coinbase.encode_context = .ok context
      ∧ (oneBody (candleBody 0)).Received (exchange_request (oneBody (candleBody 0)) .Coinbase
          ⟨1_699_833_600, usdt_asset, ⟨"ICP", .Cryptocurrency⟩⟩ context) raw
      ∧ Exchange.Coinbase.extract_rate raw.body = .ok 2_000_000_000 := by
  let _ := fractions
  let _ := oneDate
  let _ := asciiUnicode
  let _ := candleEncoding
  let _ := candleSerde
  let _ : ForexSerde := ⟨fun _ _ => .error "expected value"⟩
  let _ : Subnet := ⟨false⟩
  have hread := (outcalls_read_their_source (oneBody (candleBody 0))).1 .Coinbase
    ⟨1_699_833_600, usdt_asset, ⟨"ICP", .Cryptocurrency⟩⟩
  have hcall : (call_exchange_raw (oneBody (candleBody 0)) .Coinbase
      ⟨1_699_833_600, usdt_asset, ⟨"ICP", .Cryptocurrency⟩⟩).toOption = some 2_000_000_000 := by
    decide +kernel
  rw [toOption_eq_some_iff.mp hcall] at hread
  exact hread

end Xrc
