/-
The URLs of the exchanges. `get_url` fills in a template by four global replacements, the first
of which puts in a text of the caller. An alphanumeric symbol in upper case holds no underscore,
so whatever it is, no later replacement finds a placeholder in it or across its ends
(`get_url_eq_filled_template`).
-/
import Xrc.ApiSpec
import Xrc.Template

set_option autoImplicit false
set_option maxRecDepth 2048

namespace Xrc

open Machine

/-! ## The templates

The code as it is: nine templates with up to four placeholders, and four calls of `replace`, one
after the other, each over the whole text that the previous one has left. -/

/-- The placeholders a base URL may contain. -/
inductive Placeholder where
  | BASE_ASSET
  | QUOTE_ASSET
  | START_TIME
  | END_TIME
  deriving DecidableEq, Repr

def BASE_ASSET : String := "BASE_ASSET"
def QUOTE_ASSET : String := "QUOTE_ASSET"
def START_TIME : String := "START_TIME"
def END_TIME : String := "END_TIME"

def COINBASE_CANDLE_END_OFFSET_SEC : ℕ := 60
def COINBASE_CANDLE_LOOKBACK_SEC : ℕ := 6 * 60
def KUCOIN_CANDLE_END_OFFSET_SEC : ℕ := 60
def KUCOIN_CANDLE_LOOKBACK_SEC : ℕ := 6 * 60

/-- `s.replace(pattern, value)`. -/
def str_replace (s pattern value : String) : String :=
  String.ofList (Template.replace pattern.toList value.toList s.toList)

namespace Exchange

/-- The base URL template. -/
def get_base_url : Exchange → String
  | Coinbase => "https://api.exchange.coinbase.com/products/BASE_ASSET-QUOTE_ASSET/candles?granularity=60&start=START_TIME&end=END_TIME"
  | KuCoin => "https://api.kucoin.com/api/v1/market/candles?symbol=BASE_ASSET-QUOTE_ASSET&type=1min&startAt=START_TIME&endAt=END_TIME"
  | Okx => "https://www.okx.com/api/v5/market/history-candles?instId=BASE_ASSET-QUOTE_ASSET&bar=1m&before=START_TIME&after=END_TIME"
  | GateIo => "https://api.gateio.ws/api/v4/spot/candlesticks?currency_pair=BASE_ASSET_QUOTE_ASSET&interval=1m&from=START_TIME&to=END_TIME"
  | Mexc => "https://api.mexc.com/api/v3/klines?symbol=BASE_ASSETQUOTE_ASSET&interval=1m&startTime=START_TIME&limit=1"
  | Poloniex => "https://api.poloniex.com/markets/BASE_ASSET_QUOTE_ASSET/candles?interval=MINUTE_1&startTime=START_TIME&endTime=END_TIME"
  | CryptoCom => "https://api.crypto.com/exchange/v1/public/get-candlestick?instrument_name=BASE_ASSET_QUOTE_ASSET&timeframe=1m&start_ts=START_TIME&count=1"
  | Bitget => "https://api.bitget.com/api/v2/spot/market/history-candles?symbol=BASE_ASSETQUOTE_ASSET&granularity=1min&endTime=END_TIME&limit=1"
  | Digifinex => "https://openapi.digifinex.com/v3/kline?symbol=BASE_ASSET_QUOTE_ASSET&period=1&start_time=START_TIME&end_time=END_TIME"

/-- Format an asset code. -/
def format_asset [Unicode] (_ : Exchange) (asset : String) : String := to_uppercase asset

/-- Format the start time. -/
def format_start_time (self : Exchange) (timestamp : ℕ) : String :=
  match self with
  | Coinbase => toString (timestamp - COINBASE_CANDLE_LOOKBACK_SEC)
  | KuCoin => toString (timestamp - KUCOIN_CANDLE_LOOKBACK_SEC)
  | Okx => toString (saturating_mul 64 timestamp 1000 - 60_001)
  | Poloniex | CryptoCom => toString (saturating_mul 64 timestamp 1000)
  | GateIo | Mexc | Bitget | Digifinex => toString timestamp

/-- Format the end time. -/
def format_end_time (self : Exchange) (timestamp : ℕ) : String :=
  match self with
  | Coinbase => toString (timestamp - COINBASE_CANDLE_END_OFFSET_SEC)
  | KuCoin => toString (saturating_add 64 (timestamp - KUCOIN_CANDLE_END_OFFSET_SEC) 1)
  | Okx | Poloniex => toString (saturating_add 64 (saturating_mul 64 timestamp 1000) 1)
  | Bitget => toString (saturating_add 64 (saturating_mul 64 timestamp 1000) 60_000)
  | GateIo | Mexc | CryptoCom | Digifinex => toString timestamp

/-- The URL for a rate. -/
def get_url [Unicode] (self : Exchange) (base_asset quote_asset : String) (timestamp : ℕ) :
    String :=
  let timestamp := timestamp / 60 * 60
  let url := str_replace self.get_base_url Xrc.BASE_ASSET (self.format_asset base_asset)
  let url := str_replace url Xrc.QUOTE_ASSET (self.format_asset quote_asset)
  let url := str_replace url Xrc.START_TIME (self.format_start_time timestamp)
  str_replace url Xrc.END_TIME (self.format_end_time timestamp)

end Exchange

/-! ## One pass over the template

The specification reads a template once, as characters and placeholders, and fills all of the
placeholders in together. It goes through the library of `Template.lean`, which says when
successive replacements amount to that: an underscore, which every placeholder has in its
middle, must not come in with a value. -/

namespace Placeholder

/-- The text that stands for the placeholder. -/
def text : Placeholder → String
  | BASE_ASSET => Xrc.BASE_ASSET
  | QUOTE_ASSET => Xrc.QUOTE_ASSET
  | START_TIME => Xrc.START_TIME
  | END_TIME => Xrc.END_TIME

/-- All of the placeholders, in the order they are replaced. -/
def all : List Placeholder := [.BASE_ASSET, .QUOTE_ASSET, .START_TIME, .END_TIME]

theorem mem_all (k : Placeholder) : k ∈ all := by
  cases k <;> decide

/-- The part of the text before its underscore. -/
def left : Placeholder → List Char
  | BASE_ASSET => "BASE".toList
  | QUOTE_ASSET => "QUOTE".toList
  | START_TIME => "START".toList
  | END_TIME => "END".toList

/-- The part after it. -/
def right : Placeholder → List Char
  | BASE_ASSET | QUOTE_ASSET => "ASSET".toList
  | START_TIME | END_TIME => "TIME".toList

/-- The texts of the placeholders, cut in two at their underscores. -/
def texts : Template.Placeholders Char Placeholder where
  separator := '_'
  left := left
  right := right
  left_ne_nil k := by cases k <;> decide
  right_ne_nil k := by cases k <;> decide
  notMem_left k := by cases k <;> decide
  notMem_right k := by cases k <;> decide
  left_injective i j := by cases i <;> cases j <;> decide

theorem name_texts (k : Placeholder) : texts.name k = k.text.toList := by
  cases k <;> decide

end Placeholder

namespace Exchange

/-- The template, read in one pass: its characters and its placeholders. -/
def tokens (self : Exchange) : List (Template.Token Char Placeholder) :=
  Template.parse (fun k => k.text.toList) Placeholder.all self.get_base_url.toList

/-- What is put in the place of a placeholder. -/
def value [Unicode] (self : Exchange) (base_asset quote_asset : String) (timestamp : ℕ) :
    Placeholder → String
  | .BASE_ASSET => self.format_asset base_asset
  | .QUOTE_ASSET => self.format_asset quote_asset
  | .START_TIME => self.format_start_time (timestamp / 60 * 60)
  | .END_TIME => self.format_end_time (timestamp / 60 * 60)

/-- The template with all of its placeholders filled in at once. -/
def filled_template [Unicode] (self : Exchange) (base_asset quote_asset : String)
    (timestamp : ℕ) : String :=
  String.ofList
    (Template.fill (fun k => (self.value base_asset quote_asset timestamp k).toList) self.tokens)

/-- A template has each placeholder once, but Bitget's has no start time, MEXC's and
Crypto.com's no end time. -/
def lacks (self : Exchange) (k : Placeholder) : Bool :=
  match self, k with
  | Bitget, .START_TIME | Mexc, .END_TIME | CryptoCom, .END_TIME => true
  | _, _ => false

/-- What is known of the characters of a text. -/
theorem of_characters (P : List Char → Prop) {s : String} {characters : List Char}
    (heq : s = String.ofList characters) (h : P characters) : P s.toList := by
  rw [heq, String.toList_ofList]
  exact h

/-- **The nine templates**: an underscore of their own is followed by a character that begins
neither `ASSET` nor `TIME`, or by the quote asset, and no placeholder occurs twice. -/
theorem tokens_spec (self : Exchange) :
    Placeholder.texts.guarded Placeholder.all [.QUOTE_ASSET] self.tokens = true ∧
      ∀ k ∈ Placeholder.all, self.tokens.count (.slot k) = if self.lacks k then 0 else 1 := by
  cases self <;>
    (unfold tokens get_base_url
     exact of_characters (fun characters =>
      Placeholder.texts.guarded Placeholder.all [.QUOTE_ASSET]
          (Template.parse (fun k => k.text.toList) Placeholder.all characters) = true ∧
        ∀ k ∈ Placeholder.all,
          (Template.parse (fun k => k.text.toList) Placeholder.all characters).count (.slot k)
            = if lacks _ k then 0 else 1) rfl (by decide +kernel))

end Exchange

/-! ## No value holds an underscore

Times are decimal numbers or formatted dates, the quote asset is a constant, and the base asset
is what the sanitization has left of a caller's text. Its upper case is taken by the Unicode
tables, of which it is assumed that they map nothing but the underscore to an underscore. -/

theorem underscore_notMem_toString (n : ℕ) : '_' ∉ (toString n).toList := by
  intro hmem
  have hdigits : '_' ∈ Nat.toDigits 10 n := by
    rwa [← Nat.toList_repr]
  have hdigit : ('_').isDigit = true :=
    Nat.isDigit_of_mem_toDigits (by decide) (by decide) hdigits
  exact absurd hdigit (by decide)

namespace Exchange

theorem underscore_notMem_format_start_time (self : Exchange) (timestamp : ℕ) :
    '_' ∉ (self.format_start_time timestamp).toList := by
  cases self <;> exact underscore_notMem_toString _

theorem underscore_notMem_format_end_time (self : Exchange) (timestamp : ℕ) :
    '_' ∉ (self.format_end_time timestamp).toList := by
  cases self <;> exact underscore_notMem_toString _

end Exchange

section

variable [Unicode]

/-- No upper case but that of the underscore holds an underscore. A symbol in upper case then has
no underscore unless it had one before, and so does not form the name of a placeholder. -/
def UnderscoreIsCaseless : Prop := ∀ c, '_' ∈ Unicode.to_uppercase c → c = '_'

theorem underscore_notMem_to_uppercase (hcase : UnderscoreIsCaseless) {s : String}
    (h : '_' ∉ s.toList) : '_' ∉ (to_uppercase s).toList := by
  intro hmem
  rw [to_uppercase, String.toList_ofList] at hmem
  obtain ⟨c, hc, hupper⟩ := List.mem_flatMap.mp hmem
  rw [hcase c hupper] at hc
  exact h hc

/-- An alphanumeric symbol holds none, and neither does what the sanitization makes of it. -/
theorem underscore_notMem_sanitize_symbol (hcase : UnderscoreIsCaseless) (symbol : String) :
    '_' ∉ (sanitize_symbol symbol).toList := by
  unfold sanitize_symbol
  split
  · rename_i hall
    apply underscore_notMem_to_uppercase hcase
    intro hmem
    have halphanumeric := List.all_eq_true.mp hall '_' hmem
    rw [Unicode.is_alphanumeric_ascii '_' (by decide)] at halphanumeric
    exact absurd halphanumeric (by decide)
  · decide

namespace Exchange

theorem underscore_notMem_value (hcase : UnderscoreIsCaseless) (self : Exchange)
    (symbol : String) (timestamp : ℕ) (k : Placeholder) :
    '_' ∉ (self.value (sanitize_symbol symbol) USDT timestamp k).toList := by
  cases k with
  | BASE_ASSET =>
      exact underscore_notMem_to_uppercase hcase (underscore_notMem_sanitize_symbol hcase symbol)
  | QUOTE_ASSET => exact underscore_notMem_to_uppercase hcase (by decide)
  | START_TIME => exact self.underscore_notMem_format_start_time _
  | END_TIME => exact self.underscore_notMem_format_end_time _

/-! ## The URL

The library's theorem at the four placeholders and the values of a request. Templates that lack
a placeholder skip its replacement, so a value of theirs is not part of the URL at all. -/

/-- The four replacements as a run over the placeholders. -/
theorem get_url_eq_foldl (self : Exchange) (base_asset quote_asset : String) (timestamp : ℕ) :
    (self.get_url base_asset quote_asset timestamp).toList
      = Placeholder.all.foldl
        (fun text k => Template.replace k.text.toList
          (self.value base_asset quote_asset timestamp k).toList text)
        self.get_base_url.toList := by
  simp only [get_url, str_replace, String.toList_ofList]
  rfl

/-- **The URL is the filled template**: for every symbol that the sanitization lets through, the
four successive replacements give the template with its placeholders filled in all at once. -/
theorem get_url_eq_filled_template (hcase : UnderscoreIsCaseless) (self : Exchange)
    (symbol : String) (timestamp : ℕ) :
    self.get_url (sanitize_symbol symbol) USDT timestamp
      = self.filled_template (sanitize_symbol symbol) USDT timestamp := by
  have hname : Placeholder.texts.name = fun k => k.text.toList := funext Placeholder.name_texts
  have hnames : ∀ k ∈ [Placeholder.QUOTE_ASSET],
      Placeholder.texts.Opens Placeholder.all (Placeholder.texts.name k) := by
    intro k hk
    rw [List.mem_singleton.mp hk]
    exact ⟨'Q', "UOTE_ASSET".toList, by decide, by decide⟩
  -- USDT is what stands next to another placeholder, and `U` begins no name's second half
  have hopens : ∀ k ∈ [Placeholder.QUOTE_ASSET], Placeholder.texts.Opens Placeholder.all
      (self.value (sanitize_symbol symbol) USDT timestamp k).toList := by
    intro k hk
    rw [List.mem_singleton.mp hk]
    refine ⟨'U', "SDT".toList, ?_, by decide⟩
    rw [value, format_asset, to_uppercase_USDT]
    decide
  have hguarded := self.tokens_spec.1
  rw [tokens, ← hname] at hguarded
  have hfill := Template.Placeholders.foldl_replace_eq_fill
    (self.underscore_notMem_value hcase symbol timestamp) hnames hopens (by decide)
    Placeholder.mem_all hguarded
  rw [hname] at hfill
  rw [filled_template, tokens, ← hfill, ← get_url_eq_foldl, String.ofList_toList]

/-- **A symbol cannot tamper with the URL**: it goes where the template has the base asset, and
each placeholder of the template is filled in once.

The first clause is an instance of `Template.foldl_replace_eq_fill`, since no value has the
underscore that is in the middle of every placeholder. The second is read off the nine templates.
-/
theorem url_untampered (hcase : UnderscoreIsCaseless) (self : Exchange) (symbol : String)
    (timestamp : ℕ) :
    self.get_url (sanitize_symbol symbol) USDT timestamp
        = self.filled_template (sanitize_symbol symbol) USDT timestamp ∧
      ∀ k, self.tokens.count (.slot k) = if self.lacks k then 0 else 1 :=
  ⟨self.get_url_eq_filled_template hcase symbol timestamp,
    fun k => self.tokens_spec.2 k (Placeholder.mem_all k)⟩

end Exchange

end

/-- The candles of MEXC are asked for without an end time. -/
theorem placeholder_missing :
    letI := asciiUnicode
    ¬ ∀ (self : Exchange) (symbol : String) (timestamp : ℕ),
      self.get_url (sanitize_symbol symbol) USDT timestamp
          = self.filled_template (sanitize_symbol symbol) USDT timestamp ∧
        ∀ k, self.tokens.count (.slot k) = 1 := by
  intro hall
  have hmissing := Exchange.Mexc.tokens_spec.2 .END_TIME (by decide)
  rw [(hall .Mexc "ICP" 1_700_000_000).2 .END_TIME] at hmissing
  exact absurd hmissing (by decide)

theorem underscoreIsCaseless_ascii : letI := asciiUnicode; UnderscoreIsCaseless := by
  intro c hc
  have hupper := List.mem_singleton.mp hc
  by_cases h : 'a'.val ≤ c.val ∧ c.val ≤ 'z'.val
  · -- the underscore is not the upper case of a letter
    have hval := val_toUpper_of_lower h
    rw [← hupper] at hval
    grind
  · rw [hupper, toUpper_of_not_lower h]

/-- A symbol that ends like a placeholder begins. -/
theorem mexc_start_usdt :
    letI := asciiUnicode
    Exchange.Mexc.get_url (sanitize_symbol "start") USDT 1_700_000_000
        = "https://api.mexc.com/api/v3/klines?symbol=STARTUSDT&interval=1m&startTime=1699999980&limit=1" ∧
      ∀ k, Exchange.Mexc.tokens.count (.slot k) = if Exchange.Mexc.lacks k then 0 else 1 := by
  let _ := asciiUnicode
  obtain ⟨hurl, hcount⟩ :=
    Exchange.Mexc.url_untampered underscoreIsCaseless_ascii "start" 1_700_000_000
  refine ⟨hurl.trans ?_, hcount⟩
  unfold Exchange.filled_template Exchange.tokens Exchange.get_base_url
  exact Exchange.of_characters (fun characters =>
    String.ofList (Template.fill _ (Template.parse _ _ characters)) = _) rfl (by decide +kernel)

end Xrc
