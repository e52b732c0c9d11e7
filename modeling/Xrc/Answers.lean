/-
Whether an answer is for the question asked. A rate is composed of up to four others by
multiplications and inversions that swap and drop what these carry along, and some of them
were cached or stored for someone else; `AnswerFor` says that the answer is nevertheless for
the assets and the time of its own request.

The counts of an answer are those of the two rates the request starts from, `own_rates`.
USD has no rate of its own among the stored ones, so that a pair of USD and another currency
counts the sources of the other one on both sides.
-/
import Xrc.CacheInvariant
import Xrc.SourceCounts
import Xrc.StoredDays

set_option autoImplicit false

namespace Xrc

open Async CallExchangesImpl QueriedExchangeRate

/-! ## Names

Symbols are compared in upper case in one place and as they are in another. That the two agree
needs one property of the Unicode tables, that upper case has no upper case of its own, as on ASCII.
With it the symbols of a sanitized request are their own upper case, and so are the stablecoins. -/

section Names

variable [Unicode]

/-- No character of an upper-case mapping has an upper-case mapping of its own. It holds of the
tables of Unicode. The model takes these as a parameter, and needs of them that a symbol that is
in upper case already is not changed when it is looked up. -/
def UpperCaseIsFinal : Prop :=
  ∀ c, ∀ d ∈ Unicode.to_uppercase c, Unicode.to_uppercase d = [d]

theorem to_uppercase_to_uppercase (hfinal : UpperCaseIsFinal) (symbol : String) :
    to_uppercase (to_uppercase symbol) = to_uppercase symbol := by
  have hsingle : ∀ d ∈ symbol.toList.flatMap Unicode.to_uppercase,
      Unicode.to_uppercase d = [d] := by
    intro d hd
    obtain ⟨c, -, hdc⟩ := List.mem_flatMap.mp hd
    exact hfinal c d hdc
  unfold to_uppercase
  rw [String.toList_ofList, List.flatMap_congr hsingle, List.flatMap_singleton']

/-- A sanitized symbol is its own upper case. -/
theorem to_uppercase_sanitize_symbol (hfinal : UpperCaseIsFinal) (symbol : String) :
    to_uppercase (sanitize_symbol symbol) = sanitize_symbol symbol := by
  unfold sanitize_symbol
  split
  · exact to_uppercase_to_uppercase hfinal symbol
  · exact to_uppercase_of_upper (by decide)

theorem to_uppercase_stablecoin {symbol : String} (h : symbol ∈ STABLECOIN_BASES) :
    to_uppercase symbol = symbol := by
  rcases List.mem_cons.mp h with rfl | h
  · exact to_uppercase_of_upper (by decide)
  · rw [List.mem_singleton.mp h]
    exact to_uppercase_of_upper (by decide)

variable {L : Type} [LruCache L CacheKey QueriedExchangeRate]

/-- What is cached carries the symbol it is cached under. Keys are in upper case and requests are
sanitized to it, so what is found for a symbol is a rate of the very asset that was asked for. -/
structure NamedCache (cache : ExchangeRateCache L) : Prop where
  entries : CacheInvariant cache
  named : ∀ key rate, LruCache.peek cache.lru_cache key = some rate →
    rate.base_asset.symbol = key.1

/-- A rate of an asset that carries its name. -/
structure NamedRate (symbol : String) (timestamp : ℕ) (rate : QueriedExchangeRate) : Prop where
  rate_of : RateOf symbol timestamp rate
  named : rate.base_asset.symbol = symbol

omit [LruCache L CacheKey QueriedExchangeRate] in
theorem NamedRate.base_asset_eq {asset : Asset} (hclass : asset.class' = .Cryptocurrency)
    {timestamp : ℕ} {rate : QueriedExchangeRate} (h : NamedRate asset.symbol timestamp rate) :
    rate.base_asset = asset := by
  have hsymbol := h.named
  have hrate_class := h.rate_of.class_eq
  cases hrate : rate.base_asset with
  | mk symbol class' =>
      cases asset with
      | mk asset_symbol asset_class =>
          rw [hrate] at hsymbol hrate_class
          rw [Asset.mk.injEq]
          exact ⟨hsymbol, hrate_class.trans hclass.symm⟩

theorem NamedCache.insert {cache : ExchangeRateCache L} (h : NamedCache cache) {symbol : String}
    {timestamp : ℕ} {rate : QueriedExchangeRate} (hsymbol : to_uppercase symbol = symbol)
    (hrate : NamedRate symbol timestamp rate) : NamedCache (cache.insert rate) := by
  refine ⟨h.entries.insert hrate.rate_of, ?_⟩
  intro key found hpeek
  rcases peek_insert_cases hpeek with ⟨-, rfl, rfl⟩ | hbefore
  · rw [hrate.named]
    exact hsymbol.symm
  · exact h.named key found hbefore

theorem NamedCache.get {cache : ExchangeRateCache L} (h : NamedCache cache) (symbol : String)
    (timestamp : ℕ) : NamedCache (cache.get symbol timestamp).2 := by
  refine ⟨h.entries.get symbol timestamp, ?_⟩
  intro key rate hpeek
  rw [peek_get_cache] at hpeek
  exact h.named key rate hpeek

theorem NamedCache.lookup {cache : ExchangeRateCache L} (h : NamedCache cache) {symbol : String}
    (hsymbol : to_uppercase symbol = symbol) {timestamp : ℕ} {rate : QueriedExchangeRate}
    (hlookup : cache.lookup symbol timestamp = some rate) : NamedRate symbol timestamp rate := by
  refine ⟨(h.entries.lookup hlookup).1, ?_⟩
  unfold ExchangeRateCache.lookup at hlookup
  by_cases husdt : to_uppercase symbol = USDT
  · rw [if_pos husdt] at hlookup
    rw [← Option.some.inj hlookup, ← hsymbol, husdt]
    rfl
  · rw [if_neg husdt] at hlookup
    rw [h.named _ rate hlookup]
    exact hsymbol

/-- **The terms under which rates keep their names** and forex rates their days. -/
def named (hfinal : UpperCaseIsFinal) : Terms L where
  answers := GenuineAnswer
  forex_store := ForexRateStore.Dated
  asked symbol := to_uppercase symbol = symbol
  cache := NamedCache
  rate_of := NamedRate
  asked_sanitized := to_uppercase_sanitize_symbol hfinal
  asked_stablecoin _ := to_uppercase_stablecoin
  cache_get := NamedCache.get
  cache_insert h _ _ _ := h.insert
  rate_of_lookup h _ _ _ hsymbol := h.lookup hsymbol
  rate_of_crypto := by
    -- an answer is a rate that `new` has built, and `new` keeps the names it is given
    intro exchanges asset timestamp response hclass hanswer
    obtain ⟨rates, queried, received, hrate⟩ := new_of_crypto_answer hanswer
    rw [hrate]
    exact ⟨rateOf_new hclass timestamp rates queried received, rfl⟩
  rate_of_stablecoin := by
    intro exchanges symbols timestamp results hanswer symbol response hmem
    obtain ⟨rates, queried, received, hrate⟩ := new_of_stablecoin_answer hanswer hmem
    rw [hrate]
    exact ⟨@rateOf_new _ ⟨symbol, .Cryptocurrency⟩ rfl timestamp rates queried received, rfl⟩

/-- The forex rates of the timer are those the periodic task has stored. The canister replaces its
whole store in one piece, between two messages, and no update is ever seen half done. -/
def Event.Stored [Features] [Calendar] : Event → Prop
  | .timer forex_store _ =>
    ∃ updates, forex_store = (periodic.run periodic.ForexState.new updates).forex_store
  | _ => True

/-- Every state the canister can reach keeps the terms. It starts with an empty cache and an empty
store, which keep them trivially. -/
theorem kept_of_stored [Features] [Calendar] (hfinal : UpperCaseIsFinal) {events : List Event}
    (hgenuine : ∀ event ∈ events, event.Genuine) (hstored : ∀ event ∈ events, event.Stored) :
    (named hfinal : Terms L).Kept (run (Canister.idle State.new) events) := by
  have hnew : NamedCache (State.new : State L).cache := by
    refine ⟨cacheInvariant_new _, ?_⟩
    intro key rate hpeek
    rw [State.new, ExchangeRateCache.new, LruCache.peek_new] at hpeek
    cases hpeek
  apply Terms.kept_run hnew ForexRateStore.dated_new events
  -- a timer event brings what a run of the periodic task has filed
  intro event hmem
  have hevent := hgenuine event hmem
  have hevent' := hstored event hmem
  cases event with
  | resume i now_secs answers => exact hevent
  | timer forex_store listing_store =>
      obtain ⟨updates, rfl⟩ := hevent'
      exact (periodic.filed_run updates _ periodic.filed_new).stored
  | _ => trivial

end Names

/-! ## What is composed of two rates

Every composition is a product or a quotient, and what it says of assets and counts it takes
from its two ends. So a chain of them says the first base and the last quote, whatever is in
between, and only a currency against itself or against USD is no composition. -/

/-- The counts of an answer are those of two rates for their own assets. A rate counts for both of
its assets. What is compared is the count for the base asset of each operand, since every operand
is a rate of its base asset against USD or USDT. -/
structure CountsOf (metadata : ExchangeRateMetadata) (base_rate quote_rate : QueriedExchangeRate) :
    Prop where
  base_queried : metadata.base_asset_num_queried_sources = base_rate.base_asset_num_queried_sources
  base_received : metadata.base_asset_num_received_rates = base_rate.base_asset_num_received_rates
  quote_queried :
    metadata.quote_asset_num_queried_sources = quote_rate.base_asset_num_queried_sources
  quote_received :
    metadata.quote_asset_num_received_rates = quote_rate.base_asset_num_received_rates

/-- What a rate says of the two it is composed of, whatever else went into it. Its timestamp and
its rates are not among it, as these depend on the route. -/
structure Composes (rate base_rate quote_rate : QueriedExchangeRate) : Prop where
  base_asset : rate.base_asset = base_rate.base_asset
  quote_asset : rate.quote_asset = quote_rate.base_asset
  counts : CountsOf rate.into.metadata base_rate quote_rate

theorem composes_div (base_rate quote_rate : QueriedExchangeRate) :
    Composes (base_rate / quote_rate) base_rate quote_rate := ⟨rfl, rfl, rfl, rfl, rfl, rfl⟩

theorem Composes.inverted {rate base_rate quote_rate : QueriedExchangeRate}
    (h : Composes rate base_rate quote_rate) : Composes rate.inverted quote_rate base_rate :=
  ⟨h.quote_asset, h.base_asset, h.counts.quote_queried, h.counts.quote_received,
    h.counts.base_queried, h.counts.base_received⟩

/-- **A composed crypto/fiat rate** is of its cryptocurrency and its currency: what the
stablecoins and USD have added in between is gone. -/
theorem composes_crypto_fiat_rate {operands : CryptoFiatOperands} {rate : QueriedExchangeRate}
    (h : crypto_fiat_rate operands = .ok rate) :
    Composes rate operands.crypto_base_rate operands.forex_rate
      ∧ rate.timestamp = operands.crypto_base_rate.timestamp
      ∧ (operands.crypto_base_rate.forex_timestamp = none →
          rate.forex_timestamp = operands.forex_rate.forex_timestamp) := by
  unfold crypto_fiat_rate at h
  split at h
  · cases h
  · rename_i stablecoin_rate hstablecoin
    dsimp only at h
    rw [eq_of_validate_ok h]
    obtain ⟨chosen, -, rfl⟩ := map_eq_ok_iff.mp hstablecoin
    refine ⟨⟨rfl, rfl, rfl, rfl, rfl, rfl⟩, rfl, ?_⟩
    intro hnone
    -- a stablecoin rate has no forex timestamp
    show mul_forex_timestamp (mul_forex_timestamp operands.crypto_base_rate.forex_timestamp none)
      operands.forex_rate.forex_timestamp = operands.forex_rate.forex_timestamp
    rw [hnone]
    cases operands.forex_rate.forex_timestamp with
    | none => rfl
    | some day => rfl

namespace ForexRateStore

variable [Features] [Unicode] {self : ForexRateStore} {requested current : ℕ}
  {base_asset quote_asset : String} {rate : QueriedExchangeRate}

omit [Features] in
theorem to_uppercase_USD : to_uppercase USD = USD := to_uppercase_of_upper (by decide)

/-- The rates of two currencies against USD. -/
def own_rates (self : ForexRateStore) (requested current : ℕ) (base_asset quote_asset : String) :
    Option (QueriedExchangeRate × QueriedExchangeRate) :=
  (self.get requested current base_asset USD).toOption.bind fun base_rate =>
    (self.get requested current quote_asset USD).toOption.map fun quote_rate =>
      (base_rate, quote_rate)

theorem own_rates_eq {base_rate quote_rate : QueriedExchangeRate}
    (hbase : self.get requested current base_asset USD = .ok base_rate)
    (hquote : self.get requested current quote_asset USD = .ok quote_rate) :
    self.own_rates requested current base_asset quote_asset = some (base_rate, quote_rate) := by
  rw [own_rates, hbase, hquote]
  rfl

/-- USD has a rate against itself on every day. -/
theorem get_usd_usd (self : ForexRateStore) (requested current : ℕ) {symbol : String}
    (hsymbol : to_uppercase symbol = USD) : self.get requested current symbol USD
      = .ok (unit_rate USD (shifted_timestamp requested current)) := by
  unfold get
  dsimp only
  rw [hsymbol, to_uppercase_USD, if_pos rfl]

/-- Two currencies other than USD are each counted on their own side. -/
theorem composes_cross_rate (hbase : to_uppercase base_asset ≠ USD)
    (hquote : to_uppercase quote_asset ≠ USD)
    (hne : to_uppercase base_asset ≠ to_uppercase quote_asset)
    (h : self.get requested current base_asset quote_asset = .ok rate) :
    ∃ base_rate quote_rate,
      self.own_rates requested current base_asset quote_asset = some (base_rate, quote_rate)
        ∧ Composes rate base_rate quote_rate := by
  rcases get_cases h with ⟨hsame, -⟩ | ⟨day, rates, hfound, hcase⟩
  · exact absurd hsame hne
  · rcases hcase with ⟨husd, -⟩ | ⟨husd, -⟩ | ⟨-, -, -, base_rate, quote_rate, hb, hq, rfl⟩
    · exact absurd husd hquote
    · exact absurd husd hbase
    · -- the two stored rates are what each currency has against USD
      exact ⟨base_rate, quote_rate,
        own_rates_eq (hfound.get_usd hbase hb) (hfound.get_usd hquote hq), composes_div _ _⟩

/-- **A currency against USD** is counted on both sides. What is stored is a rate against the
dollar, so the answer is the entry itself, and its own counts stand for both the base and the
quote asset. -/
theorem Dated.counts_against_usd (hdated : self.Dated) (hquote : to_uppercase quote_asset = USD)
    (hbase : to_uppercase base_asset ≠ USD)
    (h : self.get requested current base_asset quote_asset = .ok rate) :
    ∃ base_rate quote_rate,
      self.own_rates requested current base_asset quote_asset = some (base_rate, quote_rate)
        ∧ CountsOf rate.into.metadata base_rate base_rate := by
  rcases get_cases h with ⟨hsame, -⟩ | ⟨day, rates, hfound, hcase⟩
  · exact absurd (hsame.trans hquote) hbase
  · rcases hcase with ⟨-, -, hrate⟩ | ⟨husd, -⟩ | ⟨-, hne, -⟩
    · -- the stored entry has its counts on both sides
      obtain ⟨-, hentry⟩ := hfound.dayEntry hdated hrate
      exact ⟨rate, _, own_rates_eq (hfound.get_usd hbase hrate) (get_usd_usd self _ _ hquote),
        rfl, rfl, hentry.queried_eq, hentry.received_eq⟩
    · exact absurd husd hbase
    · exact absurd hquote hne

/-- So it is when USD comes first. -/
theorem Dated.counts_of_usd (hdated : self.Dated) (hbase : to_uppercase base_asset = USD)
    (hquote : to_uppercase quote_asset ≠ USD)
    (h : self.get requested current base_asset quote_asset = .ok rate) :
    ∃ base_rate quote_rate,
      self.own_rates requested current base_asset quote_asset = some (base_rate, quote_rate)
        ∧ CountsOf rate.into.metadata quote_rate quote_rate := by
  rcases get_cases h with ⟨hsame, -⟩ | ⟨day, rates, hfound, hcase⟩
  · exact absurd (hsame.symm.trans hbase) hquote
  · rcases hcase with ⟨husd, -⟩ | ⟨-, -, quote_rate, hrate, rfl⟩ | ⟨hne, -⟩
    · exact absurd husd hquote
    · obtain ⟨-, hentry⟩ := hfound.dayEntry hdated hrate
      exact ⟨_, quote_rate,
        own_rates_eq (get_usd_usd self _ _ hbase) (hfound.get_usd hquote hrate),
        hentry.queried_eq, hentry.received_eq, rfl, rfl⟩
    · exact absurd hbase hne

/-- A currency against itself is not looked up. -/
theorem get_same (hsame : to_uppercase base_asset = to_uppercase quote_asset)
    (h : self.get requested current base_asset quote_asset = .ok rate) :
    rate = unit_rate (to_uppercase base_asset) (shifted_timestamp requested current) := by
  unfold get at h
  dsimp only at h
  rw [if_pos hsame] at h
  exact (Except.ok.inj h).symm

end ForexRateStore

/-! ## Answers

For each route: what was gathered, what is known of it under the terms, and which asset,
timestamp, day and counts the composition has then. The statements are about the answer as it is
sent. -/

section Answers

variable [Features] [Unicode] {L : Type} [LruCache L CacheKey QueriedExchangeRate]

/-- What a handler has gathered by the end of its run. -/
def gathered {α : Type} (handler : Handler L (Except ExchangeRateError α))
    (w : World (State L) Call Answer) (n : ℕ) : Option α :=
  (handler.run w n).bind fun r => r.2.toOption

/-- The rates a request starts from for its base and its quote: those gathered against USDT
for cryptocurrencies, and those stored against USD for currencies. -/
def own_rates (env : Environment) (request : GetExchangeRateRequest) (s : State L)
    (w : World (State L) Call Answer) (n : ℕ) :
    Option (QueriedExchangeRate × QueriedExchangeRate) :=
  match request.base_asset.class', request.quote_asset.class' with
  | .Cryptocurrency, .Cryptocurrency =>
    (gathered (gather_cryptocurrency_pair env request s) w n).map fun operands =>
      (operands.base_rate, operands.quote_rate)
  | .Cryptocurrency, .FiatCurrency =>
    (gathered (gather_crypto_base_fiat_quote_pair env request s) w n).map fun operands =>
      (operands.crypto_base_rate, operands.forex_rate)
  | .FiatCurrency, .Cryptocurrency =>
    (gathered (gather_crypto_base_fiat_quote_pair env (invert_assets_in_request request) s) w
      n).map fun operands => (operands.forex_rate, operands.crypto_base_rate)
  | .FiatCurrency, .FiatCurrency =>
    s.forex_store.own_rates (chosen_timestamp env request s).value env.time_secs
      request.base_asset.symbol request.quote_asset.symbol

def involves_crypto (request : GetExchangeRateRequest) : Bool :=
  decide (request.base_asset.class' = .Cryptocurrency)
    || decide (request.quote_asset.class' = .Cryptocurrency)

def involves_fiat (request : GetExchangeRateRequest) : Bool :=
  decide (request.base_asset.class' = .FiatCurrency)
    || decide (request.quote_asset.class' = .FiatCurrency)

/-- **The answer is for the question asked.** The timestamp is that of the question only if a
cryptocurrency is involved, as the forex store answers with the day it found, which is then
reported separately. -/
structure AnswerFor (env : Environment) (request : GetExchangeRateRequest) (s : State L)
    (answer : ExchangeRate) : Prop where
  base_asset : answer.base_asset = request.base_asset
  quote_asset : answer.quote_asset = request.quote_asset
  timestamp : involves_crypto request = true →
    answer.timestamp = (chosen_timestamp env request s).value
  forex_timestamp : involves_fiat request = true →
    ∃ day, answer.metadata.forex_timestamp = some day
      ∧ ServableDay (request.timestamp.getD (chosen_timestamp env request s).value) day
  no_forex_timestamp : involves_fiat request = false → answer.metadata.forex_timestamp = none

/-- The counts of an answer are those of the rates of its two assets, except for a pair of
currencies that has one rate or none: USD is counted as the currency it is exchanged for, and
a currency against itself is not counted at all. -/
structure CountsFor (env : Environment) (request : GetExchangeRateRequest) (s : State L)
    (w : World (State L) Call Answer) (n : ℕ) (answer : ExchangeRate) : Prop where
  assets : ∀ rates, own_rates env request s w n = some rates →
    rates.1.base_asset = request.base_asset ∧ rates.2.base_asset = request.quote_asset
  own : involves_crypto request = true
      ∨ (request.base_asset ≠ request.quote_asset ∧ request.base_asset ≠ usd_asset
        ∧ request.quote_asset ≠ usd_asset) →
    ∃ rates, own_rates env request s w n = some rates
      ∧ CountsOf answer.metadata rates.1 rates.2
  against_usd : request.base_asset.class' = .FiatCurrency → request.base_asset ≠ usd_asset →
    request.quote_asset = usd_asset → ∃ rates, own_rates env request s w n = some rates
      ∧ CountsOf answer.metadata rates.1 rates.1
  of_usd : request.quote_asset.class' = .FiatCurrency → request.quote_asset ≠ usd_asset →
    request.base_asset = usd_asset → ∃ rates, own_rates env request s w n = some rates
      ∧ CountsOf answer.metadata rates.2 rates.2
  same : request.base_asset.class' = .FiatCurrency → request.base_asset = request.quote_asset →
    answer.metadata.base_asset_num_queried_sources = 0
      ∧ answer.metadata.base_asset_num_received_rates = 0
      ∧ answer.metadata.quote_asset_num_queried_sources = 0
      ∧ answer.metadata.quote_asset_num_received_rates = 0

variable {env : Environment} {request : GetExchangeRateRequest} {s s' : State L}
  {w : World (State L) Call Answer} {n : ℕ}

omit [Features] [Unicode] [LruCache L CacheKey QueriedExchangeRate] in
theorem gathered_of_run {α : Type} {handler : Handler L (Except ExchangeRateError α)} {a : α}
    (hrun : handler.run w n = some (s', .ok a)) : gathered handler w n = some a := by
  rw [gathered, hrun]
  rfl

omit [Features] in
/-- What is known of the result of a run that is served. -/
theorem Terms.result_of_served {t : Terms L} {key : GuardKey} {α : Type} {P : α → Prop}
    {handler : Handler L (Except ExchangeRateError α)} {held : List Guard}
    (h : Holds (t.Served key P) s held handler)
    (hanswers : ∀ n call s, t.answers call (w.respond n call s).1) {a : α}
    (hrun : handler.run w n = some (s', .ok a)) : P a := by
  obtain ⟨_, _, hdone⟩ := Holds.run hanswers handler s held n s' (.ok a) h hrun
  exact hdone.2 a rfl

/-- An answer is a rate the routed request has returned. -/
theorem route_of_answer {answer : ExchangeRate}
    (hrun : (get_exchange_rate_internal env request s).run w n = some (s', .ok answer)) :
    ∃ rate, (route_request env (sanitize_request request) s).run w n = some (s', .ok rate)
      ∧ answer = rate.into := by
  rw [get_exchange_rate_internal, run_map, Option.map_eq_some_iff] at hrun
  obtain ⟨⟨s'', result⟩, hresult, heq⟩ := hrun
  obtain ⟨rfl, hinto⟩ := Prod.mk.inj heq
  obtain ⟨rate, rfl, rfl⟩ := map_eq_ok_iff.mp hinto
  refine ⟨rate, ?_, rfl⟩
  -- the checks before the routing only end in errors
  rcases answer_request_cases env request s with ⟨error, -, hanswer⟩ | ⟨-, -, hanswer⟩
  · rw [hanswer] at hresult
    cases hresult
  · rw [hanswer] at hresult
    exact hresult

omit [Features] [Unicode] [LruCache L CacheKey QueriedExchangeRate] in
/-- The day of a named timestamp is the day of its minute. -/
theorem servableDay_of_chosen {day : ℕ}
    (h : ServableDay (chosen_timestamp env request s).value day) :
    ServableDay (request.timestamp.getD (chosen_timestamp env request s).value) day := by
  cases htimestamp : request.timestamp with
  | none => exact h
  | some timestamp =>
      rw [chosen_timestamp_of_named htimestamp] at h
      have hminute : start_of_day (timestamp / 60 * 60) = start_of_day timestamp := by
        simp only [start_of_day, ONE_DAY_SECONDS, ONE_HOUR_SECONDS, ONE_MINUTE_SECONDS]
        omega
      rw [Option.getD_some]
      have hge := h.ge
      have hle := h.le
      rw [NormalizedTimestamp.requested_or_current, hminute] at hge hle
      exact ⟨h.dvd, hge, hle⟩

/-- What is known of a request whose answer is composed. The operands are those of the run, found
by the handlers in the cache, in the store, or in what they were answered. -/
structure Answered (env : Environment) (request : GetExchangeRateRequest) (s : State L)
    (w : World (State L) Call Answer) (n : ℕ) (rate : QueriedExchangeRate) : Prop where
  answer : AnswerFor env request s rate.into
  composes : ∃ rates, own_rates env request s w n = some rates ∧ Composes rate rates.1 rates.2

section Terms

variable (hfinal : UpperCaseIsFinal)
  (hanswers : ∀ n call s, GenuineAnswer call (w.respond n call s).1)
  (hbase_asked : to_uppercase request.base_asset.symbol = request.base_asset.symbol)
  (hquote_asked : to_uppercase request.quote_asset.symbol = request.quote_asset.symbol)
  (hcache : NamedCache s.cache) (hforex_store : s.forex_store.Dated)

include hfinal hanswers hbase_asked hquote_asked hcache

/-- **A crypto pair** is answered for its two cryptocurrencies. Both rates are against USDT and
name their cryptocurrency, whether they were cached or fetched, so the quotient is for the pair
that was asked for and has no day of a forex store. -/
theorem crypto_pair_answered (hbase : request.base_asset.class' = .Cryptocurrency)
    (hquote : request.quote_asset.class' = .Cryptocurrency) {rate : QueriedExchangeRate}
    (hrun : (route_request env request s).run w n = some (s', .ok rate)) :
    Answered env request s w n rate := by
  obtain ⟨hroute, htimestamp⟩ := route_request_crypto_crypto hbase hquote env s
  rw [hroute, handle_cryptocurrency_pair, run_map, Option.map_eq_some_iff] at hrun
  obtain ⟨⟨s'', result⟩, hgather, heq⟩ := hrun
  obtain ⟨operands, rfl, hcomposed⟩ := bind_eq_ok_iff.mp (Prod.mk.inj heq).2
  have hserved := (named hfinal).served_gather_cryptocurrency_pair hbase hquote hbase_asked
    hquote_asked env s hcache 0
  obtain ⟨hbase_rate, hquote_rate⟩ := Terms.result_of_served hserved hanswers hgather
  have hrate := eq_of_validate_ok hcomposed
  subst hrate
  have hown : own_rates env request s w n = some (operands.base_rate, operands.quote_rate) := by
    unfold own_rates
    rw [hbase, hquote]
    dsimp only
    rw [gathered_of_run hgather]
    rfl
  refine ⟨⟨?_, ?_, ?_, ?_, ?_⟩, _, hown, composes_div _ _⟩
  · exact hbase_rate.base_asset_eq hbase
  · exact hquote_rate.base_asset_eq hquote
  · intro _
    rw [htimestamp]
    exact hbase_rate.rate_of.timestamp_eq
  · intro hfiat
    rw [involves_fiat, hbase, hquote] at hfiat
    cases hfiat
  · -- neither rate against USDT has a forex timestamp
    intro _
    show mul_forex_timestamp operands.base_rate.forex_timestamp
      operands.quote_rate.forex_timestamp = none
    rw [hbase_rate.rate_of.forex_timestamp_eq, hquote_rate.rate_of.forex_timestamp_eq]
    rfl

include hforex_store

variable (request) in
/-- What is composed for a pair of both classes, with its cryptocurrency as the base. -/
theorem composed_crypto_fiat_pair (hbase : request.base_asset.class' = .Cryptocurrency)
    (hquote : request.quote_asset.class' = .FiatCurrency) {operands : CryptoFiatOperands}
    (hgather : (gather_crypto_base_fiat_quote_pair env request s).run w n
      = some (s', .ok operands)) {rate : QueriedExchangeRate}
    (hcomposed : crypto_fiat_rate operands = .ok rate) :
    rate.base_asset = request.base_asset ∧ rate.quote_asset = request.quote_asset
      ∧ rate.timestamp = (get_normalized_timestamp env request s).value
      ∧ ∃ day, rate.forex_timestamp = some day
        ∧ ServableDay (get_normalized_timestamp env request s).value day := by
  have hserved := (named hfinal).served_gather_crypto_base_fiat_quote_pair hbase hbase_asked env s
    hcache 0
  have hoperands := Terms.result_of_served hserved hanswers hgather
  obtain ⟨hcomposes, htimestamp, hforex⟩ := composes_crypto_fiat_rate hcomposed
  -- the forex rate names the currency and the day it was found for
  have hlookup := hforex_store.forexAnswer (mapError_eq_ok_iff.mp hoperands.forex)
  refine ⟨?_, ?_, ?_, ?_⟩
  · rw [hcomposes.base_asset]
    exact hoperands.base.base_asset_eq hbase
  · rw [hcomposes.quote_asset, hlookup.base_eq, hquote_asked, ← hquote]
  · rw [htimestamp]
    exact hoperands.base.rate_of.timestamp_eq
  · rw [hforex hoperands.base.rate_of.forex_timestamp_eq]
    exact hlookup.forex_timestamp

/-- **A pair of both classes** is answered for both, in the order of the request. The fiat/crypto
arm asks for the inverse and inverts what it gets, so its assets and counts are those of the other
arm with the roles exchanged. -/
theorem crypto_fiat_pair_answered (hpair : is_crypto_fiat_pair request = true)
    {rate : QueriedExchangeRate}
    (hrun : (route_request env request s).run w n = some (s', .ok rate)) :
    Answered env request s w n rate := by
  have htimestamp := (guard_key_of_crypto_fiat_pair hpair env s).2
  rw [route_request_crypto_fiat hpair, run_map, run_map, Option.map_map, Option.map_eq_some_iff]
    at hrun
  obtain ⟨⟨s'', result⟩, hgather, heq⟩ := hrun
  have hpresented := (Prod.mk.inj heq).2
  dsimp only [Function.comp_apply] at hpresented
  unfold routed_request at htimestamp hgather
  unfold presented at hpresented
  rcases classes_of_crypto_fiat_pair hpair with ⟨hbase, hquote⟩ | ⟨hbase, hquote⟩
  · -- the pair is handled as it is
    rw [hbase, hquote] at htimestamp hgather
    rw [hbase] at hpresented
    dsimp only at htimestamp hgather hpresented
    obtain ⟨operands, rfl, hcomposed⟩ := bind_eq_ok_iff.mp (mapError_eq_ok_iff.mp hpresented)
    obtain ⟨hbase_asset, hquote_asset, htime, day, hforex, hday⟩ := composed_crypto_fiat_pair
      request hfinal hanswers hbase_asked hquote_asked hcache hforex_store hbase hquote hgather hcomposed
    rw [← htimestamp] at htime hday
    have hown : own_rates env request s w n
        = some (operands.crypto_base_rate, operands.forex_rate) := by
      unfold own_rates
      rw [hbase, hquote]
      dsimp only
      rw [gathered_of_run hgather]
      rfl
    refine ⟨⟨hbase_asset, hquote_asset, fun _ => htime, ?_, ?_⟩, _, hown,
      (composes_crypto_fiat_rate hcomposed).1⟩
    · intro _
      exact ⟨day, hforex, servableDay_of_chosen hday⟩
    · intro hno_fiat
      rw [involves_fiat, hbase, hquote] at hno_fiat
      cases hno_fiat
  · -- the pair is handled the other way round, and its rate inverted
    rw [hbase, hquote] at htimestamp hgather
    rw [hbase] at hpresented
    dsimp only at htimestamp hgather hpresented
    obtain ⟨inverse, hinverse, rfl⟩ := map_eq_ok_iff.mp (mapError_eq_ok_iff.mp hpresented)
    obtain ⟨operands, rfl, hcomposed⟩ := bind_eq_ok_iff.mp hinverse
    obtain ⟨hbase_asset, hquote_asset, htime, day, hforex, hday⟩ := composed_crypto_fiat_pair
      (invert_assets_in_request request) hfinal hanswers hquote_asked hbase_asked hcache
      hforex_store hquote hbase hgather hcomposed
    rw [← htimestamp] at htime hday
    have hown : own_rates env request s w n
        = some (operands.forex_rate, operands.crypto_base_rate) := by
      unfold own_rates
      rw [hbase, hquote]
      dsimp only
      rw [gathered_of_run hgather]
      rfl
    refine ⟨⟨hquote_asset, hbase_asset, fun _ => htime, ?_, ?_⟩, _, hown,
      (composes_crypto_fiat_rate hcomposed).1.inverted⟩
    · intro _
      exact ⟨day, hforex, servableDay_of_chosen hday⟩
    · intro hno_fiat
      rw [involves_fiat, hbase, hquote] at hno_fiat
      cases hno_fiat

/-- **A pair of currencies** is answered for both of them. The store answers for the assets it was
asked for and with the day that it found, which is never later than the one requested. -/
theorem fiat_pair_answered (hbase : request.base_asset.class' = .FiatCurrency)
    (hquote : request.quote_asset.class' = .FiatCurrency) {rate : QueriedExchangeRate}
    (hrun : (route_request env request s).run w n = some (s', .ok rate)) :
    AnswerFor env request s rate.into
      ∧ s.forex_store.get (chosen_timestamp env request s).value env.time_secs
        request.base_asset.symbol request.quote_asset.symbol = .ok rate := by
  have hserved := (named hfinal).served_route_request env request hbase_asked hquote_asked s hcache
  have hget : s.forex_store.get (chosen_timestamp env request s).value env.time_secs
      request.base_asset.symbol request.quote_asset.symbol = .ok rate := by
    -- the two other routes are excluded by the classes of the assets
    cases Terms.result_of_served hserved hanswers hrun with
    | crypto_pair hcrypto _ _ _ _ =>
        rw [hbase] at hcrypto
        cases hcrypto
    | crypto_fiat_pair hpair _ _ =>
        rw [is_crypto_fiat_pair, hbase, hquote] at hpair
        cases hpair
    | fiat_pair _ _ hcomposed =>
        obtain ⟨found, hfound, hvalid⟩ := bind_eq_ok_iff.mp hcomposed
        rw [eq_of_validate_ok hvalid]
        exact mapError_eq_ok_iff.mp hfound
  refine ⟨?_, hget⟩
  -- what was looked up names its assets and its day, which may be served
  have hlookup := hforex_store.forexAnswer hget
  obtain ⟨day, hforex, hday⟩ := hlookup.forex_timestamp
  refine ⟨?_, ?_, ?_, ?_, ?_⟩
  · show rate.base_asset = request.base_asset
    rw [hlookup.base_eq, hbase_asked, ← hbase]
  · show rate.quote_asset = request.quote_asset
    rw [hlookup.quote_eq, hquote_asked, ← hquote]
  · intro hcrypto
    rw [involves_crypto, hbase, hquote] at hcrypto
    cases hcrypto
  · intro _
    exact ⟨day, hforex, servableDay_of_chosen hday⟩
  · intro hno_fiat
    rw [involves_fiat, hbase] at hno_fiat
    cases hno_fiat

end Terms

/-! ### Counts

A pair of currencies is a case of its own. USD has no stored rate, and a currency against itself
is not looked up, so there the counts are what the lookup puts in their place. -/

/-- A composed answer counts the rates of its two assets. Those are the counts the two operands
bear for their own base assets, which the composition carries over. -/
theorem Answered.countsFor {rate : QueriedExchangeRate} (h : Answered env request s w n rate)
    (hcrypto : involves_crypto request = true) : CountsFor env request s w n rate.into := by
  obtain ⟨rates, hown, hcomposes⟩ := h.composes
  -- the cases of `CountsFor` that are about two currencies are void
  have hno_fiat_pair : request.base_asset.class' = .FiatCurrency →
      request.quote_asset.class' ≠ .FiatCurrency := by
    intro hbase hquote
    rw [involves_crypto, hbase, hquote] at hcrypto
    cases hcrypto
  refine ⟨?_, fun _ => ⟨rates, hown, hcomposes.counts⟩, ?_, ?_, ?_⟩
  · intro rates' hown'
    obtain rfl : rates = rates' := Option.some.inj (hown.symm.trans hown')
    rw [← hcomposes.base_asset, ← hcomposes.quote_asset]
    exact ⟨h.answer.base_asset, h.answer.quote_asset⟩
  · intro hbase _ hquote
    refine absurd ?_ (hno_fiat_pair hbase)
    rw [hquote]
    rfl
  · intro hquote _ hbase
    refine absurd hquote (hno_fiat_pair ?_)
    rw [hbase]
    rfl
  · intro hbase hsame
    refine absurd ?_ (hno_fiat_pair hbase)
    rw [← hsame]
    exact hbase

omit [Features] in
/-- The one currency whose symbol is that of USD. -/
theorem eq_usd_asset_iff {asset : Asset} (hclass : asset.class' = .FiatCurrency)
    (hsymbol : to_uppercase asset.symbol = asset.symbol) :
    asset = usd_asset ↔ to_uppercase asset.symbol = USD := by
  rw [hsymbol]
  constructor
  · rintro rfl
    rfl
  · intro husd
    rw [usd_asset, ← husd, ← hclass]

/-- **An answer for two currencies** counts the rates that were stored for them. USD has no entry
in the store: it counts what the other currency does, and a currency against itself counts nothing
at all. Hence the clauses for the two special cases. -/
theorem countsFor_fiat_pair
    (hbase_asked : to_uppercase request.base_asset.symbol = request.base_asset.symbol)
    (hquote_asked : to_uppercase request.quote_asset.symbol = request.quote_asset.symbol)
    (hforex_store : s.forex_store.Dated) (hbase : request.base_asset.class' = .FiatCurrency)
    (hquote : request.quote_asset.class' = .FiatCurrency) {rate : QueriedExchangeRate}
    (hget : s.forex_store.get (chosen_timestamp env request s).value env.time_secs
      request.base_asset.symbol request.quote_asset.symbol = .ok rate) :
    CountsFor env request s w n rate.into := by
  have hown : own_rates env request s w n = s.forex_store.own_rates
      (chosen_timestamp env request s).value env.time_secs request.base_asset.symbol
        request.quote_asset.symbol := by
    unfold own_rates
    rw [hbase, hquote]
  -- assets are compared by their symbols, which the store looks up in upper case
  have hbase_usd := eq_usd_asset_iff hbase hbase_asked
  have hquote_usd := eq_usd_asset_iff hquote hquote_asked
  have hsame : request.base_asset = request.quote_asset
      ↔ to_uppercase request.base_asset.symbol = to_uppercase request.quote_asset.symbol := by
    rw [hbase_asked, hquote_asked]
    constructor
    · intro heq
      rw [heq]
    · intro heq
      obtain ⟨⟨base, base_class⟩, ⟨quote, quote_class⟩, timestamp⟩ := request
      rw [Asset.mk.injEq]
      exact ⟨heq, hbase.trans hquote.symm⟩
  refine ⟨?_, ?_, ?_, ?_, ?_⟩
  · intro rates hrates
    rw [hown, ForexRateStore.own_rates, Option.bind_eq_some_iff] at hrates
    obtain ⟨base_rate, hbase_rate, hrest⟩ := hrates
    obtain ⟨quote_rate, hquote_rate, rfl⟩ := Option.map_eq_some_iff.mp hrest
    have hbase_lookup := hforex_store.forexAnswer (toOption_eq_some_iff.mp hbase_rate)
    have hquote_lookup := hforex_store.forexAnswer (toOption_eq_some_iff.mp hquote_rate)
    refine ⟨?_, ?_⟩
    · rw [hbase_lookup.base_eq, hbase_asked, ← hbase]
    · rw [hquote_lookup.base_eq, hquote_asked, ← hquote]
  · rintro (hcrypto | ⟨hne, hbase_ne, hquote_ne⟩)
    · rw [involves_crypto, hbase, hquote] at hcrypto
      cases hcrypto
    · obtain ⟨base_rate, quote_rate, hrates, hcomposes⟩ := ForexRateStore.composes_cross_rate
        (fun husd => hbase_ne (hbase_usd.mpr husd)) (fun husd => hquote_ne (hquote_usd.mpr husd))
        (fun heq => hne (hsame.mpr heq)) hget
      exact ⟨_, hown.trans hrates, hcomposes.counts⟩
  · intro _ hbase_ne husd
    obtain ⟨base_rate, quote_rate, hrates, hcounts⟩ := hforex_store.counts_against_usd
      (hquote_usd.mp husd) (fun husd => hbase_ne (hbase_usd.mpr husd)) hget
    exact ⟨_, hown.trans hrates, hcounts⟩
  · intro _ hquote_ne husd
    obtain ⟨base_rate, quote_rate, hrates, hcounts⟩ := hforex_store.counts_of_usd
      (hbase_usd.mp husd) (fun husd => hquote_ne (hquote_usd.mpr husd)) hget
    exact ⟨_, hown.trans hrates, hcounts⟩
  · -- the unit rate has no sources
    intro _ heq
    rw [ForexRateStore.get_same (hsame.mp heq) hget]
    exact ⟨rfl, rfl, rfl, rfl⟩

/-! ### Every answer

The routes are put together, with the invariant of the cache and of the forex store over all
runs. -/

omit [Features] [Unicode] [LruCache L CacheKey QueriedExchangeRate] in
/-- Without a named timestamp an answer is for one of the last two whole minutes. -/
theorem chosen_timestamp_of_unnamed (htimestamp : request.timestamp = none)
    (hnow : 150 ≤ env.time_secs) :
    60 ∣ (chosen_timestamp env request s).value
      ∧ env.time_secs - 150 < (chosen_timestamp env request s).value
      ∧ (chosen_timestamp env request s).value ≤ env.time_secs - 30 := by
  have hminute : utils.get_normalized_timestamp env request = (env.time_secs - 30) / 60 * 60 := by
    rw [utils.get_normalized_timestamp, htimestamp, Option.getD_none]
  rcases chosen_timestamp_cases env request s with hchosen | ⟨-, hchosen⟩
  · rw [hchosen]
    simp only [NormalizedTimestamp.requested_or_current, hminute]
    omega
  · rw [hchosen]
    simp only [NormalizedTimestamp.past, hminute, ONE_MINUTE_SECONDS]
    omega

/-- Every answer to a sanitized request. The three kinds of pairs each have a lemma of their own
above, so this is their case distinction. -/
theorem answered_request (hfinal : UpperCaseIsFinal)
    (hanswers : ∀ n call s, GenuineAnswer call (w.respond n call s).1)
    (hbase_asked : to_uppercase request.base_asset.symbol = request.base_asset.symbol)
    (hquote_asked : to_uppercase request.quote_asset.symbol = request.quote_asset.symbol)
    (hcache : NamedCache s.cache) (hforex_store : s.forex_store.Dated) {rate : QueriedExchangeRate}
    (hrun : (route_request env request s).run w n = some (s', .ok rate)) :
    AnswerFor env request s rate.into ∧ CountsFor env request s w n rate.into := by
  -- the handlers answer for their own kind of pair; what is left is which counts are claimed
  cases pairKind request with
  | crypto_fiat_pair hpair =>
      have hanswered := crypto_fiat_pair_answered hfinal hanswers hbase_asked hquote_asked hcache
        hforex_store hpair hrun
      have hcrypto : involves_crypto request = true := by
        unfold involves_crypto
        rcases classes_of_crypto_fiat_pair hpair with ⟨hbase, hquote⟩ | ⟨hbase, hquote⟩
        · rw [hbase]
          rfl
        · rw [hbase, hquote]
          rfl
      exact ⟨hanswered.answer, hanswered.countsFor hcrypto⟩
  | crypto_pair hbase hquote =>
      have hanswered := crypto_pair_answered hfinal hanswers hbase_asked hquote_asked hcache
        hbase hquote hrun
      have hcrypto : involves_crypto request = true := by
        rw [involves_crypto, hbase]
        rfl
      exact ⟨hanswered.answer, hanswered.countsFor hcrypto⟩
  | fiat_pair hbase hquote =>
      obtain ⟨hanswer, hget⟩ := fiat_pair_answered hfinal hanswers hbase_asked hquote_asked
        hcache hforex_store hbase hquote hrun
      exact ⟨hanswer, countsFor_fiat_pair hbase_asked hquote_asked hforex_store hbase hquote
        hget⟩

/-- **The answer is for the question asked.** In every state the canister can reach, with the
forex rates that runs of the periodic task have stored, and whatever happens while a request
waits: an answer is for the assets of its request, at its timestamp, with the forex rates of one
of the days that may be served for it, and its counts are those of the rates it started from.

Names and times are carried through the cache and the forex store by the terms of `Terms.lean`,
which every step keeps. For the request itself each handler is followed from its operands to its
answer, and the operands are those of its own assets by the keys they are looked up with. -/
theorem answer_is_for_the_request [Calendar] (hfinal : UpperCaseIsFinal) (events : List Event)
    (hgenuine : ∀ event ∈ events, event.Genuine) (hstored : ∀ event ∈ events, event.Stored)
    (env : Environment) (request : GetExchangeRateRequest) (w : World (State L) Call Answer)
    (n : ℕ) (hanswers : ∀ n call s, GenuineAnswer call (w.respond n call s).1)
    (s' : State L) (answer : ExchangeRate) :
    let c : Canister L := run (Canister.idle State.new) events
    (get_exchange_rate_internal env request c.state).run w n = some (s', .ok answer) →
      AnswerFor env (sanitize_request request) c.state answer
        ∧ (involves_crypto request = true → request.timestamp = none → 150 ≤ env.time_secs →
          60 ∣ answer.timestamp ∧ env.time_secs - 150 < answer.timestamp
            ∧ answer.timestamp ≤ env.time_secs - 30)
        ∧ CountsFor env (sanitize_request request) c.state w n answer := by
  intro c hrun
  have hkept : (named hfinal).Kept c := kept_of_stored hfinal hgenuine hstored
  have hcache : NamedCache c.state.cache := hkept.cache
  have hforex_store : c.state.forex_store.Dated := hkept.forex_store
  have hbase_asked : to_uppercase (sanitize_request request).base_asset.symbol
      = (sanitize_request request).base_asset.symbol := to_uppercase_sanitize_symbol hfinal _
  have hquote_asked : to_uppercase (sanitize_request request).quote_asset.symbol
      = (sanitize_request request).quote_asset.symbol := to_uppercase_sanitize_symbol hfinal _
  -- what is routed is a sanitized request, in a state that keeps the terms
  obtain ⟨rate, hroute, rfl⟩ := route_of_answer hrun
  obtain ⟨hanswer, hcounts⟩ := answered_request hfinal hanswers hbase_asked hquote_asked hcache
    hforex_store hroute
  refine ⟨hanswer, ?_, hcounts⟩
  intro hcrypto hunnamed hnow
  rw [hanswer.timestamp hcrypto]
  exact chosen_timestamp_of_unnamed hunnamed hnow

end Answers

/-! ## A day with the basket

The states of the examples are reached by a timer event whose forex rates an update has stored,
with every exchange and every source answering. -/

/-- A timer event with the rates of one update in which every source answers. -/
def basketStored [Features] [Calendar] : List Event :=
  [.timer (periodic.run .new [.heartbeat 1_700_000_000,
    .answers fun _ => some periodic.basketQuotes]).forex_store ListingStore.default]

theorem basketStored_spec [Features] [Unicode] [Calendar] :
    (∀ event ∈ basketStored, event.Genuine) ∧ ∀ event ∈ basketStored, event.Stored := by
  refine ⟨?_, ?_⟩
  · intro event hmem
    rw [List.mem_singleton.mp hmem]
    trivial
  · intro event hmem
    rw [List.mem_singleton.mp hmem]
    exact ⟨_, rfl⟩

/-- Every exchange answers one USDT. -/
def unitPrices [Unicode] : World (State RecentRates) Call Answer :=
  undisturbed 1_700_000_000 fun _ _ => .ok RATE_UNIT

theorem genuine_unitPrices [Unicode] (n : ℕ) (call : Call) (s : State RecentRates) :
    GenuineAnswer call (unitPrices.respond n call s).1 := ⟨s.listing_store, _, _, rfl⟩

/-- The upper case of ASCII has none of its own. -/
theorem upperCaseIsFinal_ascii : letI := asciiUnicode; UpperCaseIsFinal := by
  intro c d hd
  rw [List.mem_singleton.mp hd]
  refine congrArg (fun c => [c]) ?_
  by_cases h : 'a'.val ≤ c.val ∧ c.val ≤ 'z'.val
  · have hupper := val_toUpper_of_lower h
    apply toUpper_of_not_lower
    rw [hupper]
    grind
  · rw [toUpper_of_not_lower h, toUpper_of_not_lower h]

/-- ICP in euros, twenty seconds into a minute: the answer is for the minute before, with the
euro of the day before. -/
theorem icp_eur_answered :
    letI := defaultBuild
    letI := asciiUnicode
    letI := weekdays
    ∃ answer : ExchangeRate,
      AnswerFor (Environment.ordinary 1_700_000_000)
          ⟨⟨"ICP", .Cryptocurrency⟩, ⟨"EUR", .FiatCurrency⟩, none⟩
          (run (Canister.idle (State.new : State RecentRates)) basketStored).state answer
        ∧ answer.timestamp = 1_699_999_920
        ∧ answer.metadata.forex_timestamp = some 1_699_833_600 := by
  let _ := defaultBuild
  let _ := asciiUnicode
  let _ := weekdays
  -- the answer exists: the request is evaluated
  have hrun : ((get_exchange_rate_internal (Environment.ordinary 1_700_000_000)
      ⟨⟨"icp", .Cryptocurrency⟩, ⟨"eur", .FiatCurrency⟩, none⟩
      (run (Canister.idle (State.new : State RecentRates)) basketStored).state).run unitPrices
        0).map (fun r => r.2.toOption.map fun answer =>
          (answer.timestamp, answer.metadata.forex_timestamp))
      = some (some (1_699_999_920, some 1_699_833_600)) := by
    decide +kernel
  obtain ⟨⟨s', result⟩, hrun, hresult⟩ := Option.map_eq_some_iff.mp hrun
  obtain ⟨answer, hanswer, hpair⟩ := Option.map_eq_some_iff.mp hresult
  obtain ⟨htimestamp, hforex⟩ := Prod.mk.inj hpair
  rw [toOption_eq_some_iff] at hanswer
  rw [show result = .ok answer from hanswer] at hrun
  have hsanitized : sanitize_request
      ⟨⟨"icp", .Cryptocurrency⟩, ⟨"eur", .FiatCurrency⟩, none⟩
        = ⟨⟨"ICP", .Cryptocurrency⟩, ⟨"EUR", .FiatCurrency⟩, none⟩ := by
    decide +kernel
  have hfor := (answer_is_for_the_request upperCaseIsFinal_ascii basketStored basketStored_spec.1
    basketStored_spec.2 (Environment.ordinary 1_700_000_000)
    ⟨⟨"icp", .Cryptocurrency⟩, ⟨"eur", .FiatCurrency⟩, none⟩ unitPrices 0 genuine_unitPrices s'
    answer hrun).1
  rw [hsanitized] at hfor
  exact ⟨answer, hfor, htimestamp, hforex⟩

/-- The euro in US dollars: USD is counted with the two sources that have quoted the euro,
although its own rate has none. -/
theorem usd_counted_as_eur :
    letI := defaultBuild
    letI := asciiUnicode
    letI := weekdays
    ¬ ∀ (events : List Event), (∀ event ∈ events, event.Genuine) →
      (∀ event ∈ events, event.Stored) →
      ∀ (env : Environment) (request : GetExchangeRateRequest)
        (w : World (State RecentRates) Call Answer) (n : ℕ),
      (∀ n call s, GenuineAnswer call (w.respond n call s).1) → ∀ s' answer,
      (get_exchange_rate_internal env request
          (run (Canister.idle State.new) events).state).run w n = some (s', .ok answer) →
        ∃ rates, own_rates env (sanitize_request request)
            (run (Canister.idle (State.new : State RecentRates)) events).state w n = some rates
          ∧ CountsOf answer.metadata rates.1 rates.2 := by
  let _ := defaultBuild
  let _ := asciiUnicode
  let _ := weekdays
  intro h
  have hrun : ((get_exchange_rate_internal (Environment.ordinary 1_700_000_000)
      ⟨⟨"EUR", .FiatCurrency⟩, ⟨"USD", .FiatCurrency⟩, none⟩
      (run (Canister.idle (State.new : State RecentRates)) basketStored).state).run unitPrices
        0).map (fun r => r.2.toOption.map fun answer =>
          answer.metadata.quote_asset_num_received_rates) = some (some 2) := by
    decide +kernel
  have hown : (own_rates (Environment.ordinary 1_700_000_000)
      (sanitize_request ⟨⟨"EUR", .FiatCurrency⟩, ⟨"USD", .FiatCurrency⟩, none⟩)
      (run (Canister.idle (State.new : State RecentRates)) basketStored).state unitPrices 0).map
        (fun rates => rates.2.base_asset_num_received_rates) = some 0 := by
    decide +kernel
  obtain ⟨⟨s', result⟩, hrun, hresult⟩ := Option.map_eq_some_iff.mp hrun
  obtain ⟨answer, hanswer, hreceived⟩ := Option.map_eq_some_iff.mp hresult
  rw [toOption_eq_some_iff] at hanswer
  rw [show result = .ok answer from hanswer] at hrun
  obtain ⟨rates, hrates, hcounts⟩ := h basketStored basketStored_spec.1 basketStored_spec.2 _ _
    unitPrices 0 genuine_unitPrices s' answer hrun
  rw [hrates, Option.map_some, Option.some.injEq] at hown
  -- the answer counts two sources for USD, its own rate none
  rw [hcounts.quote_received, hown] at hreceived
  cases hreceived

end Xrc
