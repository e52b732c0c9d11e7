/-
From the responses of the exchanges to the answers of the canister, over whole runs. A price may
be fetched for one request, cached, and serve another one much later; the forex rates come out of
a store that a timer fills. Nothing on the way records where a number is from.

`Priced` says of a single number that an exchange traded an asset at it, or the asset's inverse.
It is a term on which requests are served (`priced`), so that it holds of everything the cache
ever contains and of all an answer is composed of (`answers_were_published`).
-/
import Xrc.PublishedRates
import Xrc.Answers

set_option autoImplicit false

namespace Xrc

open Async CallExchangesImpl QueriedExchangeRate periodic

section Prices

variable [F64] [Chrono] [Unicode] [Encoding] [ExchangeSerde] [ForexSerde] [Subnet]

/-! ## Where a price is from

The property of a single number: some raw response of an exchange to its own request held it,
for this symbol and time. A price of a stablecoin may be the inverse of such a number, where the
exchange trades the pair the other way round. -/

/-- A raw response of an exchange to the request for a pair and a time held the rate. The context
travels with the request and tells the transform which exchange to read the response for; it has
to be one that could be encoded. -/
def TradedAt (managements : List Management) (exchange : Exchange) (args : CallExchangeArgs)
    (rate : ℕ) : Prop :=
  ∃ management ∈ managements, ∃ context raw, exchange.encode_context = .ok context
    ∧ management.Received (exchange_request management exchange args context) raw
    ∧ exchange.extract_rate raw.body = .ok rate

/-- The request for a symbol against USDT. -/
def against_usdt (symbol : String) (timestamp : ℕ) : CallExchangeArgs :=
  { timestamp := timestamp
    quote_asset := usdt_asset
    base_asset := ⟨symbol, .Cryptocurrency⟩ }

/-- The request for USDT against a symbol. -/
def of_usdt (symbol : String) (timestamp : ℕ) : CallExchangeArgs :=
  { timestamp := timestamp
    quote_asset := ⟨symbol, .Cryptocurrency⟩
    base_asset := usdt_asset }

/-- A number is the price of a symbol in USDT that an exchange had at a time. An exchange that has
only the pair the other way round is asked for that, and the inverse of its price is used. -/
inductive Priced (managements : List Management) (symbol : String) (timestamp value : ℕ) :
    Prop where
  | traded (exchange : Exchange)
      (h : TradedAt managements exchange (against_usdt symbol timestamp) value) :
      Priced managements symbol timestamp value
  | inverted (exchange : Exchange) (rate : ℕ)
      (h : TradedAt managements exchange (of_usdt symbol timestamp) rate)
      (hinverted : checked_invert_rate rate DECIMALS = some value) :
      Priced managements symbol timestamp value

/-- What a call to an exchange returns was traded there. -/
theorem traded_of_call {managements : List Management} {management : Management}
    (hmem : management ∈ managements) {exchange : Exchange} {args : CallExchangeArgs} {rate : ℕ}
    (h : call_exchange_raw management exchange args = .ok rate) :
    TradedAt managements exchange args rate := by
  have hreads := call_exchange_reads management exchange args
  rw [h] at hreads
  exact ⟨management, hmem, hreads⟩

/-- The answer to a call is made of the outcalls of one round. The listing store decides which
exchanges are asked, and any of its states will do here. -/
def Outcalled (managements : List Management) (call : Call) (answer : Answer call) : Prop :=
  ∃ management ∈ managements, ∃ listing_store now_secs,
    answer = implement listing_store now_secs (call_exchange_raw management) call

theorem Outcalled.genuine {managements : List Management} {call : Call} {answer : Answer call}
    (h : Outcalled managements call answer) : GenuineAnswer call answer := by
  obtain ⟨management, -, listing_store, now_secs, hanswer⟩ := h
  exact ⟨listing_store, now_secs, call_exchange_raw management, hanswer⟩

omit [F64] [Chrono] [Unicode] [Encoding] [ExchangeSerde] [ForexSerde] [Subnet] in
/-- The rates of a new rate are among those it is built from. -/
theorem mem_of_mem_new {asset quote : Asset} {timestamp : ℕ} {rates : List ℕ}
    {queried received : ℕ} {forex_timestamp : Option ℕ} {value : ℕ}
    (h : value ∈ (QueriedExchangeRate.new asset quote timestamp rates queried received
      forex_timestamp).rates) : value ∈ rates := by
  rw [new_rates, mem_sort, List.mem_filter] at h
  exact h.1

variable {managements : List Management}

/-- The rates for a cryptocurrency, one exchange each. -/
theorem priced_of_crypto {exchanges : List Exchange} {asset : Asset}
    (hclass : asset.class' = .Cryptocurrency) {timestamp : ℕ}
    {response : QueriedExchangeRateWithFailedExchanges}
    (h : Outcalled managements (.get_cryptocurrency_usdt_rate exchanges asset timestamp)
      (.ok response)) :
    ∀ value ∈ response.queried_exchange_rate.rates,
      Priced managements asset.symbol timestamp value := by
  obtain ⟨management, hmem, listing_store, now_secs, hanswer⟩ := h
  have hquery : get_cryptocurrency_usdt_rate listing_store now_secs (call_exchange_raw management)
      exchanges asset timestamp = .ok response := hanswer.symm
  rw [get_cryptocurrency_usdt_rate] at hquery
  dsimp only at hquery
  split_ifs at hquery
  rw [← Except.ok.inj hquery]
  intro value hvalue
  -- each rate that `new` has kept was the answer of one exchange
  obtain ⟨result, hresult, hsome⟩ := List.mem_filterMap.mp (mem_of_mem_new hvalue)
  obtain ⟨exchange, -, rfl⟩ := List.mem_map.mp hresult
  apply Priced.traded exchange
  have hasset : asset = ⟨asset.symbol, .Cryptocurrency⟩ := by
    rw [← hclass]
  rw [against_usdt, ← hasset]
  exact traded_of_call hmem (toOption_eq_some_iff.mp hsome)

omit [F64] [Chrono] [Unicode] [Encoding] [ExchangeSerde] [ForexSerde] [Subnet] in
/-- A stablecoin is traded against USDT, on one side or the other. -/
theorem stablecoin_pair_cases {symbol : String} {exchange : Exchange} {pair : String × String}
    (h : stablecoin_pair symbol exchange = some pair) (hne : symbol ≠ USDT) :
    pair = (symbol, USDT) ∨ pair = (USDT, symbol) := by
  have hside : pair.1 = symbol ∨ pair.2 = symbol := by simpa using List.find?_some h
  have husdt : pair.1 = USDT ∨ pair.2 = USDT := by
    have hpairs : ∀ p ∈ exchange.supported_stablecoin_pairs, p.1 = USDT ∨ p.2 = USDT := by
      cases exchange <;> decide
    exact hpairs pair (List.mem_of_find?_eq_some h)
  -- USDT cannot be on the side of the stablecoin
  rcases hside with hsymbol | hsymbol
  · rcases husdt with hbase | hquote
    · exact absurd (hsymbol.symm.trans hbase) hne
    · exact Or.inl (Prod.ext hsymbol hquote)
  · rcases husdt with hbase | hquote
    · exact Or.inr (Prod.ext hbase hsymbol)
    · exact absurd (hsymbol.symm.trans hquote) hne

/-- The rates for a stablecoin, some of them inverted. -/
theorem priced_of_stablecoin {exchanges : List Exchange} {symbols : List String} {timestamp : ℕ}
    {results : List QueryResult}
    (h : Outcalled managements (.get_stablecoin_rates exchanges symbols timestamp) results)
    {symbol : String} (hne : symbol ≠ USDT) {response : QueriedExchangeRateWithFailedExchanges}
    (hmem : (.ok response, symbol) ∈ results.zip symbols) :
    ∀ value ∈ response.queried_exchange_rate.rates,
      Priced managements symbol timestamp value := by
  obtain ⟨management, hmanagement, listing_store, now_secs, rfl⟩ := h
  -- each result stands next to the symbol that was asked for
  rw [implement, ← List.map_prod_right_eq_zip] at hmem
  obtain ⟨asked, -, heq⟩ := List.mem_map.mp hmem
  obtain ⟨hquery, rfl⟩ := Prod.mk.inj heq
  rw [get_stablecoin_rate] at hquery
  split_ifs at hquery
  rw [← Except.ok.inj hquery]
  intro value hvalue
  obtain ⟨result, hresult, hsome⟩ := List.mem_filterMap.mp (mem_of_mem_new hvalue)
  obtain ⟨exchange, -, hcalled⟩ := List.mem_filterMap.mp hresult
  obtain ⟨pair, hpair, rfl⟩ := Option.map_eq_some_iff.mp hcalled
  rw [toOption_eq_some_iff, call_exchange_for_stablecoin] at hsome
  rcases stablecoin_pair_cases hpair hne with rfl | rfl
  · rw [if_neg (by simpa using hne)] at hsome
    exact .traded exchange (traded_of_call hmanagement hsome)
  · rw [if_pos (by simp)] at hsome
    cases hcall : call_exchange_raw management exchange
        ⟨timestamp, ⟨asked, .Cryptocurrency⟩, ⟨USDT, .Cryptocurrency⟩⟩ with
    | error err =>
        rw [hcall] at hsome
        cases hsome
    | ok rate =>
        rw [hcall] at hsome
        apply Priced.inverted exchange rate (traded_of_call hmanagement hcall)
        cases hinverted : checked_invert_rate rate DECIMALS with
        | none =>
            simp [Except.bind, hinverted] at hsome
        | some inverted =>
            simp only [Except.bind, hinverted, Except.ok.injEq] at hsome
            rw [hsome]

end Prices

/-! ## The terms

The property is carried through the handlers by the terms of `Terms.lean`: what may stand in the
cache and the store, and what a call may be answered with. The cache is looked up under a name,
so the terms also say that an entry carries its own name. -/

section Terms

variable [F64] [Chrono] [Unicode] [Encoding] [ExchangeSerde] [ForexSerde] [Subnet] {L : Type}
  [LruCache L CacheKey QueriedExchangeRate] (managements : List Management)

/-- What is cached carries its name, and its rates are prices. The prices belong to the key and
not to the time of the insertion, so entries may stay for as long as they do. -/
structure PricedCache (cache : ExchangeRateCache L) : Prop where
  named : NamedCache cache
  priced : ∀ key rate, LruCache.peek cache.lru_cache key = some rate →
    ∀ value ∈ rate.rates, Priced managements key.1 key.2 value

/-- A rate whose numbers are prices of its symbol; USDT itself needs none. -/
structure PricedRate (symbol : String) (timestamp : ℕ) (rate : QueriedExchangeRate) : Prop where
  named : NamedRate symbol timestamp rate
  priced : symbol ≠ USDT → ∀ value ∈ rate.rates, Priced managements symbol timestamp value

variable {managements}

theorem PricedCache.get {cache : ExchangeRateCache L} (h : PricedCache managements cache)
    (symbol : String) (timestamp : ℕ) :
    PricedCache managements (cache.get symbol timestamp).2 := by
  refine ⟨h.named.get symbol timestamp, ?_⟩
  intro key rate hpeek
  rw [peek_get_cache] at hpeek
  exact h.priced key rate hpeek

theorem PricedCache.insert {cache : ExchangeRateCache L} (h : PricedCache managements cache)
    {symbol : String} {timestamp : ℕ} {rate : QueriedExchangeRate}
    (hsymbol : to_uppercase symbol = symbol) (hrate : PricedRate managements symbol timestamp rate) :
    PricedCache managements (cache.insert rate) := by
  refine ⟨h.named.insert hsymbol hrate.named, ?_⟩
  intro key found hpeek
  rcases peek_insert_cases hpeek with ⟨hcaches, rfl, rfl⟩ | hbefore
  · have hentry := hrate.named.rate_of.cacheEntry hcaches
    rw [hrate.named.named, hsymbol, hrate.named.rate_of.timestamp_eq]
    apply hrate.priced
    rintro rfl
    apply hentry.symbol_ne
    rw [hrate.named.named, hsymbol]
  · exact h.priced key found hbefore

theorem PricedCache.lookup {cache : ExchangeRateCache L} (h : PricedCache managements cache)
    {symbol : String} (hsymbol : to_uppercase symbol = symbol) {timestamp : ℕ}
    {rate : QueriedExchangeRate} (hlookup : cache.lookup symbol timestamp = some rate) :
    PricedRate managements symbol timestamp rate := by
  refine ⟨h.named.lookup hsymbol hlookup, ?_⟩
  intro hne
  rw [ExchangeRateCache.lookup, hsymbol, if_neg hne] at hlookup
  exact h.priced (symbol, timestamp) rate hlookup

/-- **The terms under which every number is a price**, and every forex rate is published. -/
def priced [Features] (hfinal : UpperCaseIsFinal) (managements : List Management) : Terms L where
  answers := Outcalled managements
  forex_store := Entries (RateQuoted managements)
  asked symbol := to_uppercase symbol = symbol
  cache := PricedCache managements
  rate_of := PricedRate managements
  asked_sanitized := to_uppercase_sanitize_symbol hfinal
  asked_stablecoin _ := to_uppercase_stablecoin
  cache_get := PricedCache.get
  cache_insert h _ _ _ := h.insert
  rate_of_lookup h _ _ _ hsymbol := h.lookup hsymbol
  rate_of_crypto hclass hanswer :=
    ⟨(named (L := L) hfinal).rate_of_crypto hclass hanswer.genuine,
      fun _ => priced_of_crypto hclass hanswer⟩
  rate_of_stablecoin hanswer symbol response hmem :=
    ⟨(named (L := L) hfinal).rate_of_stablecoin hanswer.genuine symbol response hmem,
      fun hne => priced_of_stablecoin hanswer hne hmem⟩

end Terms

/-! ## Runs

A life is a run with upgrades in it. An upgrade drops the cache and whatever is suspended, and
keeps the stores; the terms hold of the stores alone. -/

section Runs

variable [Features] [F64] [Chrono] [Unicode] [Encoding] [ExchangeSerde] [ForexSerde] [Subnet]
  [Calendar] {L : Type} [LruCache L CacheKey QueriedExchangeRate]

/-- Calls are answered by outcalls, and a timer brings what the forex update has stored. The forex
rates of the timer come with a history of their own, in which every round was answered by one of
the same management canisters. -/
def Event.Outcalled (managements : List Management) : Event → Prop
  | .resume _ _ answers => ∀ call, Xrc.Outcalled managements call (answers call)
  | .timer forex_store _ => ∃ updates, (∀ update ∈ updates, OutcallEvent.Timely update)
      ∧ rounds updates ⊆ managements
      ∧ forex_store = (outcall_run ForexState.new updates).forex_store
  | _ => True

/-- What happens in the life of the canister: messages, and upgrades between them. -/
inductive LifeEvent where
  | message (event : Event)
  | upgraded

/-- The state after `pre_upgrade` and `post_upgrade`: the two stores are read back from stable
memory, and everything else is new. -/
def State.restored (s : State L) : State L :=
  { State.new with forex_store := s.forex_store, listing_store := s.listing_store }

/-- One event. What was suspended before an upgrade is never resumed. -/
def live (c : Canister L) : LifeEvent → Canister L
  | .message event => Xrc.step c event
  | .upgraded => Canister.idle c.state.restored

/-- A whole life. -/
def life (events : List LifeEvent) : Canister L := events.foldl live (Canister.idle State.new)

/-- The messages of a life are answered by outcalls. -/
def LifeEvent.Outcalled (managements : List Management) : LifeEvent → Prop
  | .message event => event.Outcalled managements
  | .upgraded => True

omit [Features] [Calendar] in
/-- The cache of a new canister has nothing in it. -/
theorem pricedCache_new (managements : List Management) :
    PricedCache managements (State.new : State L).cache := by
  have hempty : ∀ key, LruCache.peek (State.new : State L).cache.lru_cache key = none :=
    fun key => LruCache.peek_new _ key
  refine ⟨⟨cacheInvariant_new _, ?_⟩, ?_⟩ <;>
  · intro key rate hpeek
    rw [hempty] at hpeek
    cases hpeek

/-- One event keeps the terms. -/
theorem kept_live {hfinal : UpperCaseIsFinal} {managements : List Management} {c : Canister L}
    (hkept : (priced hfinal managements).Kept c) {event : LifeEvent}
    (hevent : event.Outcalled managements) : (priced hfinal managements).Kept (live c event) := by
  cases event with
  | message event =>
      apply hkept.step
      cases event with
      | resume i now_secs answers => exact hevent
      | timer forex_store listing_store =>
          obtain ⟨updates, htimely, hsub, rfl⟩ := hevent
          exact ((allPublished_run updates htimely).mono hsub).stored
      | _ => trivial
  | upgraded =>
      refine ⟨pricedCache_new managements, hkept.forex_store, ?_⟩
      rintro task ⟨⟩

/-- Every state the canister can reach keeps the terms. -/
theorem kept_life (hfinal : UpperCaseIsFinal) {managements : List Management}
    (events : List LifeEvent) (hevents : ∀ event ∈ events, event.Outcalled managements) :
    (priced hfinal managements : Terms L).Kept (life events) := by
  induction events using List.reverseRecOn with
  | nil =>
      refine ⟨pricedCache_new managements, (allPublished_new managements).stored, ?_⟩
      rintro task ⟨⟩
  | append_singleton events event ih =>
      rw [life, List.foldl_append]
      apply kept_live
      · exact ih fun e he => hevents e (List.mem_append_left _ he)
      · exact hevents event (List.mem_append_right _ List.mem_cons_self)

/-- **Every answer was published.** However requests interleave, whatever the exchanges, the forex
sources, the network and the clock do, and across all upgrades: a number cached for an asset is
one that an exchange traded that asset at against USDT, in a raw response to its own request for
that minute; a number behind a stored forex rate was quoted by a source for its day, and the XDR
rate is computed of such numbers; and an answer is composed of rates of which the same is true.

The forex store is the one that runs of the forex update leave, and what was published is
inherited from there. The part of this theorem is the way of a price, through the answer to a
call, the filter, the cache and the composition, which the terms `priced` follow. -/
theorem answers_were_published (hfinal : UpperCaseIsFinal) (managements : List Management)
    (events : List LifeEvent) (hevents : ∀ event ∈ events, event.Outcalled managements) :
    let c : Canister L := life events
    (∀ key rate, LruCache.peek c.state.cache.lru_cache key = some rate →
        ∀ value ∈ rate.rates, Priced managements key.1 key.2 value)
      ∧ (∀ day rates, c.state.forex_store.rates day = some rates →
          ∀ symbol rate, rates symbol = some rate → RateQuoted managements day symbol rate)
      ∧ ∀ env request (w : World (State L) Call Answer) n s' answer,
          (∀ n call s, Outcalled managements call (w.respond n call s).1) →
          (get_exchange_rate_internal env request c.state).run w n = some (s', .ok answer) →
            ∃ rate, (priced hfinal managements).Composed env (sanitize_request request) c.state rate
              ∧ answer = rate.into := by
  intro c
  -- the terms say where the rates come from, and they are kept for life
  have hkept : (priced hfinal managements).Kept c := kept_life hfinal events hevents
  refine ⟨hkept.cache.priced, ?_, ?_⟩
  · intro day rates hrates symbol rate hrate
    exact hkept.forex_store day rates hrates symbol rate hrate
  · intro env request w n s' answer hanswers hrun
    -- an answer is composed according to the terms of the state it starts in
    have hserved := (priced hfinal managements).served_get_exchange_rate_internal env request
      c.state hkept.cache
    exact Terms.result_of_served hserved hanswers hrun

end Runs

/-! ### One candle, cached

A life in which a price is fetched and cached, with a management canister that receives one and
the same candle to every request. -/

/-- ICP against USDT, asked of exchanges of which one answers, with a candle that opens at two. -/
def candleFetched : List LifeEvent :=
  letI := asciiUnicode
  letI := fractions
  letI := oneDate
  letI := candleEncoding
  letI := candleSerde
  letI : ForexSerde := ⟨fun _ _ => .error "expected value"⟩
  letI : Subnet := ⟨false⟩
  .upgraded
    :: .message (.call (Environment.ordinary 1_699_833_600)
      ⟨⟨"icp", .Cryptocurrency⟩, ⟨"USDT", .Cryptocurrency⟩, some 1_699_833_600⟩)
    :: List.replicate 6 (.message (.outcall_returned 0))
    ++ [.message (.resume 0 1_699_833_600 (implement ListingStore.default 1_699_833_600
      (call_exchange_raw (oneBody (candleBody 0)))))]

/-- The candle is where the cached number is from. -/
theorem cached_icp_was_traded :
    letI := defaultBuild
    letI := asciiUnicode
    letI := fractions
    letI := oneDate
    letI := candleEncoding
    letI := candleSerde
    letI : ForexSerde := ⟨fun _ _ => .error "expected value"⟩
    letI : Subnet := ⟨false⟩
    Priced [oneBody (candleBody 0)] "ICP" 1_699_833_600 2_000_000_000 := by
  let _ := defaultBuild
  let _ := weekdays
  let _ := asciiUnicode
  let _ := fractions
  let _ := oneDate
  let _ := candleEncoding
  let _ := candleSerde
  let _ : ForexSerde := ⟨fun _ _ => .error "expected value"⟩
  let _ : Subnet := ⟨false⟩
  have hevents : ∀ event ∈ candleFetched, event.Outcalled [oneBody (candleBody 0)] := by
    intro event hmem
    simp only [candleFetched, List.cons_append, List.mem_cons, List.mem_append, List.mem_replicate,
      List.not_mem_nil, or_false] at hmem
    rcases hmem with rfl | rfl | ⟨-, rfl⟩ | rfl
    · trivial
    · trivial
    · trivial
    · intro call
      exact ⟨_, List.mem_singleton_self _, _, _, rfl⟩
  -- the number is in the cache at the end of the run
  have hcached : (LruCache.peek (life candleFetched : Canister RecentRates).state.cache.lru_cache
      ("ICP", 1_699_833_600)).map QueriedExchangeRate.rates = some [2_000_000_000] := by
    decide +kernel
  obtain ⟨rate, hpeek, hrates⟩ := Option.map_eq_some_iff.mp hcached
  apply (answers_were_published (L := RecentRates) upperCaseIsFinal_ascii _ candleFetched
    hevents).1 ("ICP", 1_699_833_600) rate hpeek
  rw [hrates]
  exact List.mem_singleton_self _

end Xrc
