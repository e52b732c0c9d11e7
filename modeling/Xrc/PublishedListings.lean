/-
From the listing responses of the exchanges to the choice of the exchanges that are asked for a
price, over whole runs. An exchange is left out of a query if its stored listing lacks the asset;
what is stored has gone through an outcall, a transform, a parser and the structural guard, days
before the query and, it may be, before an upgrade.

The argument has two parts. The first is about the schedule alone: a `Round` of a run is a
heartbeat, the moment at which it gets to the listings and asks the exchanges that are due, and
their answers; whatever interleaves, the store is the one after a history of refreshes, each of
them the answer of one exchange in one such round, with the time of its heartbeat
(`FromRounds`). What `Listings` says of all histories then says which refresh decides a query.
The second part reads its answer as a raw response of that very exchange. Together, an exchange
is dropped only on its own word, and on one it was asked for no more than three days ago
(`dropped_on_their_word`).
-/
import Xrc.HttpOutcall
import Xrc.ListingSchedule
import Xrc.PublishedRates

set_option autoImplicit false

namespace Xrc.periodic

open Machine

/-! ## Rounds

What the store holds is traced back along a run. The events of the run say when a round begins
and when it is answered; which heartbeat it belongs to is read off the state at these moments,
since heartbeats overtake each other on their way through the forex update. -/

section Rounds

variable [Unicode] [Features]

/-- In a run a heartbeat that had started at `now` got to the listings, and asked the exchanges
that were due. -/
def Asked (s : ListingState) (events : List ListingEvent) (now : UInt64) (due : List String) :
    Prop :=
  ∃ before i, before ++ [.forex_updated i] <+: events ∧ .heartbeat now ∈ before
    ∧ (s.run before).waiting[i]? = some (time_secs now)
    ∧ (s.run (before ++ [.forex_updated i])).updating
      = (s.run before).updating ++ [(time_secs now, due)]

/-- A round of a run: the exchanges that a heartbeat asked, and what they answered. The answers
are those of the event that ends the round, and its heartbeat is the one whose time the refresh
has kept in between. -/
def Round (s : ListingState) (events : List ListingEvent) (now : UInt64) (due : List String)
    (answer : String → Except CallExchangeError (List ListedMarket)) : Prop :=
  ∃ before j, before ++ [.fetched j answer] <+: events ∧ Asked s before now due
    ∧ (s.run before).updating[j]? = some (time_secs now, due)

/-- A refresh is what an exchange answered in a round, with the time of its heartbeat. This is the
only way in which a refresh comes about, so the store can be traced back through it. -/
def OfRound (s : ListingState) (events : List ListingEvent) (refresh : ListingRefresh) : Prop :=
  ∃ now due answer, Round s events now due answer ∧ refresh.exchange ∈ due
    ∧ refresh = ⟨refresh.exchange, time_secs now, answer refresh.exchange⟩

variable {s : ListingState} {events : List ListingEvent}

theorem Asked.mono {later : List ListingEvent} (hinitial : events <+: later) {now : UInt64}
    {due : List String} (h : Asked s events now due) : Asked s later now due := by
  obtain ⟨before, i, hbefore, hasked⟩ := h
  exact ⟨before, i, hbefore.trans hinitial, hasked⟩

theorem Round.mono {later : List ListingEvent} (hinitial : events <+: later) {now : UInt64}
    {due : List String} {answer : String → Except CallExchangeError (List ListedMarket)}
    (h : Round s events now due answer) : Round s later now due answer := by
  obtain ⟨before, j, hbefore, hround⟩ := h
  exact ⟨before, j, hbefore.trans hinitial, hround⟩

/-- **Where a state that a run has reached comes from**: every heartbeat that waits is one of the
run, every refresh that awaits its answers was asked in it, and the listings are those of the
start and of the answers of the rounds, in the order in which they came in. -/
structure FromRounds (s : ListingState) (events : List ListingEvent) (reached : ListingState) :
    Prop where
  waiting : ∀ timestamp ∈ reached.waiting,
    ∃ now, .heartbeat now ∈ events ∧ timestamp = time_secs now
  updating : ∀ timestamp due, (timestamp, due) ∈ reached.updating →
    ∃ now, timestamp = time_secs now ∧ Asked s events now due
  stored : ∀ earlier, s.listing_store = store_after earlier →
    ∃ history, reached.listing_store = store_after (history ++ earlier)
      ∧ ∀ refresh ∈ history, OfRound s events refresh

omit [Unicode] in
/-- A refresh that starts adds itself to those under way, if it asks anyone. -/
theorem start_refresh_updating (s : ListingState) (timestamp : ℕ) :
    (start_refresh s timestamp).updating = s.updating
      ∨ ∃ due, (start_refresh s timestamp).updating = s.updating ++ [(timestamp, due)] := by
  unfold start_refresh
  split
  · exact Or.inl rfl
  · dsimp only
    split
    · exact Or.inl rfl
    · exact Or.inr ⟨_, rfl⟩

namespace FromRounds

theorem mono {reached : ListingState} (h : FromRounds s events reached)
    {later : List ListingEvent} (hinitial : events <+: later) : FromRounds s later reached := by
  refine ⟨?_, ?_, ?_⟩
  · intro timestamp hmem
    obtain ⟨now, hnow, htime⟩ := h.waiting timestamp hmem
    exact ⟨now, hinitial.subset hnow, htime⟩
  · intro timestamp due hmem
    obtain ⟨now, htime, hasked⟩ := h.updating timestamp due hmem
    exact ⟨now, htime, hasked.mono hinitial⟩
  · intro earlier hearlier
    obtain ⟨history, hhistory, hrounds⟩ := h.stored earlier hearlier
    refine ⟨history, hhistory, fun refresh hmem => ?_⟩
    obtain ⟨now, due, answer, hround, hrefresh⟩ := hrounds refresh hmem
    exact ⟨now, due, answer, hround.mono hinitial, hrefresh⟩

/-- **One event** keeps to the rounds of the run. A heartbeat starts a round of its own time, an
answer to the forex update lets one of them go on, and what that one stores later bears its time.
-/
theorem step (h : FromRounds s events (s.run events)) (event : ListingEvent) :
    FromRounds s (events ++ [event]) ((s.run events).step event) := by
  have hold := h.mono (List.prefix_append events [event])
  cases event with
  | heartbeat now =>
      refine ⟨?_, hold.updating, hold.stored⟩
      intro timestamp hmem
      rcases List.mem_append.mp hmem with hbefore | hnew
      · exact hold.waiting timestamp hbefore
      · exact ⟨now, List.mem_append_right _ List.mem_cons_self, List.mem_singleton.mp hnew⟩
  | forex_updated i =>
      have hrun : s.run (events ++ [.forex_updated i])
          = (s.run events).step (.forex_updated i) := run_append s events _
      rw [ListingState.step] at hrun ⊢
      cases hi : (s.run events).waiting[i]? with
      | none => exact hold
      | some timestamp =>
          rw [hi] at hrun
          dsimp only at hrun ⊢
          refine ⟨?_, ?_, ?_⟩
          · intro other hmem
            rw [start_refresh_waiting] at hmem
            exact hold.waiting other (List.mem_of_mem_eraseIdx hmem)
          · intro other due hmem
            rcases start_refresh_updating
              { s.run events with waiting := (s.run events).waiting.eraseIdx i } timestamp with
              hsame | ⟨asked, hnew⟩
            · rw [hsame] at hmem
              exact hold.updating other due hmem
            · rw [hnew] at hmem
              rcases List.mem_append.mp hmem with hbefore | hlast
              · exact hold.updating other due hbefore
              · -- the refresh that starts is the one of the heartbeat that has waited
                obtain ⟨rfl, rfl⟩ := Prod.mk.inj (List.mem_singleton.mp hlast)
                obtain ⟨now, hnow, rfl⟩ := h.waiting _ (List.mem_of_getElem? hi)
                refine ⟨now, rfl, events, i, List.prefix_rfl, hnow, hi, ?_⟩
                rw [hrun]
                exact hnew
          · rw [start_refresh_listing_store]
            exact hold.stored
  | fetched j answer =>
      rw [ListingState.step, finish_refresh]
      cases hj : (s.run events).updating[j]? with
      | none => exact hold
      | some refresh =>
          obtain ⟨timestamp, due⟩ := refresh
          dsimp only
          refine ⟨?_, fun other asked hmem => ?_, ?_⟩
          · rw [settle_all_waiting]
            exact hold.waiting
          · exact hold.updating other asked (List.mem_of_mem_eraseIdx hmem)
          · -- the refreshes that come in are the answers of this round
            intro earlier hearlier
            obtain ⟨history, hhistory, hrounds⟩ := hold.stored earlier hearlier
            refine ⟨_, (settle_all_listing_store timestamp answer due hhistory).trans
              (congrArg store_after (List.append_assoc _ _ _).symm), fun refresh hmem => ?_⟩
            rcases List.mem_append.mp hmem with hnew | hbefore
            · obtain ⟨exchange, hdue, rfl⟩ := List.mem_map.mp (List.mem_reverse.mp hnew)
              obtain ⟨now, rfl, hasked⟩ := h.updating timestamp due (List.mem_of_getElem? hj)
              exact ⟨now, due, answer, ⟨events, j, List.prefix_rfl, hasked, hj⟩, hdue, rfl⟩
            · exact hrounds refresh hbefore

/-- **A whole run** does, from a state in which no heartbeat is under way. The induction appends
the next event at the end, as what is due in a state depends on the rounds before it. -/
theorem run (listing_store : ListingStore) (events : List ListingEvent) :
    FromRounds (ListingState.new listing_store) events
      ((ListingState.new listing_store).run events) := by
  induction events using List.reverseRecOn with
  | nil =>
      exact ⟨fun _ hmem => absurd hmem List.not_mem_nil,
        fun _ _ hmem => absurd hmem List.not_mem_nil,
        fun earlier hearlier => ⟨[], hearlier, fun _ hmem => absurd hmem List.not_mem_nil⟩⟩
  | append_singleton events event ih =>
      rw [run_append]
      exact ih.step event

end FromRounds

/-! ### Several lives

An upgrade keeps the store and forgets the schedule, so that a listing may be older than the life
in which it is read. -/

/-- The store after several lives of the canister, with an upgrade between any two of them. -/
def store_after_lives (lives : List (List ListingEvent)) : ListingStore :=
  lives.foldl (fun store events => ((ListingState.new store).run events).listing_store)
    ListingStore.default

/-- A refresh of a round in one of the lives. -/
def OfLife (lives : List (List ListingEvent)) (refresh : ListingRefresh) : Prop :=
  ∃ earlier events later, lives = earlier ++ events :: later
    ∧ OfRound (ListingState.new (store_after_lives earlier)) events refresh

/-- The store is the one after a history of such refreshes. The store survives an upgrade, so its
history goes through all lives, while heartbeats and refreshes do not. -/
theorem store_after_lives_eq (lives : List (List ListingEvent)) :
    ∃ history, store_after_lives lives = store_after history
      ∧ ∀ refresh ∈ history, OfLife lives refresh := by
  induction lives using List.reverseRecOn with
  | nil => exact ⟨[], rfl, fun _ hmem => absurd hmem List.not_mem_nil⟩
  | append_singleton lives events ih =>
      obtain ⟨earlier, hearlier, hlives⟩ := ih
      obtain ⟨history, hhistory, hrounds⟩ :=
        (FromRounds.run (store_after_lives lives) events).stored earlier hearlier
      refine ⟨history ++ earlier, ?_, fun refresh hmem => ?_⟩
      · rw [store_after_lives, List.foldl_append]
        exact hhistory
      · rcases List.mem_append.mp hmem with hnew | hpersisted
        · exact ⟨lives, events, [], rfl, hrounds refresh hnew⟩
        · obtain ⟨before, life, later, rfl, hround⟩ := hlives refresh hpersisted
          exact ⟨before, life, later ++ [events], by simp, hround⟩

end Rounds

/-! ## What an exchange listed

An answer of a round is the result of a listing call, so that it was read off a raw response: the
transform on the subnet has only cut the number of the markets to a word. -/

theorem exchange_name_injective : Function.Injective Exchange.name := by
  intro exchange other h
  cases exchange <;> cases other <;> first | rfl | exact absurd h (by decide)

section Listings

variable [F64] [Chrono] [Unicode] [Encoding] [ExchangeSerde] [ForexSerde] [Subnet]

/-- A raw response of an exchange to the request for its listing held these markets. -/
def MarketsOf (management : Management) (exchange : Exchange) (markets : List ListedMarket) :
    Prop :=
  ∃ context raw listing, exchange.encode_context = .ok context
    ∧ management.Received (listing_request management exchange context) raw
    ∧ ExchangeSerde.listing_from_slice exchange raw.body = .ok listing
    ∧ markets = exchange.markets_fn listing

/-- A market trades a base against USDT. Exchanges write symbols in any case, and the code
compares them without it. -/
def trades (market : ListedMarket) (base : String) : Prop :=
  market.tradable = true ∧ eq_ignore_ascii_case market.quote USDT = true
    ∧ to_uppercase market.base = to_uppercase base

/-- The answers of a round are those of the exchanges' listing calls. An error in an answer says
nothing, and needs no exchange to have said it. -/
def Fetched (managements : List Management)
    (answer : String → Except CallExchangeError (List ListedMarket)) : Prop :=
  ∀ name markets, answer name = .ok markets → ∃ management ∈ managements, ∃ exchange : Exchange,
    exchange.name = name
      ∧ call_exchange_listing management exchange = .ok (extract_listed_pairs markets)

/-- The fetches of an event are answered by the exchanges. -/
def ListingEvent.Fetched (managements : List Management) : ListingEvent → Prop
  | .fetched _ answer => periodic.Fetched managements answer
  | _ => True

/-- In the answers of a round, those of an exchange were read off a raw response with these
markets. -/
def ReadOff (managements : List Management)
    (answer : String → Except CallExchangeError (List ListedMarket)) (exchange : Exchange)
    (markets : List ListedMarket) : Prop :=
  ∃ management ∈ managements, MarketsOf management exchange markets
    ∧ ∃ listed, answer exchange.name = .ok listed
      ∧ call_exchange_listing management exchange = .ok (extract_listed_pairs listed)
      ∧ (extract_listed_pairs listed).bases = (extract_listed_pairs markets).bases
      ∧ listed.length = truncate 32 markets.length

/-- An answer that is taken was read off a response, which holds the same bases and, but for what
a word cuts off, as many markets. -/
theorem Fetched.read_off {managements : List Management}
    {answer : String → Except CallExchangeError (List ListedMarket)} (h : Fetched managements answer)
    {exchange : Exchange} {listed : List ListedMarket} (hanswer : answer exchange.name = .ok listed) :
    ∃ markets, ReadOff managements answer exchange markets
      ∧ (extract_listed_pairs listed).bases = (extract_listed_pairs markets).bases
      ∧ listed.length ≤ markets.length := by
  obtain ⟨management, hmem, sender, hname, hcall⟩ := h _ _ hanswer
  -- exchanges are told apart by their names
  obtain rfl := exchange_name_injective hname
  have hreads := call_exchange_listing_reads management sender
  rw [hcall] at hreads
  obtain ⟨context, raw, parsed, hcontext, hreceived, hextract, hpairs⟩ := hreads
  rw [Exchange.extract_listed_usdt_bases] at hextract
  cases hlisting : ExchangeSerde.listing_from_slice sender raw.body with
  | error err =>
      rw [hlisting] at hextract
      cases hextract
  | ok listing =>
      rw [hlisting] at hextract
      rw [← Except.ok.inj hextract, total_markets_extract_listed_pairs] at hpairs
      have hbases := congrArg ListedPairs.bases hpairs
      have htotal := congrArg ListedPairs.total_markets hpairs
      rw [total_markets_extract_listed_pairs] at htotal
      refine ⟨_, ⟨management, hmem, ⟨context, raw, listing, hcontext, hreceived, hlisting, rfl⟩,
        listed, hanswer, hcall, hbases, htotal⟩, hbases, ?_⟩
      rw [htotal]
      -- the total that came with the listing is a word, the rest of it is cut off
      exact Nat.mod_le _ _

/-! ## The exchanges that are left out

The three parts put together. A listing that leaves an exchange out is not stale, so the time it
was refreshed with is recent; this time is that of a heartbeat, whose round the listing came
from, and what it lists was read off a response of that round. -/

section Dropped

variable [Features]

/-- **Exchanges are dropped on their own word.** After any lives of the canister, whatever the
exchanges, the network and the clock do, and in whatever order heartbeats get to the listings: if
a query for an asset leaves an exchange out, then in one of the lives there was a round, begun by
a heartbeat not more than three days before the query, in which this exchange was asked for its
listing, and its answer was read off a raw response of fifty markets or more, none of which trades
the asset against USDT.

The refresh that a stored listing comes from is found in the history of the store
(`latest_accepted`), the round it belongs to in the run (`FromRounds`), and the markets in a raw
response of that round (`Fetched.read_off`). The store is inherited from earlier lives, so the
round may be in any of them. -/
theorem dropped_on_their_word (managements : List Management) (lives : List (List ListingEvent))
    (hfetched : ∀ events ∈ lives, ∀ event ∈ events, event.Fetched managements)
    (exchanges : List Exchange) (exchange : Exchange) (hmem : exchange ∈ exchanges) (base : String)
    (now_secs : ℕ)
    (hdropped : exchange ∉ (store_after_lives lives).exchanges_listing_base_against_usdt exchanges
      base now_secs) :
    ∃ earlier events later, lives = earlier ++ events :: later
      ∧ ∃ now due answer, Round (ListingState.new (store_after_lives earlier)) events now due answer
        ∧ exchange.name ∈ due
        ∧ now_secs ≤ time_secs now + MAX_LISTING_STALENESS_SECS
        ∧ ∃ markets, ReadOff managements answer exchange markets
          ∧ MIN_TOTAL_MARKETS ≤ markets.length
          ∧ ∀ market ∈ markets, ¬ trades market base := by
  obtain ⟨history, hhistory, hlives⟩ := store_after_lives_eq lives
  rw [hhistory, ListingStore.exchanges_listing_base_against_usdt, List.mem_filter] at hdropped
  simp only [hmem, true_and, Bool.not_eq_true] at hdropped
  -- the latest refresh of the exchange that was accepted decides
  obtain ⟨refresh, hlatest, hfresh, hlacks⟩ :=
    (should_query_eq_false_iff history exchange.name base now_secs).mp hdropped
  obtain ⟨hexchange, hresponse, hlarge⟩ := latest_accepted_large hlatest
  obtain ⟨earlier, events, later, rfl, now, due, answer, hround, hdue, hrefresh⟩ :=
    hlives refresh (latest_accepted_mem hlatest)
  have hanswer : Fetched managements answer := by
    obtain ⟨before, j, hinitial, -⟩ := hround
    exact hfetched events (by simp) (.fetched j answer) (hinitial.subset (by simp))
  have htime : refresh.now_secs = time_secs now := congrArg ListingRefresh.now_secs hrefresh
  have hlisted : answer exchange.name = .ok refresh.markets := by
    rw [← hexchange, ← hresponse]
    exact (congrArg ListingRefresh.response hrefresh).symm
  obtain ⟨markets, hread, hbases, hlength⟩ := hanswer.read_off hlisted
  refine ⟨earlier, events, later, rfl, now, due, answer, hround, hexchange ▸ hdue, htime ▸ hfresh,
    markets, hread, hlarge.trans hlength, ?_⟩
  rintro market hmarket ⟨htradable, hquote, hbase⟩
  have hin : to_uppercase base ∈ (extract_listed_pairs markets).bases :=
    mem_bases_extract_listed_pairs.mpr ⟨market, hmarket, htradable, hquote, hbase⟩
  rw [← hbases] at hin
  obtain ⟨same, hsame, htrades, hagainst, hup⟩ := mem_bases_extract_listed_pairs.mp hin
  exact hlacks same hsame htrades hagainst hup

end Dropped

end Listings

/-! ### A listing of one coin

A single heartbeat, in which one exchange answers with fifty markets, all of them for the same
coin. That is enough for its listing to be taken. -/

/-- `{"baseCcy":"ICP","quoteCcy":"USDT","state":"live"}`. -/
def icpInstrument : Bytes :=
  [123, 34, 98, 97, 115, 101, 67, 99, 121, 34, 58, 34, 73, 67, 80, 34, 44, 34, 113, 117, 111,
  116, 101, 67, 99, 121, 34, 58, 34, 85, 83, 68, 84, 34, 44, 34, 115, 116, 97, 116, 101, 34, 58,
  34, 108, 105, 118, 101, 34, 125]

/-- `{"data":[..]}`, of fifty such instruments. -/
def icpInstruments : Bytes :=
  [123, 34, 100, 97, 116, 97, 34, 58, 91] ++ List.intercalate [44] (List.replicate 50 icpInstrument)
    ++ [93, 125]

@[reducible] def listingEncoding : Encoding :=
  oneOfEach (2, [68, 73, 68, 76, 0, 1, 120, 2, 0, 0, 0, 0, 0, 0, 0]) (none, [])
    (({"ICP"}, 50),
      [68, 73, 68, 76, 1, 109, 113, 2, 0, 120, 1, 3, 73, 67, 80, 50, 0, 0, 0, 0, 0, 0, 0])
    (0, []) (⟨0, []⟩, []) (ForexRateMap.empty, [])

/-- A deserializer that knows this body only. -/
@[reducible] def listingSerde : @ExchangeSerde fractions :=
  let _ := fractions
  { from_slice := fun _ _ => .error "expected value"
    listing_from_slice := fun exchange body =>
      match exchange with
      | .Okx =>
        if body = icpInstruments then .ok ⟨List.replicate 50 ⟨"ICP", "USDT", "live"⟩⟩
        else .error "expected value"
      | _ => .error "expected value" }

/-- The heartbeat in which OKX sends it. -/
def icpListed : List ListingEvent :=
  [.heartbeat 1_700_000_000_000_000_000, .forex_updated 0,
    .fetched 0 fun name =>
      if name = "Okx" then .ok (List.replicate 50 ⟨"ICP", "USDT", true⟩) else .error .NoRatesFound]

/-- OKX is left out of a query for BTC, on what it sent in that round. -/
theorem btc_not_listed :
    letI := defaultBuild
    letI := asciiUnicode
    letI := fractions
    letI := oneDate
    letI := listingEncoding
    letI := listingSerde
    letI : ForexSerde := ⟨fun _ _ => .error "expected value"⟩
    letI : Subnet := ⟨false⟩
    ∃ now due answer, Round (ListingState.new ListingStore.default) icpListed now due answer
      ∧ "Okx" ∈ due ∧ 1_700_259_200 ≤ time_secs now + MAX_LISTING_STALENESS_SECS
      ∧ ∃ markets, ReadOff [oneBody icpInstruments] answer .Okx markets
        ∧ MIN_TOTAL_MARKETS ≤ markets.length ∧ ∀ market ∈ markets, ¬ trades market "BTC" := by
  let _ := defaultBuild
  let _ := asciiUnicode
  let _ := fractions
  let _ := oneDate
  let _ := listingEncoding
  let _ := listingSerde
  let _ : ForexSerde := ⟨fun _ _ => .error "expected value"⟩
  let _ : Subnet := ⟨false⟩
  have hfetched : ∀ events ∈ [icpListed], ∀ event ∈ events,
      event.Fetched [oneBody icpInstruments] := by
    intro events hevents event hevent
    rw [List.mem_singleton.mp hevents] at hevent
    simp only [icpListed, List.mem_cons, List.not_mem_nil, or_false] at hevent
    rcases hevent with rfl | rfl | rfl
    · trivial
    · trivial
    · intro name markets hmarkets
      dsimp only at hmarkets
      split_ifs at hmarkets with hname
      rw [hname, ← Except.ok.inj hmarkets]
      refine ⟨_, List.mem_singleton_self _, .Okx, rfl, ?_⟩
      decide +kernel
  have hdropped : Exchange.Okx ∉ (store_after_lives
      [icpListed]).exchanges_listing_base_against_usdt [.Okx] "BTC" 1_700_259_200 := by
    decide +kernel
  obtain ⟨earlier, events, later, hlives, hround⟩ := dropped_on_their_word
    [oneBody icpInstruments] [icpListed] hfetched [.Okx] .Okx List.mem_cons_self "BTC"
    1_700_259_200 hdropped
  -- there is but one life, after an empty store
  obtain ⟨rfl, rfl, rfl⟩ : earlier = [] ∧ events = icpListed ∧ later = [] := by
    cases earlier with
    | nil =>
        obtain ⟨rfl, rfl⟩ := List.cons.inj hlives
        exact ⟨rfl, rfl, rfl⟩
    | cons life earlier =>
        exact absurd (List.cons.inj hlives).2 (by simp)
  exact hround

end Xrc.periodic
