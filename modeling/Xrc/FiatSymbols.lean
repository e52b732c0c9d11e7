/-
In-flight keys carry no asset class. Whether a pair of both classes is accepted should depend on
the fetches of its cryptocurrency only, and `validate_request` asks for the class of an asset
before it looks its key up. `get_normalized_timestamp` does not: the fetch of a cryptocurrency
that is named like the request's fiat currency moves the request one minute back.
`fiat_keys_ignored_iff` says when this cannot happen.
-/
import Xrc.Mirror

set_option autoImplicit false

namespace Xrc

/-! ## The timestamp

The first of the two places where keys are looked up. `get_normalized_timestamp` asks for either
symbol without its class, and so the key of the fiat symbol can move the request one minute back
when nothing else has settled its minute. -/

section Timestamp

variable {L : Type} {env : Environment} {crypto fiat : String} {timestamp : Option ℕ} {s : State L}

/-- The state with other fetches in flight. -/
def State.with_inflight (s : State L) (inflight : Finset CacheKey) : State L :=
  { s with inflight := inflight }

/-- The timestamp of a pair of both classes moves back for the key of either symbol. -/
theorem chosen_timestamp_cryptoFiat (env : Environment) (crypto fiat : String)
    (timestamp : Option ℕ) (s : State L) :
    chosen_timestamp env (cryptoFiat crypto fiat timestamp) s
      = if timestamp.isSome then
          .requested_or_current
            (utils.get_normalized_timestamp env (cryptoFiat crypto fiat timestamp))
        else if is_inflight s ⟨crypto, .Cryptocurrency⟩
              (utils.get_normalized_timestamp env (cryptoFiat crypto fiat timestamp))
            || is_inflight s ⟨fiat, .FiatCurrency⟩
              (utils.get_normalized_timestamp env (cryptoFiat crypto fiat timestamp)) then
          .past (utils.get_normalized_timestamp env (cryptoFiat crypto fiat timestamp)
            - ONE_MINUTE_SECONDS)
        else
          .requested_or_current
            (utils.get_normalized_timestamp env (cryptoFiat crypto fiat timestamp)) := rfl

/-- The validation only asks for the key of the cryptocurrency. -/
theorem has_inflight_crypto_cryptoFiat (s : State L) (crypto fiat : String)
    (timestamp : Option ℕ) (t : ℕ) :
    has_inflight_crypto s (cryptoFiat crypto fiat timestamp) t
      = is_inflight s ⟨crypto, .Cryptocurrency⟩ t := Bool.or_false _

theorem is_inflight_congr {inflight : Finset CacheKey} {asset : Asset} {t : ℕ}
    (h : (asset.symbol, t) ∈ inflight ↔ (asset.symbol, t) ∈ s.inflight) :
    is_inflight (s.with_inflight inflight) asset t = is_inflight s asset t :=
  decide_eq_decide.mpr h

/-- The fiat symbol does not matter for the minute: the timestamp is given, the cryptocurrency is
being fetched for the current minute anyway, or the two symbols are one. -/
def MinuteSettled (env : Environment) (crypto fiat : String) (timestamp : Option ℕ)
    (s : State L) : Prop :=
  timestamp.isSome = true
    ∨ (crypto, utils.get_normalized_timestamp env (cryptoFiat crypto fiat timestamp)) ∈ s.inflight
    ∨ crypto = fiat

/-- A settled minute does not depend on the keys of the fiat symbol. With a timestamp given, or
with the cryptocurrency in flight for the current minute, the choice is made before the currency
is looked at. -/
theorem chosen_timestamp_congr (h : MinuteSettled env crypto fiat timestamp s)
    {inflight : Finset CacheKey}
    (hkeys : ∀ t, (crypto, t) ∈ inflight ↔ (crypto, t) ∈ s.inflight) :
    chosen_timestamp env (cryptoFiat crypto fiat timestamp) (s.with_inflight inflight)
      = chosen_timestamp env (cryptoFiat crypto fiat timestamp) s := by
  have hkey : ∀ (class' : AssetClass) (t : ℕ),
      is_inflight (s.with_inflight inflight) ⟨crypto, class'⟩ t
        = is_inflight s ⟨crypto, class'⟩ t :=
    fun _ t => is_inflight_congr (hkeys t)
  rw [chosen_timestamp_cryptoFiat, chosen_timestamp_cryptoFiat]
  rcases h with hgiven | hfetched | hsame
  · rw [if_pos hgiven, if_pos hgiven]
  · have hcrypto : is_inflight s ⟨crypto, .Cryptocurrency⟩
        (utils.get_normalized_timestamp env (cryptoFiat crypto fiat timestamp)) = true :=
      decide_eq_true hfetched
    rw [hkey, hcrypto, Bool.true_or, Bool.true_or]
  · subst hsame
    rw [hkey, hkey]

/-- Without it the key of the fiat symbol decides. A request without a timestamp is moved to the
minute before when one of its symbols is in flight for the current one. -/
theorem type_eq_Past_iff (hgiven : ¬ timestamp.isSome = true)
    (hfetched : (crypto, utils.get_normalized_timestamp env (cryptoFiat crypto fiat timestamp))
      ∉ s.inflight) :
    (chosen_timestamp env (cryptoFiat crypto fiat timestamp) s).type = .Past
      ↔ (fiat, utils.get_normalized_timestamp env (cryptoFiat crypto fiat timestamp))
        ∈ s.inflight := by
  have hcrypto : is_inflight s ⟨crypto, .Cryptocurrency⟩
      (utils.get_normalized_timestamp env (cryptoFiat crypto fiat timestamp)) = false :=
    decide_eq_false hfetched
  -- the cryptocurrency is not in flight, so the currency alone decides
  rw [chosen_timestamp_cryptoFiat, if_neg hgiven, hcrypto, Bool.false_or]
  by_cases hfiat : (fiat, utils.get_normalized_timestamp env (cryptoFiat crypto fiat timestamp))
      ∈ s.inflight
  · have hin : is_inflight s ⟨fiat, .FiatCurrency⟩
        (utils.get_normalized_timestamp env (cryptoFiat crypto fiat timestamp)) = true :=
      decide_eq_true hfiat
    rw [if_pos hin]
    exact iff_of_true rfl hfiat
  · have hout : ¬ is_inflight s ⟨fiat, .FiatCurrency⟩
        (utils.get_normalized_timestamp env (cryptoFiat crypto fiat timestamp)) = true := by
      simpa [is_inflight] using hfiat
    rw [if_neg hout]
    exact iff_of_false nofun hfiat

/-- So that key, removed or added, changes the timestamp. The set is made up from the given one by
adding the key, or by taking it out. -/
theorem exists_other_timestamp (h : ¬ MinuteSettled env crypto fiat timestamp s) :
    ∃ inflight : Finset CacheKey, (∀ t, (crypto, t) ∈ inflight ↔ (crypto, t) ∈ s.inflight)
      ∧ chosen_timestamp env (cryptoFiat crypto fiat timestamp) (s.with_inflight inflight)
        ≠ chosen_timestamp env (cryptoFiat crypto fiat timestamp) s := by
  unfold MinuteSettled at h
  rw [not_or, not_or] at h
  obtain ⟨hgiven, hfetched, hne⟩ := h
  -- whether the minute moves back is now up to the key of the fiat symbol
  have hpast := type_eq_Past_iff hgiven hfetched
  have hpast' : ∀ {inflight : Finset CacheKey},
      (∀ t, (crypto, t) ∈ inflight ↔ (crypto, t) ∈ s.inflight) →
        ((chosen_timestamp env (cryptoFiat crypto fiat timestamp) (s.with_inflight inflight)).type
            = .Past
          ↔ (fiat, utils.get_normalized_timestamp env (cryptoFiat crypto fiat timestamp))
            ∈ inflight) := fun hkeys =>
    type_eq_Past_iff (s := s.with_inflight _) hgiven (mt (hkeys _).mp hfetched)
  generalize utils.get_normalized_timestamp env (cryptoFiat crypto fiat timestamp) = now at *
  have hother : ∀ t, (crypto, t) ≠ (fiat, now) := fun t heq => hne (Prod.mk.inj heq).1
  -- the key is removed if it is there and added if it is not
  by_cases hfiat : (fiat, now) ∈ s.inflight
  · have hkeys : ∀ t, (crypto, t) ∈ s.inflight.erase (fiat, now) ↔ (crypto, t) ∈ s.inflight := by
      intro t
      rw [Finset.mem_erase, and_iff_right (hother t)]
    refine ⟨_, hkeys, fun heq => ?_⟩
    have hmem := (hpast' hkeys).mp (heq ▸ hpast.mpr hfiat)
    exact Finset.notMem_erase _ _ hmem
  · have hkeys : ∀ t, (crypto, t) ∈ insert (fiat, now) s.inflight ↔ (crypto, t) ∈ s.inflight := by
      intro t
      rw [Finset.mem_insert, or_iff_right (hother t)]
    refine ⟨_, hkeys, fun heq => hfiat (hpast.mp ?_)⟩
    rw [← heq]
    exact (hpast' hkeys).mpr (Finset.mem_insert_self _ _)

end Timestamp

/-! ## The decision

The second place is the validation, which asks for the class first and so leaves the fiat symbol
alone. Given the timestamp, the rest of the decision is a function of the keys of the
cryptocurrency, and the iff is that of the timestamp. -/

section Decision

variable [Features] [Unicode] {L : Type} [LruCache L CacheKey QueriedExchangeRate]
  {env : Environment} {crypto fiat : String} {timestamp : Option ℕ} {s : State L}

/-- What a request decides on arrival: the timestamp it is answered for, and whether it is
accepted. -/
def decision (env : Environment) (request : GetExchangeRateRequest) (s : State L) :
    NormalizedTimestamp × Except ValidateRequestError Unit :=
  (chosen_timestamp env request s, validation env request s)

/-- The decision of a request for `crypto` and `fiat` depends on the fetches in flight only
through the keys of `crypto`; in particular keys of another fiat symbol can be added and
removed. -/
structure IgnoresFiatKeys (env : Environment) (request : GetExchangeRateRequest) (s : State L)
    (crypto fiat : String) : Prop where
  through_crypto : ∀ inflight : Finset CacheKey,
    (∀ t, (crypto, t) ∈ inflight ↔ (crypto, t) ∈ s.inflight) →
      decision env request (s.with_inflight inflight) = decision env request s
  added : crypto ≠ fiat → ∀ keys : Finset CacheKey, (∀ key ∈ keys, key.1 = fiat) →
    decision env request (s.with_inflight (s.inflight ∪ keys)) = decision env request s
  removed : crypto ≠ fiat → ∀ keys : Finset CacheKey, (∀ key ∈ keys, key.1 = fiat) →
    decision env request (s.with_inflight (s.inflight \ keys)) = decision env request s

/-- The keys of a fiat symbol are not those of the cryptocurrency. Adding or removing them is
therefore a change that the keys of the cryptocurrency are not affected by. -/
theorem ignoresFiatKeys_of_through_crypto {request : GetExchangeRateRequest}
    (h : ∀ inflight : Finset CacheKey, (∀ t, (crypto, t) ∈ inflight ↔ (crypto, t) ∈ s.inflight) →
      decision env request (s.with_inflight inflight) = decision env request s) :
    IgnoresFiatKeys env request s crypto fiat where
  through_crypto := h
  added := by
    intro hne keys hkeys
    apply h
    intro t
    have hother : (crypto, t) ∉ keys := fun hmem => hne (hkeys _ hmem)
    rw [Finset.mem_union, or_iff_left hother]
  removed := by
    intro hne keys hkeys
    apply h
    intro t
    have hother : (crypto, t) ∉ keys := fun hmem => hne (hkeys _ hmem)
    rw [Finset.mem_sdiff, and_iff_left hother]

/-- **The rest of the decision** depends on the timestamp and the keys of the cryptocurrency. The
currency is looked up in the store and never in the set, so a pair in flight that names it is seen
only through the choice of the timestamp. -/
theorem decision_congr {inflight : Finset CacheKey}
    (hkeys : ∀ t, (crypto, t) ∈ inflight ↔ (crypto, t) ∈ s.inflight)
    (hchosen : chosen_timestamp env (cryptoFiat crypto fiat timestamp) (s.with_inflight inflight)
      = chosen_timestamp env (cryptoFiat crypto fiat timestamp) s) :
    decision env (cryptoFiat crypto fiat timestamp) (s.with_inflight inflight)
      = decision env (cryptoFiat crypto fiat timestamp) s := by
  have hneeded : rates_needed env (cryptoFiat crypto fiat timestamp) (s.with_inflight inflight)
      = rates_needed env (cryptoFiat crypto fiat timestamp) s := by
    unfold rates_needed
    rw [hchosen]
    rfl
  have hrouted : routed_request (cryptoFiat crypto fiat timestamp)
      = cryptoFiat crypto fiat timestamp := rfl
  unfold decision validation
  rw [hchosen, hneeded, hrouted]
  unfold validate_request
  rw [has_inflight_crypto_cryptoFiat, has_inflight_crypto_cryptoFiat,
    is_inflight_congr (hkeys _)]
  rfl

/-- Both orders of the pair decide alike. -/
theorem decision_fiatCrypto (env : Environment) (crypto fiat : String) (timestamp : Option ℕ)
    (s : State L) : decision env (fiatCrypto fiat crypto timestamp) s
      = decision env (cryptoFiat crypto fiat timestamp) s := rfl

/-- **When fiat symbols do not interact with fetches.** For every state, cryptocurrency, fiat
currency and timestamp, and for both orders of the pair, the decision depends on the fetches in
flight only through the keys of the cryptocurrency exactly when the timestamp is given, the
cryptocurrency is itself being fetched for the current minute, or the two symbols are one.

If the minute is settled, neither the timestamp nor the validation reads a key of the fiat symbol.
If not, the key of the fiat symbol for the current minute moves the timestamp one minute back, so
that adding or removing it changes the decision. -/
theorem fiat_keys_ignored_iff (env : Environment) (crypto fiat : String) (timestamp : Option ℕ)
    (s : State L) :
    (IgnoresFiatKeys env (cryptoFiat crypto fiat timestamp) s crypto fiat
        ↔ MinuteSettled env crypto fiat timestamp s)
      ∧ (IgnoresFiatKeys env (fiatCrypto fiat crypto timestamp) s crypto fiat
        ↔ MinuteSettled env crypto fiat timestamp s) := by
  -- with a settled minute the timestamp is that of the request, and then the decision is the same
  have hsettled : MinuteSettled env crypto fiat timestamp s → ∀ inflight : Finset CacheKey,
      (∀ t, (crypto, t) ∈ inflight ↔ (crypto, t) ∈ s.inflight) →
        decision env (cryptoFiat crypto fiat timestamp) (s.with_inflight inflight)
          = decision env (cryptoFiat crypto fiat timestamp) s := fun h _ hkeys =>
    decision_congr hkeys (chosen_timestamp_congr h hkeys)
  -- without one, a set can be made up in which another timestamp is chosen
  have hthrough : (∀ inflight : Finset CacheKey,
      (∀ t, (crypto, t) ∈ inflight ↔ (crypto, t) ∈ s.inflight) →
        decision env (cryptoFiat crypto fiat timestamp) (s.with_inflight inflight)
          = decision env (cryptoFiat crypto fiat timestamp) s) →
      MinuteSettled env crypto fiat timestamp s := by
    intro h
    by_contra hunsettled
    obtain ⟨inflight, hkeys, hdiffer⟩ := exists_other_timestamp hunsettled
    exact hdiffer (congrArg Prod.fst (h inflight hkeys))
  constructor
  · exact ⟨fun h => hthrough h.through_crypto,
      fun h => ignoresFiatKeys_of_through_crypto (hsettled h)⟩
  · -- a fiat/crypto request is decided like the routed one
    constructor
    · intro h
      apply hthrough
      intro inflight hkeys
      rw [← decision_fiatCrypto, ← decision_fiatCrypto]
      exact h.through_crypto inflight hkeys
    · intro h
      apply ignoresFiatKeys_of_through_crypto
      intro inflight hkeys
      rw [decision_fiatCrypto, decision_fiatCrypto]
      exact hsettled h inflight hkeys

end Decision

/-! ## A cryptocurrency named like a currency

Nothing in the request's type keeps a caller from naming a cryptocurrency EUR; the request is
then fetched, and its key registered, like that of any other. -/

/-- The state while a caller waits for the cryptocurrencies EUR and ICP. -/
def eurFetched [Features] [Unicode] : State RecentRates :=
  (arrive (Canister.idle (State.new : State RecentRates)) (Environment.ordinary 1_699_833_630)
    ⟨⟨"EUR", .Cryptocurrency⟩, ⟨"ICP", .Cryptocurrency⟩, none⟩).state

/-- **BTC/EUR**: meanwhile a request for the price of BTC in euros is moved one minute back and
turned away. -/
theorem crypto_named_eur_in_flight :
    letI := defaultBuild
    letI := asciiUnicode
    ¬ ∀ (env : Environment) (crypto fiat : String) (timestamp : Option ℕ)
        (s : State RecentRates),
      IgnoresFiatKeys env (cryptoFiat crypto fiat timestamp) s crypto fiat := by
  let _ := defaultBuild
  let _ := asciiUnicode
  intro h
  have hremoved := (h (Environment.ordinary 1_699_833_630) "BTC" "EUR" none eurFetched).removed
    (by decide) {("EUR", 1_699_833_600)} (by simp)
  have hpending : decision (Environment.ordinary 1_699_833_630) (cryptoFiat "BTC" "EUR" none)
      eurFetched = (.past 1_699_833_540, .error .PastTimestampNotCached) := by
    decide +kernel
  have haccepted : decision (Environment.ordinary 1_699_833_630) (cryptoFiat "BTC" "EUR" none)
      (eurFetched.with_inflight (eurFetched.inflight \ {("EUR", 1_699_833_600)}))
        = (.requested_or_current 1_699_833_600, .ok ()) := by
    decide +kernel
  rw [hpending, haccepted] at hremoved
  exact absurd hremoved (by decide)

end Xrc
