/-
`forex.rs`: the last step of every forex source, which turns rates against its own currency into
rates against USD. The division is by whatever the response quotes for USD, and its result is
cast to 64 bits. `normalizes_exactly_iff` says for which responses neither matters.
-/
import Xrc.Collector

set_option autoImplicit false

namespace Xrc

open Machine

/-- The errors of extracting rates from a response. -/
inductive ExtractError where
  | JsonDeserialize (response error : String)
  | XmlDeserialize (error : String)
  | MalformedFilterExpression (filter : String) (errors : List String)
  | Extract (response : String)
  | InvalidNumericRate (filter value : String)
  | RateNotFound (filter : String)
  deriving DecidableEq, Repr

namespace ForexRateMap

/-- `BTreeMap::get`. -/
def get (self : ForexRateMap) (symbol : String) : Option ℕ := self.entries.lookup symbol

/-- The map with every value replaced. -/
def map_values (self : ForexRateMap) (f : ℕ → ℕ) : ForexRateMap where
  entries := self.entries.map fun entry => (entry.1, f entry.2)
  ascending := by
    rw [List.map_map]
    exact self.ascending

theorem symbols_map_values (self : ForexRateMap) (f : ℕ → ℕ) :
    (self.map_values f).symbols = self.symbols := by
  rw [symbols, map_values, List.map_map]
  rfl

theorem get_map_values (self : ForexRateMap) (f : ℕ → ℕ) (symbol : String) :
    (self.map_values f).get symbol = (self.get symbol).map f := by
  unfold get map_values
  dsimp only
  induction self.entries with
  | nil => rfl
  | cons entry entries ih =>
      rw [List.map_cons, List.lookup_cons, List.lookup_cons, ih]
      split <;> rfl

end ForexRateMap

/-- The value of a rate once USD is the quote asset. -/
def normalized_value (usd_value value : ℕ) : ℕ :=
  truncate 64 (wrapping_mul 128 RATE_UNIT value / usd_value)

/-- `normalize_to_usd`; it is `none` when the division by the USD value panics. -/
def normalize_to_usd (values : ForexRateMap) : Option (Except ExtractError ForexRateMap) :=
  match values.get USD with
  | some usd_value =>
    if usd_value = 0 then none
    else some (.ok (values.map_values (normalized_value usd_value)))
  | none => some (.error (.RateNotFound "No USD rate"))

/-! ## Total and exact

Two things can go wrong, and both depend on the USD value only: it may be zero, and it may be so
small that the quotient exceeds a word. Every parser of `ForexSources.lean` hands over a map of
words, so the condition is on what the response quotes. -/

/-- `normalize_to_usd` is total and exact on a map: it returns; it returns an error without a
USD value other than zero; and otherwise an error, or the same symbols with the exact rates. -/
structure NormalizesExactly (values : ForexRateMap) : Prop where
  returns : normalize_to_usd values ≠ none
  rejects : ∀ result, normalize_to_usd values = some result →
    values.get USD = none ∨ values.get USD = some 0 → ∃ error, result = .error error
  exact_rates : ∀ usd_value, values.get USD = some usd_value → 0 < usd_value →
    ∀ normalized, normalize_to_usd values = some (.ok normalized) →
      normalized.symbols = values.symbols
        ∧ normalized.get USD = some RATE_UNIT
        ∧ ∀ symbol value, values.get symbol = some value →
            normalized.get symbol = some (RATE_UNIT * value / usd_value)

/-- The cast loses nothing exactly when the rate against USD is a word. -/
theorem normalized_value_eq_iff {usd_value value : ℕ} (husd : 0 < usd_value)
    (hvalue : value < 2 ^ 64) :
    normalized_value usd_value value = RATE_UNIT * value / usd_value
      ↔ RATE_UNIT * value < 2 ^ 64 * usd_value := by
  have hword : RATE_UNIT * value < 2 ^ 128 := by
    simp only [RATE_UNIT]
    omega
  rw [normalized_value, wrapping_mul_eq hword, truncate, ← Nat.div_lt_iff_lt_mul husd]
  constructor
  · intro heq
    rw [← heq]
    exact Nat.mod_lt _ (by decide)
  · exact Nat.mod_eq_of_lt

/-- **When the normalization is total and exact**: for every map of words, exactly when there is
no USD value, or a positive one against which every other rate is a word.

The three cases of the code are those of the USD value: there is none, it is zero, or it divides.
In the last one the cast is the only inexact step, and it is exact exactly when the quotient is a
word. -/
theorem normalizes_exactly_iff (values : ForexRateMap)
    (hwords : ∀ symbol value, values.get symbol = some value → value < 2 ^ 64) :
    NormalizesExactly values
      ↔ values.get USD = none
        ∨ ∃ usd_value, values.get USD = some usd_value ∧ 0 < usd_value
          ∧ ∀ symbol value, values.get symbol = some value →
              RATE_UNIT * value < 2 ^ 64 * usd_value := by
  cases husd : values.get USD with
  | none =>
      have hresult : normalize_to_usd values = some (.error (.RateNotFound "No USD rate")) := by
        rw [normalize_to_usd, husd]
      refine iff_of_true ⟨?_, ?_, ?_⟩ (Or.inl rfl)
      · rw [hresult]
        exact Option.some_ne_none _
      · intro result heq _
        rw [hresult] at heq
        exact ⟨_, (Option.some.inj heq).symm⟩
      · intro usd_value hsome
        rw [husd] at hsome
        cases hsome
  | some usd_value =>
      simp only [reduceCtorEq, false_or, Option.some.injEq, exists_eq_left']
      by_cases hzero : usd_value = 0
      · -- the division panics
        have hpanic : normalize_to_usd values = none := by
          rw [normalize_to_usd, husd]
          exact if_pos hzero
        refine iff_of_false (fun h => h.returns hpanic) fun h => ?_
        exact absurd hzero h.1.ne'
      · have hpos := Nat.pos_of_ne_zero hzero
        have hresult : normalize_to_usd values
            = some (.ok (values.map_values (normalized_value usd_value))) := by
          rw [normalize_to_usd, husd]
          exact if_neg hzero
        constructor
        · intro h
          refine ⟨hpos, fun symbol value hvalue => ?_⟩
          obtain ⟨-, -, hexact⟩ := h.exact_rates usd_value husd hpos _ hresult
          have hrate := hexact symbol value hvalue
          rw [ForexRateMap.get_map_values, hvalue, Option.map_some, Option.some.injEq] at hrate
          exact (normalized_value_eq_iff hpos (hwords symbol value hvalue)).mp hrate
        · rintro ⟨-, hfits⟩
          have hrates : ∀ symbol value, values.get symbol = some value →
              (values.map_values (normalized_value usd_value)).get symbol
                = some (RATE_UNIT * value / usd_value) := by
            intro symbol value hvalue
            rw [ForexRateMap.get_map_values, hvalue, Option.map_some,
              (normalized_value_eq_iff hpos (hwords symbol value hvalue)).mpr
                (hfits symbol value hvalue)]
          refine ⟨?_, ?_, ?_⟩
          · rw [hresult]
            exact Option.some_ne_none _
          · intro result _ habsent
            rw [husd] at habsent
            rcases habsent with hnone | hsome
            · cases hnone
            · exact absurd (Option.some.inj hsome) hzero
          · intro usd_value' husd' _ normalized hnormalized
            obtain rfl := Option.some.inj (husd.symm.trans husd')
            rw [hresult, Option.some.injEq, Except.ok.injEq] at hnormalized
            rw [← hnormalized]
            refine ⟨values.symbols_map_values _, ?_, hrates⟩
            rw [hrates USD usd_value husd, Nat.mul_div_cancel _ hpos]

/-- One euro, and the dollar at 0.90 euros. -/
def euroValues : ForexRateMap :=
  ⟨[("EUR", 1_000_000_000), ("USD", 900_000_000)], by decide⟩

theorem get_pair {a b : String} {x y : ℕ} {h : ([(a, x), (b, y)].map Prod.fst).Pairwise (· < ·)}
    {symbol : String} {value : ℕ}
    (hvalue : (⟨[(a, x), (b, y)], h⟩ : ForexRateMap).get symbol = some value) :
    value = x ∨ value = y := by
  unfold ForexRateMap.get at hvalue
  rw [List.lookup_cons, List.lookup_cons, List.lookup_nil] at hvalue
  split at hvalue
  · exact Or.inl (Option.some.inj hvalue).symm
  · split at hvalue
    · exact Or.inr (Option.some.inj hvalue).symm
    · cases hvalue

/-- They are normalized exactly. -/
theorem normalizes_euroValues : NormalizesExactly euroValues := by
  refine (normalizes_exactly_iff euroValues ?_).mpr (Or.inr ⟨900_000_000, rfl, by decide, ?_⟩)
  · intro symbol value hvalue
    rcases get_pair hvalue with rfl | rfl <;> decide
  · intro symbol value hvalue
    rcases get_pair hvalue with rfl | rfl <;> decide

/-- A response that quotes the dollar at zero, as `0` or below a billionth. -/
def zeroUsd : ForexRateMap := ⟨[("EUR", 1_000_000_000), ("USD", 0)], by decide⟩

/-- A response that quotes the dollar at a billionth and the euro at 13 800. -/
def tinyUsd : ForexRateMap := ⟨[("EUR", 13_800_000_000_000), ("USD", 1)], by decide⟩

/-- The first one panics, and the second one returns a rate for the euro that is cast. -/
theorem normalization_fails :
    ¬ NormalizesExactly zeroUsd ∧ ¬ NormalizesExactly tinyUsd := by
  constructor
  · intro h
    exact h.returns rfl
  · intro h
    obtain ⟨-, -, hrates⟩ := h.exact_rates 1 rfl (by decide) _ rfl
    have heur := hrates "EUR" 13_800_000_000_000 rfl
    exact absurd heur (by decide)

end Xrc
