/-
Stablecoins without a usable rate. `get_stablecoin_rate` counts the entries of its list and
lets an entry whose rates were all filtered out take part in the choice with a median of
zero, so that leaving it out shifts the middle by half a place. `Harmless` says exactly when
that makes no difference, and `usable_iff` that the choice rests on two usable stablecoins, and
on these alone, exactly when every empty entry is harmless.
-/
import Xrc.StablecoinChoice

set_option autoImplicit false

namespace Xrc

open Machine OrderStatistics QueriedExchangeRate

namespace stablecoin

/-! ## The condition

The choice looks at the medians of the list only through their number and their middle, and an
empty entry adds a least value to them. So the condition is about the others: how many there
are, which quote assets they have, and what is in the middle of their medians. -/

/-- What the handlers make of the result. -/
def outcome (l : List QueriedExchangeRate) (target : Asset) :
    Except ExchangeRateError QueriedExchangeRate :=
  (get_stablecoin_rate l target).mapError StablecoinRateError.into

/-- The medians of the timestamps of both lists fall into the same minute. The estimate bears that
minute, so that it may differ although the rates are the same. -/
def SameMinute (l rest : List QueriedExchangeRate) : Prop :=
  median (l.map QueriedExchangeRate.timestamp) / 60
    = median (rest.map QueriedExchangeRate.timestamp) / 60

/-- The same median is chosen of `l` and of `rest`, which is `l` without an entry of median
zero: the even one of the two lists has the middle values `a` and `b`, the odd one only one of
them, which is `a` when `l` is odd and `b` when `rest` is. -/
def KeepsMedian (l rest : List QueriedExchangeRate) (a b : ℕ) : Prop :=
  a = b
    ∨ (l.length % 2 = 1
        ∧ ((a + b) % 2 = 1 ∨ (medians rest).idxOf a ≤ (medians rest).idxOf b))
    ∨ (l.length % 2 = 0 ∧ (a + b) % 2 = 0 ∧ (medians l).idxOf b < (medians l).idxOf a)

/-- The first stablecoins with two medians give the same estimate. They are compared without
timestamps, which the estimates take from all stablecoins together. -/
def Interchangeable (l : List QueriedExchangeRate) (target : Asset) (a b : ℕ) : Prop :=
  ∃ coin coin', first_with l a = some coin ∧ first_with l b = some coin'
    ∧ estimate coin target [] = estimate coin' target []

/-- An entry without rates in `l` makes no difference to `rest`, the others: it is the only
one; or there are two others at least, and these differ in their quote assets, or all are
against the same one and what is chosen with and without it amounts to the same. -/
def Harmless (l rest : List QueriedExchangeRate) (target : Asset) : Prop :=
  let a := lower_median (medians l)
  let b := upper_median (medians rest)
  l.length = 1
    ∨ 3 ≤ l.length
      ∧ (¬ SameQuote rest
        ∨ SameQuote l
          ∧ ((KeepsMedian l rest a b
              ∧ ((if l.length % 2 = 1 then a else b) = 0 ∨ SameMinute l rest))
            ∨ (0 < a ∧ SameMinute l rest ∧ Interchangeable l target a b)))

/-! ## The middle without a least value

Sorted, an entry of median zero comes first, and dropping it moves every other median down by
one place. Whether the middle is found at the same place afterwards depends on the parity of the
length, which is where `KeepsMedian` gets its cases from. -/

/-- Leaving out a zero shifts the middle by half a place. Which of the two middle positions moves
depends on whether the number of values is odd or even. -/
theorem middle_without_zero {values rest : List ℕ} (hp : values.Perm (0 :: rest))
    (hlen : 2 ≤ values.length) :
    (values.length % 2 = 1 → lower_median rest = lower_median values)
      ∧ (values.length % 2 = 0 → upper_median values = upper_median rest) := by
  have hlength : values.length = rest.length + 1 := by
    rw [hp.length_eq, List.length_cons]
  have hne : values ≠ [] := by
    rintro rfl
    exact absurd hlen (by decide)
  have hrest : rest ≠ [] := by
    rintro rfl
    rw [List.length_nil] at hlength
    omega
  have hzero : ∀ y ∈ rest, 0 ≤ y := fun y _ => Nat.zero_le y
  have hlower := isRanked_lower_median hrest
  have hupper := isRanked_upper_median hrest
  -- behind a least value every rank is one higher
  rw [← isRanked_cons_succ hzero] at hlower hupper
  constructor
  · intro hodd
    have hrank : (values.length - 1) / 2 = (rest.length - 1) / 2 + 1 := by omega
    have hvalues := isRanked_lower_median hne
    rw [hrank] at hvalues
    exact hlower.unique (hvalues.perm hp)
  · intro heven
    have hrank : values.length / 2 = rest.length / 2 + 1 := by omega
    have hvalues := isRanked_upper_median hne
    rw [hrank] at hvalues
    exact (hvalues.perm hp).unique hupper

section Choice

variable {l rest : List QueriedExchangeRate}

/-- **What is chosen with and without the entry.** Taking out the smallest of the medians moves
the middle by half a place: for an odd number the lower middle was the middle, and for an even one
the upper one becomes it. -/
theorem chosen_without_zero (hp : (medians l).Perm (0 :: medians rest)) (hlen : 2 ≤ l.length)
    (hsmall : ∀ m ∈ medians l, m < 2 ^ 63) (hsmall' : ∀ m ∈ medians rest, m < 2 ^ 63) :
    (KeepsMedian l rest (lower_median (medians l)) (upper_median (medians rest))
        ∧ median_in_set (medians rest) = median_in_set (medians l)
        ∧ median_in_set (medians l)
          = if l.length % 2 = 1 then lower_median (medians l) else upper_median (medians rest))
      ∨ ¬ KeepsMedian l rest (lower_median (medians l)) (upper_median (medians rest))
        ∧ ((median_in_set (medians l) = lower_median (medians l)
            ∧ median_in_set (medians rest) = upper_median (medians rest))
          ∨ (median_in_set (medians l) = upper_median (medians rest)
            ∧ median_in_set (medians rest) = lower_median (medians l))) := by
  have hlen' : 2 ≤ (medians l).length := by rwa [length_medians]
  obtain ⟨hodd, heven⟩ := middle_without_zero hp hlen'
  have hlength : (medians l).length = (medians rest).length + 1 := by
    rw [hp.length_eq, List.length_cons]
  rw [length_medians] at hodd heven hlength
  have hall := median_in_set_eq hsmall
  have hrest := median_in_set_eq hsmall'
  by_cases hpar : l.length % 2 = 1
  · -- `l` is odd: its only middle value is `a`, and the others choose between `a` and `b`
    have hmid := @lower_median_eq_upper_median (medians l) (by rwa [length_medians])
    rw [hodd hpar] at hrest
    rw [← hmid, ite_self] at hall
    rw [hall, hrest, if_pos hpar]
    generalize hx : lower_median (medians l) = a at *
    generalize hy : upper_median (medians rest) = b at *
    by_cases hfirst : (a + b) % 2 = 1 ∨ (medians rest).idxOf a ≤ (medians rest).idxOf b
    · rw [if_pos hfirst]
      exact Or.inl ⟨Or.inr (Or.inl ⟨hpar, hfirst⟩), rfl, rfl⟩
    · rw [if_neg hfirst]
      by_cases hab : a = b
      · exact Or.inl ⟨Or.inl hab, hab.symm, rfl⟩
      · right
        refine ⟨?_, Or.inl ⟨rfl, rfl⟩⟩
        rintro (heq | ⟨-, hkeep⟩ | ⟨hbad, -⟩)
        · exact hab heq
        · exact hfirst hkeep
        · omega
  · -- the others are odd: their only middle value is `b`
    have hpar' : l.length % 2 = 0 := by omega
    have hmid := @lower_median_eq_upper_median (medians rest) (by omega)
    rw [heven hpar'] at hall
    rw [hmid, ite_self] at hrest
    rw [hall, hrest, if_neg hpar]
    generalize hx : lower_median (medians l) = a at *
    generalize hy : upper_median (medians rest) = b at *
    by_cases hfirst : (a + b) % 2 = 1 ∨ (medians l).idxOf a ≤ (medians l).idxOf b
    · rw [if_pos hfirst]
      by_cases hab : a = b
      · exact Or.inl ⟨Or.inl hab, hab.symm, hab⟩
      · right
        refine ⟨?_, Or.inl ⟨rfl, rfl⟩⟩
        rintro (heq | ⟨hbad, -⟩ | ⟨-, hsum, hbefore⟩)
        · exact hab heq
        · omega
        · rcases hfirst with hodd' | hle
          · omega
          · omega
    · rw [if_neg hfirst]
      rw [not_or, not_le] at hfirst
      exact Or.inl ⟨Or.inr (Or.inr ⟨hpar', by omega, hfirst.2⟩), rfl, rfl⟩

end Choice

/-! ## The outcome

`get_stablecoin_rate` fails for fewer than two rates and for rates against different quote
assets, and otherwise makes its estimate from the first stablecoin with the chosen median. Its
result is split along these cases, and two results are compared case by case. -/

/-- Rates in range have a median of zero only when there are none. -/
theorem median_eq_zero_iff {rates : List ℕ} (h : InRange rates) : median rates = 0 ↔ rates = [] := by
  constructor
  · intro hzero
    by_contra hne
    have hpos := (median_of_inRange h hne).1
    omega
  · rintro rfl
    rfl

theorem small_medians {l : List QueriedExchangeRate} (hrange : ∀ rate ∈ l, InRange rate.rates) :
    ∀ m ∈ medians l, m < 2 ^ 63 := by
  apply medians_lt
  intro rate hrate
  by_cases hne : rate.rates = []
  · rw [hne]
    decide
  · exact (median_of_inRange (hrange rate hrate) hne).2

/-- The outcome for at least two rates. -/
theorem outcome_cases {l : List QueriedExchangeRate} (target : Asset)
    (hlen : MIN_NUM_STABLECOIN_RATES ≤ l.length) (hsmall : ∀ m ∈ medians l, m < 2 ^ 63) :
    (¬ SameQuote l ∧ outcome l target = .error .StablecoinRateNotFound)
      ∨ (SameQuote l ∧ median_in_set (medians l) = 0
        ∧ outcome l target = .error .StablecoinRateZeroRate)
      ∨ SameQuote l ∧ 0 < median_in_set (medians l)
        ∧ ∃ chosen, first_with l (median_in_set (medians l)) = some chosen
            ∧ outcome l target
              = .ok (estimate chosen target (l.map QueriedExchangeRate.timestamp)) := by
  rcases median_stablecoin_rate_cases hlen hsmall with ⟨hdiffer, expected, found, herror⟩
    | ⟨hsame, hzero, herror⟩ | ⟨hsame, hpos, chosen, hfirst, hchosen⟩
  · refine Or.inl ⟨hdiffer, ?_⟩
    rw [outcome, get_stablecoin_rate, herror]
    rfl
  · refine Or.inr (Or.inl ⟨hsame, hzero, ?_⟩)
    rw [outcome, get_stablecoin_rate, herror]
    rfl
  · refine Or.inr (Or.inr ⟨hsame, Nat.pos_of_ne_zero hpos, chosen, hfirst, ?_⟩)
    rw [outcome, get_stablecoin_rate_of_chosen hchosen]
    rfl

/-- Fewer rates than two are too few. -/
theorem outcome_of_few {l : List QueriedExchangeRate} (target : Asset)
    (hlen : l.length < MIN_NUM_STABLECOIN_RATES) :
    outcome l target = .error .StablecoinRateTooFewRates := by
  unfold outcome get_stablecoin_rate median_stablecoin_rate
  rw [if_pos hlen]
  rfl

/-- An estimate knows of the timestamps the minute of their median only. -/
theorem estimate_eq_iff (coin coin' : QueriedExchangeRate) (target : Asset)
    (timestamps timestamps' : List ℕ) :
    estimate coin target timestamps = estimate coin' target timestamps'
      ↔ median timestamps / 60 = median timestamps' / 60
        ∧ estimate coin target [] = estimate coin' target [] := by
  have hsplit : ∀ (c : QueriedExchangeRate) (ts : List ℕ),
      estimate c target ts = { estimate c target [] with timestamp := median ts / 60 * 60 } :=
    fun _ _ => rfl
  rw [hsplit coin, hsplit coin']
  constructor
  · intro heq
    have htime := congrArg QueriedExchangeRate.timestamp heq
    dsimp only at htime
    refine ⟨by omega, ?_⟩
    -- both estimates have the same timestamp, and the rest is equal
    have hzero : ∀ c : QueriedExchangeRate, estimate c target []
        = { { estimate c target [] with timestamp := median timestamps / 60 * 60 } with
            timestamp := 0 } := fun _ => rfl
    rw [hzero coin, heq]
    rfl
  · rintro ⟨hminute, heq⟩
    rw [heq, hminute]

/-- The two lists choose stablecoins that give the same estimate, or none. A median of zero is an
error on both sides, so nothing else has to agree then. -/
def SameChoice (l l' : List QueriedExchangeRate) (target : Asset) : Prop :=
  (median_in_set (medians l) = 0 ∧ median_in_set (medians l') = 0)
    ∨ 0 < median_in_set (medians l) ∧ 0 < median_in_set (medians l') ∧ SameMinute l l'
      ∧ (first_with l (median_in_set (medians l))).map (fun coin => estimate coin target [])
        = (first_with l' (median_in_set (medians l'))).map fun coin => estimate coin target []

/-- **When two lists have one outcome**: they fail alike, or give the same estimate. Lists with
different quote assets fail with one error, whichever the assets are, and all others are decided
by what is chosen. -/
theorem outcomes_eq_iff {l l' : List QueriedExchangeRate} (target : Asset)
    (hlen : MIN_NUM_STABLECOIN_RATES ≤ l.length) (hlen' : MIN_NUM_STABLECOIN_RATES ≤ l'.length)
    (hsmall : ∀ m ∈ medians l, m < 2 ^ 63) (hsmall' : ∀ m ∈ medians l', m < 2 ^ 63) :
    outcome l' target = outcome l target
      ↔ (¬ SameQuote l ∧ ¬ SameQuote l') ∨ SameQuote l ∧ SameQuote l' ∧ SameChoice l l' target := by
  unfold SameChoice
  rcases outcome_cases target hlen hsmall with ⟨hdiffer, herror⟩ | ⟨hsame, hzero, herror⟩
    | ⟨hsame, hpos, chosen, hchosen, hok⟩
  · rw [herror]
    rcases outcome_cases target hlen' hsmall' with ⟨hdiffer', herror'⟩ | ⟨hsame', -, herror'⟩
      | ⟨hsame', -, chosen', -, hok'⟩
    · exact iff_of_true herror' (Or.inl ⟨hdiffer, hdiffer'⟩)
    · simp [herror', hdiffer, hsame']
    · simp [hok', hdiffer, hsame']
  · rw [herror]
    rcases outcome_cases target hlen' hsmall' with ⟨hdiffer', herror'⟩ | ⟨hsame', hzero', herror'⟩
      | ⟨hsame', hpos', chosen', -, hok'⟩
    · simp [herror', hdiffer', hsame]
    · exact iff_of_true herror' (Or.inr ⟨hsame, hsame', Or.inl ⟨hzero, hzero'⟩⟩)
    · simp [hok', hsame, hsame', hzero, hpos'.ne']
  · rw [hok]
    rcases outcome_cases target hlen' hsmall' with ⟨hdiffer', herror'⟩ | ⟨hsame', hzero', herror'⟩
      | ⟨hsame', hpos', chosen', hchosen', hok'⟩
    · simp [herror', hdiffer', hsame]
    · simp [herror', hsame, hsame', hzero', hpos.ne']
    · -- both choose, and only the minute of the timestamps and the estimates are compared
      rw [hok', Except.ok.injEq, estimate_eq_iff, hchosen, hchosen']
      simp only [hsame, hsame', hpos, hpos', hpos.ne', hpos'.ne', SameMinute, Option.map_some,
        Option.some.injEq, not_true_eq_false, false_and, true_and, false_or]
      exact and_congr eq_comm eq_comm

/-- The medians and the first rates of a list with an entry that has no rates. -/
theorem medians_split {before after : List QueriedExchangeRate} {empty : QueriedExchangeRate}
    (hempty : empty.rates = []) :
    (medians (before ++ empty :: after)).Perm (0 :: medians (before ++ after)) := by
  have hzero : median empty.rates = 0 := by
    rw [hempty, median_nil]
  rw [medians, medians, List.map_append, List.map_append, List.map_cons, hzero]
  exact List.perm_middle

theorem first_with_split {before after : List QueriedExchangeRate} {empty : QueriedExchangeRate}
    (hempty : empty.rates = []) {m : ℕ} (hm : 0 < m) :
    first_with (before ++ after) m = first_with (before ++ empty :: after) m := by
  have hskip : decide (median empty.rates = m) = false := by
    rw [hempty, median_nil, decide_eq_false_iff_not]
    omega
  rw [first_with, first_with, List.find?_append, List.find?_append, List.find?_cons, hskip]

section Split

variable {l rest : List QueriedExchangeRate} (hp : (medians l).Perm (0 :: medians rest))
  (hsmall : ∀ m ∈ medians l, m < 2 ^ 63) (hsmall' : ∀ m ∈ medians rest, m < 2 ^ 63)

include hp hsmall hsmall'

/-- **When the same is chosen without an entry of median zero.** The choice is the first
stablecoin with a certain median, so an equal median is enough for an equal choice. With another
median two different stablecoins are chosen, and these must give one estimate. -/
theorem sameChoice_iff (hfirst : ∀ m, 0 < m → first_with rest m = first_with l m)
    (hlen : 3 ≤ l.length) (target : Asset) :
    SameChoice l rest target
      ↔ (KeepsMedian l rest (lower_median (medians l)) (upper_median (medians rest))
          ∧ ((if l.length % 2 = 1 then lower_median (medians l) else upper_median (medians rest)) = 0
            ∨ SameMinute l rest))
        ∨ (0 < lower_median (medians l) ∧ SameMinute l rest
          ∧ Interchangeable l target (lower_median (medians l)) (upper_median (medians rest))) := by
  have hchoice := chosen_without_zero hp (by omega) hsmall hsmall'
  have hlength : (medians l).length = (medians rest).length + 1 := by
    rw [hp.length_eq, List.length_cons]
  have hne : medians l ≠ [] := List.ne_nil_of_length_pos (by omega)
  have hne' : medians rest ≠ [] := by
    rw [length_medians, length_medians] at hlength
    exact List.ne_nil_of_length_pos (by rw [length_medians]; omega)
  obtain ⟨coin, hcoin⟩ := exists_first_with (isRanked_lower_median hne).mem
  obtain ⟨coin', hcoin'⟩ := exists_first_with (isRanked_upper_median hne').mem
  have hmid : lower_median (medians l) ≤ upper_median (medians rest) := by
    obtain ⟨hodd, heven⟩ := middle_without_zero hp (by rw [length_medians]; omega)
    rw [length_medians] at hodd heven
    have hle := lower_median_le_upper_median (medians l)
    have hle' := lower_median_le_upper_median (medians rest)
    omega
  unfold SameChoice Interchangeable
  generalize lower_median (medians l) = a at *
  generalize upper_median (medians rest) = b at *
  rcases hchoice with ⟨hkeep, heq, hvalue⟩ | ⟨hkeep, hvalues⟩
  · -- one median, and the same first coin where it is not zero
    rw [heq, hvalue]
    generalize hchosen : (if l.length % 2 = 1 then a else b) = m
    by_cases hzero : m = 0
    · exact iff_of_true (Or.inl ⟨hzero, hzero⟩) (Or.inl ⟨hkeep, Or.inl hzero⟩)
    · have hpos := Nat.pos_of_ne_zero hzero
      rw [hfirst m hpos]
      simp only [hzero, hpos, hkeep, false_and, true_and, false_or, and_true]
      exact ⟨Or.inl, fun h => h.elim id fun h' => h'.2.1⟩
  · -- two different ones, whose first coins are compared
    have hne : a ≠ b := fun heq => hkeep (Or.inl heq)
    by_cases ha : 0 < a
    · have hb : 0 < b := by omega
      rw [hfirst b hb] at hcoin'
      have hcompare : (∃ c c', first_with l a = some c ∧ first_with l b = some c'
          ∧ estimate c target [] = estimate c' target [])
          ↔ estimate coin target [] = estimate coin' target [] := by
        rw [hcoin, hcoin']
        simp
      rw [hcompare]
      rcases hvalues with ⟨hall, hothers⟩ | ⟨hall, hothers⟩
      · rw [hall, hothers, hfirst b hb, hcoin, hcoin']
        simp only [hkeep, ha, hb, ha.ne', false_and, true_and, false_or, Option.map_some,
          Option.some.injEq]
      · rw [hall, hothers, hfirst a ha, hcoin, hcoin']
        simp only [hkeep, ha, hb, hb.ne', false_and, true_and, false_or, Option.map_some,
          Option.some.injEq]
        exact and_congr_right fun _ => eq_comm
    · refine iff_of_false ?_ ?_
      · rintro (⟨hzero, hzero'⟩ | ⟨hpos, hpos', -⟩)
        · omega
        · omega
      · rintro (⟨hkeep', -⟩ | ⟨hpos, -⟩)
        · exact hkeep hkeep'
        · exact ha hpos

end Split

/-- **When an empty entry among at least three makes no difference.** An entry without rates has a
median of zero, which comes first among the medians. It can only be harmless by chance, in the
ways listed in `Harmless`. -/
theorem outcome_eq_iff {l before after : List QueriedExchangeRate} {empty : QueriedExchangeRate}
    (hl : l = before ++ empty :: after) (hempty : empty.rates = [])
    (hsmall : ∀ m ∈ medians l, m < 2 ^ 63) (target : Asset) (hlen : 3 ≤ l.length) :
    outcome (before ++ after) target = outcome l target
      ↔ Harmless l (before ++ after) target := by
  set rest := before ++ after with hrest
  have hp : (medians l).Perm (0 :: medians rest) := hl ▸ medians_split hempty
  have hlength : l.length = rest.length + 1 := by
    have hcount := hp.length_eq
    rwa [List.length_cons, length_medians, length_medians] at hcount
  have hsmall' : ∀ m ∈ medians rest, m < 2 ^ 63 :=
    fun m hm => hsmall m (hp.mem_iff.mpr (List.mem_cons_of_mem _ hm))
  have hfirst : ∀ m, 0 < m → first_with rest m = first_with l m :=
    fun m hm => (first_with_split hempty hm).trans (by rw [hl])
  -- what agrees among all agrees among the others
  have hquotes : SameQuote l → SameQuote rest := by
    intro hsame rate hrate rate' hrate'
    have hsub : ∀ r ∈ rest, r ∈ l := by
      intro r hr
      rw [hrest, List.mem_append] at hr
      rw [hl, List.mem_append, List.mem_cons]
      exact hr.imp_right Or.inr
    exact hsame rate (hsub rate hrate) rate' (hsub rate' hrate')
  have hlen₂ : MIN_NUM_STABLECOIN_RATES ≤ l.length := le_trans (by decide) hlen
  have hlen₂' : MIN_NUM_STABLECOIN_RATES ≤ rest.length := by
    show 2 ≤ rest.length
    omega
  have hone : ¬ l.length = 1 := by omega
  rw [outcomes_eq_iff target hlen₂ hlen₂' hsmall hsmall',
    sameChoice_iff hp hsmall hsmall' hfirst hlen target]
  unfold Harmless
  simp only [hone, hlen, false_or, true_and]
  -- if the quote assets of all differ, so must those of the others
  by_cases hsame : SameQuote l
  · simp only [hsame, hquotes hsame, not_true_eq_false, false_and, false_or, true_and]
  · simp only [hsame, not_false_eq_true, true_and, false_and, or_false]

/-! ## Usable stablecoins

What is left is to speak of all entries at once. Two usable stablecoins are implied as soon as
no empty entry makes a difference, since with one of them alone the choice depends on how many
empty ones stand next to it. -/

/-- The number of stablecoins with a rate. -/
def num_usable (l : List QueriedExchangeRate) : ℕ := l.countP fun rate => decide (rate.rates ≠ [])

/-- A choice among at least three rates rests on two usable ones. The median of the medians is
positive, so at least half of them are, and those rates are not empty. -/
theorem two_usable_of_ok {l : List QueriedExchangeRate} (hrange : ∀ rate ∈ l, InRange rate.rates)
    {target : Asset} (hlen : 3 ≤ l.length) {result : QueriedExchangeRate}
    (hok : get_stablecoin_rate l target = .ok result) : MIN_NUM_STABLECOIN_RATES ≤ num_usable l := by
  have hsmall : ∀ m ∈ medians l, m < 2 ^ 63 := small_medians hrange
  have houtcome : outcome l target = .ok result := by
    rw [outcome, hok]
    rfl
  by_contra hfew
  -- with at most one positive median, both middle ones are zero
  have hzeros : (medians l).length - 1 ≤ (medians l).countP (· ≤ 0) := by
    have hsplit : (medians l).countP (· ≤ 0) + num_usable l = l.length := by
      rw [medians, List.countP_map, num_usable]
      have hcount := List.length_eq_countP_add_countP
        (fun rate : QueriedExchangeRate => decide (rate.rates ≠ [])) (l := l)
      have hsame : l.countP ((fun m => decide (m ≤ 0)) ∘ fun rate => median rate.rates)
          = l.countP fun rate => decide ¬decide (rate.rates ≠ []) = true := by
        apply List.countP_congr
        intro rate hrate
        simp only [Function.comp_apply, decide_eq_true_eq, ne_eq, not_not, nonpos_iff_eq_zero]
        exact median_eq_zero_iff (hrange rate hrate)
      rw [hsame]
      omega
    rw [length_medians]
    have : num_usable l < 2 := not_le.mp hfew
    omega
  rw [length_medians] at hzeros
  have hne : medians l ≠ [] := by
    intro hnil
    have hzero := congrArg List.length hnil
    rw [length_medians, List.length_nil] at hzero
    omega
  have hrank : ∀ k, k + 1 < l.length → IsRanked (medians l) k 0 := by
    intro k hk
    refine ⟨?_, by omega⟩
    rw [List.countP_eq_zero.mpr fun m _ => by simp only [not_lt_zero, decide_false,
      Bool.false_eq_true, not_false_eq_true]]
    exact Nat.zero_le k
  have hlower := isRanked_lower_median hne
  have hupper := isRanked_upper_median hne
  rw [length_medians] at hlower hupper
  have hlower0 := hlower.unique (hrank _ (by omega))
  have hupper0 := hupper.unique (hrank _ (by omega))
  rcases outcome_cases target (l := l) (by show 2 ≤ l.length; omega) hsmall with ⟨-, herror⟩
    | ⟨-, -, herror⟩ | ⟨-, hpos, -⟩
  · rw [houtcome] at herror
    cases herror
  · rw [houtcome] at herror
    cases herror
  · rcases median_in_set_middle hsmall with heq | heq
    · omega
    · omega

/-- **When only usable stablecoins count.** For rates in range, the choice is made only among at
least two stablecoins with a rate, and no stablecoin without one changes its outcome, exactly when
every stablecoin without a rate is harmless; in particular when there is none.

An empty entry has a median of zero, the least of all. Leaving it out shifts the middle by half a
place, and whether that changes the outcome is computed from the two middle values and the
stablecoins that have them. For two entries it always does, as one alone is too few. -/
theorem usable_iff (l : List QueriedExchangeRate) (target : Asset)
    (hrange : ∀ rate ∈ l, InRange rate.rates) :
    (((∃ result, get_stablecoin_rate l target = .ok result) →
          MIN_NUM_STABLECOIN_RATES ≤ num_usable l)
        ∧ ∀ before empty after, l = before ++ empty :: after → empty.rates = [] →
            outcome (before ++ after) target = outcome l target)
      ↔ ∀ before empty after, l = before ++ empty :: after → empty.rates = [] →
          Harmless l (before ++ after) target := by
  have hsmall : ∀ m ∈ medians l, m < 2 ^ 63 := small_medians hrange
  constructor
  · rintro ⟨-, hsame⟩ before empty after hl hempty
    have hlength : l.length = (before ++ after).length + 1 := by
      rw [hl, List.length_append, List.length_append, List.length_cons]
      omega
    have heq := hsame before empty after hl hempty
    by_cases hone : l.length = 1
    · exact Or.inl hone
    by_cases htwo : l.length = 2
    · -- one entry is too few, two are not
      rw [outcome_of_few target (l := before ++ after) (by show _ < 2; omega)] at heq
      rcases outcome_cases target (l := l) (by show 2 ≤ l.length; omega) hsmall with ⟨-, herror⟩
        | ⟨-, -, herror⟩ | ⟨-, -, chosen, -, hok⟩
      · rw [herror] at heq
        cases heq
      · rw [herror] at heq
        cases heq
      · rw [hok] at heq
        cases heq
    · exact (outcome_eq_iff hl hempty hsmall target (by omega)).mp heq
  · intro hharmless
    have hnot_two : ∀ before empty after, l = before ++ empty :: after → empty.rates = [] →
        l.length = 1 ∨ 3 ≤ l.length := fun before empty after hl hempty =>
      (hharmless before empty after hl hempty).imp_right And.left
    refine ⟨?_, ?_⟩
    · rintro ⟨result, hok⟩
      by_cases hthree : 3 ≤ l.length
      · exact two_usable_of_ok hrange hthree hok
      · -- of two rates none is empty
        have htwo : MIN_NUM_STABLECOIN_RATES ≤ l.length := by
          by_contra hfew
          have houtcome := outcome_of_few target (not_le.mp hfew)
          rw [outcome, hok] at houtcome
          cases houtcome
        have hall : num_usable l = l.length := by
          refine List.countP_eq_length.mpr fun rate hrate => decide_eq_true fun hempty => ?_
          obtain ⟨before, after, hl⟩ := List.append_of_mem hrate
          have hlength := hnot_two before rate after hl hempty
          have htwo' : 2 ≤ l.length := htwo
          omega
        rw [hall]
        exact htwo
    · intro before empty after hl hempty
      have hlength : l.length = (before ++ after).length + 1 := by
        rw [hl, List.length_append, List.length_append, List.length_cons]
        omega
      rcases hnot_two before empty after hl hempty with hone | hthree
      · rw [outcome_of_few target (l := l) (by show _ < 2; omega),
          outcome_of_few target (l := before ++ after) (by show _ < 2; omega)]
      · exact (outcome_eq_iff hl hempty hsmall target hthree).mpr
          (hharmless before empty after hl hempty)

/-- Two stablecoins with rates are two usable ones. -/
theorem both_usable : MIN_NUM_STABLECOIN_RATES
    ≤ num_usable [scattered_usdc, single_usds 900_000_000] := by
  have hnone : ∀ rate ∈ [scattered_usdc, single_usds 900_000_000], rate.rates ≠ [] := by
    decide +kernel
  have hchosen : median_stablecoin_rate [scattered_usdc, single_usds 900_000_000]
      = .ok scattered_usdc := by decide +kernel
  refine ((usable_iff [scattered_usdc, single_usds 900_000_000] usd_asset
    (fun rate hrate => (built_example rate hrate).inRange)).mpr ?_).1
    ⟨_, get_stablecoin_rate_of_chosen hchosen usd_asset⟩
  intro before empty after hl hempty
  refine absurd hempty (hnone empty ?_)
  rw [hl]
  exact List.mem_append_right _ List.mem_cons_self

/-- One dollar for the first stablecoin, while the exchanges answer zero for the second: the
first one is chosen on its own. -/
theorem chosen_on_its_own :
    ¬ ∀ (l : List QueriedExchangeRate) (target : Asset), (∀ rate ∈ l, InRange rate.rates) →
      ((∃ result, get_stablecoin_rate l target = .ok result) →
          MIN_NUM_STABLECOIN_RATES ≤ num_usable l)
        ∧ ∀ before empty after, l = before ++ empty :: after → empty.rates = [] →
            outcome (before ++ after) target = outcome l target := by
  intro h
  have hchosen : median_stablecoin_rate
      [new ⟨USDC, .Cryptocurrency⟩ usdt_asset 0 [RATE_UNIT] 9 1 none, single_usds 0]
        = .ok (new ⟨USDC, .Cryptocurrency⟩ usdt_asset 0 [RATE_UNIT] 9 1 none) := by
    decide +kernel
  have htwo := (h [new ⟨USDC, .Cryptocurrency⟩ usdt_asset 0 [RATE_UNIT] 9 1 none, single_usds 0]
    usd_asset (by decide +kernel)).1 ⟨_, get_stablecoin_rate_of_chosen hchosen usd_asset⟩
  exact absurd htwo (by decide +kernel)

end stablecoin

end Xrc
