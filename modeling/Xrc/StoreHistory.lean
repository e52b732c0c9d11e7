/-
What a history of `ForexRateStore::put` calls leaves in the store. A put writes one day,
entry by entry, and keeps the entry with more received rates, the older one on a tie
(`entry_put`). Over a whole history the entry of a day and a symbol therefore is the first of
the best ones that were put there (`entry_put_all`): entries never disappear, their counts
never decrease, and reordering the history can only change which of several equally sourced
entries is kept.
-/
import Xrc.Forex
import Xrc.Ranks

set_option autoImplicit false

namespace Xrc

open OrderStatistics

namespace ForexRateStore

/-- A history of puts: timestamps with the rates that are put for them. -/
abbrev History : Type := List (ℕ × ForexMultiRateMap)

/-- One after the other. -/
def put_all (self : ForexRateStore) (history : History) : ForexRateStore :=
  history.foldl (fun store put => store.put put.1 put.2) self

/-- The entry of a day and a symbol. -/
def entry (self : ForexRateStore) (day : ℕ) (symbol : String) : Option QueriedExchangeRate :=
  (self.rates day).bind (· symbol)

/-- The rates that were put for a day and a symbol, the oldest first. -/
def put_rates (history : History) (day : ℕ) (symbol : String) : List QueriedExchangeRate :=
  history.filterMap fun put => if start_of_day put.1 = day then put.2 symbol else none

/-- The largest received count is reached once only. If it is reached twice, the earlier of the
two puts decides, and the order of the puts matters. -/
def BestOnce (rates : List QueriedExchangeRate) : Prop :=
  ∃ best ∈ rates, rates.countP
    (fun rate => decide (best.base_asset_num_received_rates ≤ rate.base_asset_num_received_rates)) = 1

/-! ## One put

A put is about one day, and within it about the symbols it brings. The larger count wins, and on
a tie the older entry. -/

/-- **What one put does to an entry**: it is merged with what is put for its symbol, if the
put is for its day. -/
theorem entry_put (self : ForexRateStore) (timestamp : ℕ) (rates : ForexMultiRateMap) (day : ℕ)
    (symbol : String) :
    (self.put timestamp rates).entry day symbol
      = if start_of_day timestamp = day then merge_entry (self.entry day symbol) (rates symbol)
        else self.entry day symbol := by
  by_cases hday : start_of_day timestamp = day
  · subst hday
    rw [entry, put_rates_self, if_pos rfl, Option.bind_some]
    rfl
  · rw [entry, put_rates_of_ne self rates (Ne.symm hday), if_neg hday, entry]

/-- An entry stays, with at least as many received rates. -/
theorem entry_put_ge {self : ForexRateStore} {day : ℕ} {symbol : String}
    {rate : QueriedExchangeRate} (h : self.entry day symbol = some rate) (timestamp : ℕ)
    (rates : ForexMultiRateMap) :
    ∃ rate', (self.put timestamp rates).entry day symbol = some rate'
      ∧ rate.base_asset_num_received_rates ≤ rate'.base_asset_num_received_rates := by
  rw [entry_put]
  by_cases hday : start_of_day timestamp = day
  · rw [if_pos hday]
    exact exists_merge_entry _ _ (Or.inl h)
  · rw [if_neg hday]
    exact ⟨rate, h, le_rfl⟩

/-! ## A history

The entry is a fold of `better`, and such a fold finds the first of the largest (`argmax`). So
all that a history leaves of a day and a symbol is determined by the rates that were put there,
and, where the largest count is reached once, by these as a set. -/

theorem put_all_append (self : ForexRateStore) (history : History) (put : ℕ × ForexMultiRateMap) :
    self.put_all (history ++ [put]) = (self.put_all history).put put.1 put.2 := by
  rw [put_all, List.foldl_append]
  rfl

theorem put_rates_append (history : History) (put : ℕ × ForexMultiRateMap) (day : ℕ)
    (symbol : String) :
    put_rates (history ++ [put]) day symbol
      = put_rates history day symbol
        ++ (if start_of_day put.1 = day then put.2 symbol else none).toList := by
  unfold put_rates
  rw [List.filterMap_append, List.append_cancel_left_eq, List.filterMap_eq_flatMap_toList,
    List.flatMap_singleton]

/-- **The entry after a history** is the first of those with the most received rates. An equal
count does not replace an entry, and `argmax` takes the first of several as well; so it is the
same choice, made for the whole history at once. -/
theorem entry_put_all (history : History) (day : ℕ) (symbol : String) :
    (new.put_all history).entry day symbol
      = (put_rates history day symbol).argmax
          QueriedExchangeRate.base_asset_num_received_rates := by
  induction history using List.reverseRecOn with
  | nil => rfl
  | append_singleton history put ih =>
      rw [put_all_append, entry_put, ih, put_rates_append]
      by_cases hday : start_of_day put.1 = day
      · rw [if_pos hday, if_pos hday]
        cases put.2 symbol with
        | none =>
            -- a put without the symbol changes nothing
            rw [Option.toList_none, List.append_nil]
            cases (put_rates history day symbol).argmax
              QueriedExchangeRate.base_asset_num_received_rates <;> rfl
        | some rate =>
            rw [Option.toList_some, List.argmax_concat]
            cases (put_rates history day symbol).argmax
              QueriedExchangeRate.base_asset_num_received_rates with
            | none => rfl
            | some old =>
                -- the strict comparison of `put` is that of the maximum
                simp only [merge_entry, better]
                split <;> rfl
      · rw [if_neg hday, if_neg hday, Option.toList_none, List.append_nil]

/-- **The store keeps the best-sourced rates.** After every history of puts on an empty store, the
entry of a day and a symbol is the first one put there among those with the largest received
count; a further put removes no entry, decreases no count and leaves every other day alone; and
another order of the same puts gives the same entry wherever the largest count is reached only
once.

A put replaces an entry only by one with a strictly larger count, so an entry is the running
maximum of the puts for it, with the first one kept on a tie. That is `argmax` of the list, and
for a maximum that is reached once the order does not matter. -/
theorem keeps_best_sourced (history : History) :
    (∀ day symbol, (new.put_all history).entry day symbol
        = (put_rates history day symbol).argmax
            QueriedExchangeRate.base_asset_num_received_rates)
      ∧ (∀ timestamp rates,
          (∀ day symbol rate, (new.put_all history).entry day symbol = some rate →
            ∃ rate', ((new.put_all history).put timestamp rates).entry day symbol = some rate'
              ∧ rate.base_asset_num_received_rates ≤ rate'.base_asset_num_received_rates)
          ∧ ∀ day, day ≠ start_of_day timestamp →
              ((new.put_all history).put timestamp rates).rates day
                = (new.put_all history).rates day)
      ∧ ∀ history' : History, history.Perm history' → ∀ day symbol,
          BestOnce (put_rates history day symbol) →
            (new.put_all history').entry day symbol = (new.put_all history).entry day symbol := by
  refine ⟨entry_put_all history, fun timestamp rates => ⟨?_, ?_⟩, ?_⟩
  · intro day symbol rate hentry
    exact entry_put_ge hentry timestamp rates
  · intro day hday
    exact put_rates_of_ne _ rates hday
  · intro history' hp day symbol hbest
    rw [entry_put_all, entry_put_all]
    -- a maximum that is reached once does not depend on the order
    obtain ⟨best, hmem, honce⟩ := hbest
    exact (argmax_perm_of_countP_eq_one (hp.filterMap _) hmem honce).symm

end ForexRateStore

end Xrc
