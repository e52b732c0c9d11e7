/-
A bounded window over rising keys: a key that is newer than all of the window opens, and drops
the oldest one when the window is full; any other key leaves the window as it is. The order in
which keys slide matters only through the first one that opens (`slide_all_eq_iff`), as long
as no more than one key is newer than that.
-/
import Mathlib.Data.List.Sort
import Mathlib.Order.Interval.Finset.Defs

set_option autoImplicit false

namespace Xrc.Window

variable {α : Type*} [LinearOrder α]

/-! ## One key

Everything about one arrival follows from a case split: the key is newer than all of the window,
or some key of the window is at least as large. In the second case nothing happens, in the first
the only loss is the oldest key of a full window. -/

/-- A key is newer than all of a window. Of an empty window every key is. -/
def Newer (window : List α) (key : α) : Prop := ∀ k ∈ window, k < key

instance (window : List α) (key : α) : Decidable (Newer window key) :=
  inferInstanceAs (Decidable (∀ k ∈ window, k < key))

/-- Open a key, and drop the oldest one of a full window. -/
def push (capacity : ℕ) (window : List α) (key : α) : List α :=
  (if window.length = capacity then window.tail else window) ++ [key]

/-- One key arrives. -/
def slide (capacity : ℕ) (window : List α) (key : α) : List α :=
  if Newer window key then push capacity window key else window

/-- Keys slide one after the other. -/
def slide_all (capacity : ℕ) (window keys : List α) : List α := keys.foldl (slide capacity) window

section

variable {capacity : ℕ} {window : List α} {key : α}

omit [LinearOrder α] in
theorem self_mem_push : key ∈ push capacity window key :=
  List.mem_append_right _ List.mem_cons_self

omit [LinearOrder α] in
theorem mem_or_eq_of_mem_push {k : α} (h : k ∈ push capacity window key) :
    k ∈ window ∨ k = key := by
  rcases List.mem_append.mp h with hold | hnew
  · left
    split at hold
    · exact List.mem_of_mem_tail hold
    · exact hold
  · exact Or.inr (List.mem_singleton.mp hnew)

omit [LinearOrder α] in
/-- A window for two keys keeps the one before the last. -/
theorem mem_push_push (hcapacity : 2 ≤ capacity) {k : α} :
    key ∈ push capacity (push capacity window key) k := by
  apply List.mem_append_left
  split
  · rename_i hfull
    unfold push at hfull ⊢
    cases hrest : if window.length = capacity then window.tail else window with
    | nil =>
        rw [hrest] at hfull
        simp only [List.nil_append, List.length_singleton] at hfull
        omega
    | cons first rest => exact List.mem_append_right _ List.mem_cons_self
  · exact self_mem_push

/-- A key that is not newer is at most another one. -/
theorem exists_le_of_not_newer (h : ¬ Newer window key) : ∃ k ∈ window, key ≤ k := by
  unfold Newer at h
  push Not at h
  exact h

/-- A key that is not newer changes nothing. -/
theorem slide_of_le {k : α} (hk : k ∈ window) (hle : key ≤ k) :
    slide capacity window key = window :=
  if_neg fun hnewer => absurd (hnewer k hk) (not_lt.mpr hle)

theorem slide_of_newer (h : Newer window key) :
    slide capacity window key = push capacity window key := if_pos h

/-- A key below the newest one stays below it. -/
theorem exists_lt_slide {k : α} (h : ∃ k' ∈ window, k < k') :
    ∃ k' ∈ slide capacity window key, k < k' := by
  obtain ⟨k', hk', hlt⟩ := h
  by_cases hnewer : Newer window key
  · rw [slide_of_newer hnewer]
    exact ⟨key, self_mem_push, hlt.trans (hnewer k' hk')⟩
  · rw [slide, if_neg hnewer]
    exact ⟨k', hk', hlt⟩

/-- **What is missing is older**: a key that arrived and is not in the window afterwards, or that
was dropped, is older than another one of the window. -/
theorem exists_lt_of_notMem_slide {k : α} (hk : k ∈ window ∨ k = key)
    (hmissing : k ∉ slide capacity window key) : ∃ k' ∈ slide capacity window key, k < k' := by
  by_cases hnewer : Newer window key
  · rw [slide_of_newer hnewer] at hmissing ⊢
    rcases hk with hold | rfl
    · exact ⟨key, self_mem_push, hnewer k hold⟩
    · exact absurd self_mem_push hmissing
  · rw [slide, if_neg hnewer] at hmissing ⊢
    rcases hk with hold | rfl
    · exact absurd hold hmissing
    · obtain ⟨k', hk', hle⟩ := exists_le_of_not_newer hnewer
      exact ⟨k', hk', lt_of_le_of_ne hle fun heq => hmissing (heq ▸ hk')⟩

/-- **The window stays in ascending order.** Only a key that is newer than all others is pushed,
and it is pushed at the end. -/
theorem pairwise_slide (h : window.Pairwise (· < ·)) :
    (slide capacity window key).Pairwise (· < ·) := by
  by_cases hnewer : Newer window key
  · rw [slide_of_newer hnewer, push, List.pairwise_append]
    refine ⟨?_, List.pairwise_singleton _ _, ?_⟩
    · split
      · exact h.tail
      · exact h
    · intro k hk k' hk'
      rw [List.mem_singleton.mp hk']
      apply hnewer
      split at hk
      · exact List.mem_of_mem_tail hk
      · exact hk
  · rw [slide, if_neg hnewer]
    exact h

theorem length_slide_le (hcapacity : 0 < capacity) (h : window.length ≤ capacity) :
    (slide capacity window key).length ≤ capacity := by
  by_cases hnewer : Newer window key
  · rw [slide_of_newer hnewer, push, List.length_append, List.length_singleton]
    split
    · rw [List.length_tail]
      omega
    · omega
  · rw [slide, if_neg hnewer]
    exact h

/-- **What goes is the oldest**: the others are newer, and stay. The keys are ascending, so the
one that leaves a full window, at its front, is the least of them. -/
theorem oldest_of_notMem_slide (h : window.Pairwise (· < ·)) {k : α} (hk : k ∈ window)
    (hgone : k ∉ slide capacity window key) :
    ∀ k' ∈ window, k' ≠ k → k < k' ∧ k' ∈ slide capacity window key := by
  by_cases hnewer : Newer window key
  · rw [slide_of_newer hnewer, push] at hgone ⊢
    rw [List.mem_append, not_or] at hgone
    -- only a full window drops a key, and it drops the first one
    by_cases hfull : window.length = capacity
    · rw [if_pos hfull] at hgone ⊢
      cases window with
      | nil => cases hk
      | cons first rest =>
          obtain rfl : k = first := (List.mem_cons.mp hk).resolve_right hgone.1
          intro k' hk' hne
          have hrest : k' ∈ rest := (List.mem_cons.mp hk').resolve_left hne
          exact ⟨(List.pairwise_cons.mp h).1 k' hrest, List.mem_append_left _ hrest⟩
    · rw [if_neg hfull] at hgone
      exact absurd hk hgone.1
  · rw [slide, if_neg hnewer] at hgone
    exact absurd hk hgone

/-- The newest key never decreases. -/
theorem exists_le_slide {k : α} (hk : k ∈ window) : ∃ k' ∈ slide capacity window key, k ≤ k' := by
  by_cases hstays : k ∈ slide capacity window key
  · exact ⟨k, hstays, le_rfl⟩
  · obtain ⟨k', hk', hlt⟩ := exists_lt_of_notMem_slide (Or.inl hk) hstays
    exact ⟨k', hk', hlt.le⟩

end

/-! ## A run

A key that opens makes every later key that is not newer inert, so a run is decided by its
openings. The first of them splits it in two parts, of which the first changes nothing. -/

section

variable {capacity : ℕ} {window : List α}

/-- **Lost for good**: an older key that is missing never comes back. To come back it would have
to be newer than all keys of the window, but there is always one that is newer: the greatest key
of a window never decreases. -/
theorem notMem_slide_all {k : α} (keys : List α) : ∀ window : List α, k ∉ window →
    (∃ k' ∈ window, k < k') → k ∉ slide_all capacity window keys := by
  induction keys with
  | nil => exact fun _ hmissing _ => hmissing
  | cons key keys ih =>
      intro window hmissing hlt
      refine ih _ ?_ (exists_lt_slide hlt)
      obtain ⟨k', hk', hlt⟩ := hlt
      by_cases hnewer : Newer window key
      · rw [slide_of_newer hnewer]
        intro hk
        rcases mem_or_eq_of_mem_push hk with hold | rfl
        · exact hmissing hold
        · exact lt_asymm hlt (hnewer k' hk')
      · rw [slide, if_neg hnewer]
        exact hmissing

/-- Keys that are not newer change nothing. -/
theorem slide_all_of_le (keys : List α) (h : ∀ key ∈ keys, ∃ k ∈ window, key ≤ k) :
    slide_all capacity window keys = window := by
  induction keys with
  | nil => rfl
  | cons key keys ih =>
      obtain ⟨k, hk, hle⟩ := h key List.mem_cons_self
      rw [slide_all, List.foldl_cons, slide_of_le hk hle]
      exact ih fun k' hk' => h k' (List.mem_cons_of_mem _ hk')

theorem slide_all_append (keys keys' : List α) :
    slide_all capacity window (keys ++ keys')
      = slide_all capacity (slide_all capacity window keys) keys' := List.foldl_append

theorem slide_all_cons (key : α) (keys : List α) :
    slide_all capacity window (key :: keys)
      = slide_all capacity (slide capacity window key) keys := rfl

/-- The first key that opens. -/
def first_newer (window keys : List α) : Option α := keys.find? fun key => decide (Newer window key)

theorem first_newer_eq_none {keys : List α} :
    first_newer window keys = none ↔ ∀ key ∈ keys, ¬ Newer window key := by
  simp [first_newer]

theorem newer_of_first_newer {keys : List α} {key : α} (h : first_newer window keys = some key) :
    key ∈ keys ∧ Newer window key :=
  ⟨List.mem_of_find?_eq_some h, by simpa using List.find?_some h⟩

theorem slide_all_of_first_newer_none {keys : List α} (h : first_newer window keys = none) :
    slide_all capacity window keys = window :=
  slide_all_of_le keys fun key hkey =>
    exists_le_of_not_newer (first_newer_eq_none.mp h key hkey)

/-- A run up to its first newer key and behind it. -/
theorem slide_all_split (capacity : ℕ) {keys : List α} {key : α}
    (hfirst : first_newer window keys = some key) :
    ∃ before after, keys = before ++ key :: after ∧ (∀ a ∈ before, ∃ k ∈ window, a ≤ k)
      ∧ slide_all capacity window keys = slide_all capacity (push capacity window key) after := by
  obtain ⟨hnewer, before, after, rfl, hbefore⟩ := List.find?_eq_some_iff_append.mp hfirst
  have hbelow : ∀ a ∈ before, ∃ k ∈ window, a ≤ k := fun a ha =>
    exists_le_of_not_newer (by simpa using hbefore a ha)
  refine ⟨before, after, rfl, hbelow, ?_⟩
  rw [slide_all_append, slide_all_of_le before hbelow, slide_all_cons,
    slide_of_newer (by simpa using hnewer)]

/-- **A run is its first newer key**, followed by the one key newer than that, if there is
any. -/
theorem slide_all_of_first_newer (capacity : ℕ) {keys : List α} {key : α}
    (hfirst : first_newer window keys = some key)
    (hlast : ∀ a ∈ keys, ∀ b ∈ keys, key < a → key < b → a = b) :
    ((∀ a ∈ keys, a ≤ key) ∧ slide_all capacity window keys = push capacity window key)
      ∨ ∃ a ∈ keys, key < a
          ∧ slide_all capacity window keys = push capacity (push capacity window key) a := by
  obtain ⟨-, hnewer⟩ := newer_of_first_newer hfirst
  obtain ⟨before, after, hkeys, hbelow, hrun⟩ := slide_all_split capacity hfirst
  have hafter_mem : ∀ {a : α}, a ∈ after → a ∈ keys := fun ha =>
    hkeys ▸ List.mem_append_right _ (List.mem_cons_of_mem _ ha)
  rw [hrun]
  cases hsecond : first_newer (push capacity window key) after with
  | none =>
      -- nothing newer follows
      left
      refine ⟨?_, slide_all_of_first_newer_none hsecond⟩
      have hpush : ∀ k ∈ push capacity window key, k ≤ key := by
        intro k hk
        rcases mem_or_eq_of_mem_push hk with hold | rfl
        · exact (hnewer k hold).le
        · exact le_refl k
      intro a ha
      rw [hkeys] at ha
      rcases List.mem_append.mp ha with ha | ha
      · obtain ⟨k, hk, hle⟩ := hbelow a ha
        exact hle.trans (hnewer k hk).le
      · rcases List.mem_cons.mp ha with rfl | ha
        · exact le_refl a
        · obtain ⟨k, hk, hle⟩ := exists_le_of_not_newer (first_newer_eq_none.mp hsecond a ha)
          exact hle.trans (hpush k hk)
  | some a =>
      right
      obtain ⟨ha, hnewer'⟩ := newer_of_first_newer hsecond
      have hlt := hnewer' key self_mem_push
      refine ⟨a, hafter_mem ha, hlt, ?_⟩
      -- and nothing is newer than the second one
      obtain ⟨before', after', hkeys', -, hrun'⟩ := slide_all_split capacity hsecond
      rw [hrun']
      refine slide_all_of_le after' fun b hb => ⟨a, self_mem_push, ?_⟩
      by_contra hnot
      have hb' : b ∈ after := hkeys' ▸ List.mem_append_right _ (List.mem_cons_of_mem _ hb)
      have hab := not_le.mp hnot
      exact hab.ne (hlast a (hafter_mem ha) b (hafter_mem hb') hlt (hlt.trans hab))

/-! ## Reordered runs

Of two orders of the same keys, at most two keys can open in either: the first newer one, and
one that is newer still. With room for two keys the window afterwards holds the last two that
opened. -/

/-- The first newer key is in the window afterwards, and an older one is not. A newer key that
comes first pushes what is older out, or bars it from being pushed. -/
theorem mem_slide_all_of_first_newer (hcapacity : 2 ≤ capacity) {keys : List α} {key : α}
    (hfirst : first_newer window keys = some key)
    (hlast : ∀ a ∈ keys, ∀ b ∈ keys, key < a → key < b → a = b) :
    key ∈ slide_all capacity window keys
      ∧ ∀ k, Newer window k → k < key → k ∉ slide_all capacity window keys := by
  have hold : ∀ k, Newer window k → k < key → k ∉ push capacity window key := by
    intro k hnewer hlt hk
    rcases mem_or_eq_of_mem_push hk with hk | rfl
    · exact lt_irrefl k (hnewer k hk)
    · exact lt_irrefl k hlt
  rcases slide_all_of_first_newer capacity hfirst hlast with ⟨-, hrun⟩ | ⟨a, -, hlt, hrun⟩
  · rw [hrun]
    exact ⟨self_mem_push, hold⟩
  · rw [hrun]
    refine ⟨mem_push_push hcapacity, fun k hnewer hlt' hk => ?_⟩
    rcases mem_or_eq_of_mem_push hk with hk | rfl
    · exact hold k hnewer hlt' hk
    · exact lt_asymm hlt hlt'

/-- **The first newer key decides.** Two orders of the same keys leave the same window exactly
when the same key opens first, as long as no more than one key is newer than an opening one. -/
theorem slide_all_eq_iff (hcapacity : 2 ≤ capacity) {keys keys' : List α}
    (hp : keys.Perm keys')
    (hlast : ∀ key ∈ keys, Newer window key →
      ∀ a ∈ keys, ∀ b ∈ keys, key < a → key < b → a = b) :
    slide_all capacity window keys = slide_all capacity window keys'
      ↔ first_newer window keys = first_newer window keys' := by
  have hlast' : ∀ key ∈ keys', Newer window key →
      ∀ a ∈ keys', ∀ b ∈ keys', key < a → key < b → a = b := fun key hkey hnewer a ha b hb =>
    hlast key (hp.mem_iff.mpr hkey) hnewer a (hp.mem_iff.mpr ha) b (hp.mem_iff.mpr hb)
  cases hfirst : first_newer window keys with
  | none =>
      have hnone : first_newer window keys' = none :=
        first_newer_eq_none.mpr fun key hkey =>
          first_newer_eq_none.mp hfirst key (hp.mem_iff.mpr hkey)
      rw [hnone, slide_all_of_first_newer_none hfirst, slide_all_of_first_newer_none hnone]
      exact iff_of_true rfl rfl
  | some key =>
      obtain ⟨hkey, hnewer⟩ := newer_of_first_newer hfirst
      cases hfirst' : first_newer window keys' with
      | none => exact absurd hnewer (first_newer_eq_none.mp hfirst' key (hp.mem_iff.mp hkey))
      | some key' =>
          obtain ⟨hkey', hnewer'⟩ := newer_of_first_newer hfirst'
          obtain ⟨hmem, hold⟩ :=
            mem_slide_all_of_first_newer hcapacity hfirst (hlast key hkey hnewer)
          obtain ⟨hmem', hold'⟩ :=
            mem_slide_all_of_first_newer hcapacity hfirst' (hlast' key' hkey' hnewer')
          constructor
          · intro hsame
            rcases lt_trichotomy key key' with hlt | rfl | hlt
            · exact absurd (hsame ▸ hmem) (hold' key hnewer hlt)
            · rfl
            · exact absurd (hsame ▸ hmem') (hold key' hnewer' hlt)
          · intro hsame
            obtain rfl := Option.some.inj hsame
            -- the newest key, if there is another one, is the same in both orders
            rcases slide_all_of_first_newer capacity hfirst (hlast key hkey hnewer) with
              ⟨hle, hrun⟩ | ⟨a, ha, hlt, hrun⟩
            · rcases slide_all_of_first_newer capacity hfirst' (hlast' key hkey' hnewer) with
                ⟨-, hrun'⟩ | ⟨b, hb, hlt', -⟩
              · rw [hrun, hrun']
              · exact absurd (hle b (hp.mem_iff.mpr hb)) (not_le.mpr hlt')
            · rcases slide_all_of_first_newer capacity hfirst' (hlast' key hkey' hnewer) with
                ⟨hle', -⟩ | ⟨b, hb, hlt', hrun'⟩
              · exact absurd (hle' a (hp.mem_iff.mp ha)) (not_le.mpr hlt)
              · rw [hrun, hrun', hlast key hkey hnewer a ha b (hp.mem_iff.mpr hb) hlt hlt']

end

end Xrc.Window
