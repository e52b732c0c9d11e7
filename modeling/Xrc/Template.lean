/-
Texts with placeholders, filled in by one global replacement after the other.

A later replacement also sees what the earlier ones have put in. It still finds nothing but its
own placeholder, if every placeholder's name is cut in two by a separator that no value holds:
a match must then lie around a separator of the template itself, and the left halves of the
names tell the placeholders apart, whatever stands before them (`halves_of_match`). The result is
what one pass over the template gives (`foldl_replace_eq_fill`).
-/
import Mathlib.Data.List.Basic
import Mathlib.Data.List.Infix
import Mathlib.Tactic.Common

set_option autoImplicit false

namespace Xrc.Template

variable {α κ : Type} [DecidableEq α]

/-! ## Replacing one text

A match is searched for from the left, and the search goes on behind it, in the text and not in
what was put in. The count `skip` stands for the characters of the match that are still to be
passed over, so that the recursion is over the text. -/

/-- Replace the matches of a pattern from the left, the next `skip` characters being part of the
last one. -/
def replace_from (pattern value : List α) : ℕ → List α → List α
  | _, [] => []
  | skip + 1, _ :: text => replace_from pattern value skip text
  | 0, c :: text =>
      if pattern.isPrefixOf (c :: text) then
        value ++ replace_from pattern value (pattern.length - 1) text
      else c :: replace_from pattern value 0 text

/-- Replace all matches of a pattern. -/
def replace (pattern value text : List α) : List α := replace_from pattern value 0 text

section Replace

variable {pattern : List α} (value : List α)

theorem replace_from_append (w rest : List α) :
    replace_from pattern value w.length (w ++ rest) = replace pattern value rest := by
  induction w with
  | nil => rfl
  | cons c w ih => exact ih

/-- A match is replaced. -/
theorem replace_match (hne : pattern ≠ []) (rest : List α) :
    replace pattern value (pattern ++ rest) = value ++ replace pattern value rest := by
  obtain ⟨c, w, rfl⟩ := List.exists_cons_of_ne_nil hne
  have hmatch : (c :: w).isPrefixOf (c :: (w ++ rest)) = true :=
    List.isPrefixOf_iff_prefix.mpr (List.prefix_append (c :: w) rest)
  rw [List.cons_append, replace, replace_from, if_pos hmatch]
  congr 1
  exact replace_from_append value w rest

/-- A character at which no match starts stays. -/
theorem replace_cons {c : α} {text : List α} (h : ¬ pattern <+: c :: text) :
    replace pattern value (c :: text) = c :: replace pattern value text := by
  rw [replace, replace_from, if_neg (mt List.isPrefixOf_iff_prefix.mp h)]
  rfl

/-- A piece of the text in which no match starts stays. -/
theorem replace_append {w rest : List α}
    (h : ∀ s, s <:+ w → s ≠ [] → ¬ pattern <+: s ++ rest) :
    replace pattern value (w ++ rest) = w ++ replace pattern value rest := by
  induction w with
  | nil => rfl
  | cons c w ih =>
      have hclear : ¬ pattern <+: c :: (w ++ rest) :=
        h (c :: w) (List.suffix_refl _) (List.cons_ne_nil c w)
      have htail := ih fun s hs => h s (hs.trans (List.suffix_cons c w))
      rw [List.cons_append, replace_cons value hclear, htail, List.cons_append]

end Replace

/-! ## Templates

The specification reads a text into tokens in one pass and fills in all of its placeholders at
once. Filling in the names gives the text back, so nothing is lost in reading. -/

/-- A literal character, or a placeholder. -/
inductive Token (α κ : Type) where
  | char (c : α)
  | slot (k : κ)
  deriving DecidableEq, Repr

/-- The tokens of a text, the next `skip` characters being part of the last placeholder. -/
def parse_from (name : κ → List α) (keys : List κ) : ℕ → List α → List (Token α κ)
  | _, [] => []
  | skip + 1, _ :: text => parse_from name keys skip text
  | 0, c :: text =>
      match keys.find? fun k => (name k).isPrefixOf (c :: text) with
      | some k => .slot k :: parse_from name keys ((name k).length - 1) text
      | none => .char c :: parse_from name keys 0 text

/-- The tokens of a text that may contain the names of the given placeholders. -/
def parse (name : κ → List α) (keys : List κ) (text : List α) : List (Token α κ) :=
  parse_from name keys 0 text

/-- Put a text in the place of each placeholder, all at once. -/
def fill (value : κ → List α) : List (Token α κ) → List α
  | [] => []
  | .char c :: tokens => c :: fill value tokens
  | .slot k :: tokens => value k ++ fill value tokens

/-- The names put back into the tokens of a text are the text. -/
theorem fill_parse_from {name : κ → List α} {keys : List κ} (hne : ∀ k, name k ≠ [])
    (text : List α) : ∀ skip, fill name (parse_from name keys skip text) = text.drop skip := by
  induction text with
  | nil =>
      intro skip
      cases skip with
      | zero => rfl
      | succ skip => rfl
  | cons c text ih =>
      -- the characters of a placeholder are passed over one by one
      intro skip
      cases skip with
      | succ skip => exact ih skip
      | zero =>
          rw [parse_from]
          split
          · rename_i k hk
            have hfound := List.find?_some hk
            have hmatch := List.isPrefixOf_iff_prefix.mp hfound
            -- a match is the name in front of the rest, of which one character is read here
            obtain ⟨d, w, hname⟩ := List.exists_cons_of_ne_nil (hne k)
            obtain ⟨rest, hrest⟩ := hmatch
            rw [hname, List.cons_append, List.cons.injEq] at hrest
            rw [fill, ih, hname, List.length_cons, Nat.add_sub_cancel, ← hrest.2, List.drop_left,
              List.drop_zero, List.cons_append, hrest.1, hrest.2]
          · rw [fill, ih]
            rfl

theorem fill_parse {name : κ → List α} {keys : List κ} (hne : ∀ k, name k ≠ [])
    (text : List α) : fill name (parse name keys text) = text :=
  fill_parse_from hne text 0

/-! ## Names cut in two

A match of a name has its separator somewhere. If no value holds the separator, this is one of
the template, and the halves on both sides must fit; what stands before it may be a value that
ends like a left half does. -/

/-- Placeholders whose names are cut in two by a separator, so that no left half ends another. -/
structure Placeholders (α κ : Type) where
  separator : α
  left : κ → List α
  right : κ → List α
  left_ne_nil : ∀ k, left k ≠ []
  right_ne_nil : ∀ k, right k ≠ []
  notMem_left : ∀ k, separator ∉ left k
  notMem_right : ∀ k, separator ∉ right k
  left_injective : ∀ i j, left i <:+ left j → i = j

namespace Placeholders

variable (p : Placeholders α κ)

/-- The name of a placeholder. -/
def name (k : κ) : List α := p.left k ++ p.separator :: p.right k

/-- A character that begins no right half. -/
def free (keys : List κ) (c : α) : Bool := keys.all fun k => decide ((p.right k).head? ≠ some c)

/-- The tokens begin with a free character, or with one of the placeholders `opening`. -/
def follows [DecidableEq κ] (keys opening : List κ) : List (Token α κ) → Bool
  | [] => true
  | .char c :: _ => p.free keys c
  | .slot k :: _ => decide (k ∈ opening)

/-- No right half follows a separator of the template. -/
def guarded [DecidableEq κ] (keys opening : List κ) : List (Token α κ) → Bool
  | [] => true
  | .slot _ :: tokens => guarded keys opening tokens
  | .char c :: tokens =>
      (decide (c ≠ p.separator) || p.follows keys opening tokens) && guarded keys opening tokens

/-- A text that begins with a free character. Such a character begins no right half, so behind a
separator of the template the text does not complete a name. -/
def Opens (keys : List κ) (text : List α) : Prop := ∃ c w, text = c :: w ∧ p.free keys c = true

/-- In some of the places already the values, in the others still the names. This is what a
template looks like between two replacements. -/
def Mixed (value σ : κ → List α) : Prop := ∀ k, σ k = p.name k ∨ σ k = value k

variable {p}

omit [DecidableEq α] in
theorem name_ne_nil (k : κ) : p.name k ≠ [] := by
  unfold name
  simp

omit [DecidableEq α] in
/-- **A match** of a name is around the first separator of the text: before it stands the left
half, and nothing else. -/
theorem halves_of_match {k : κ} {a b : List α} (ha : p.separator ∉ a)
    (h : p.name k <+: a ++ p.separator :: b) : p.left k = a ∧ p.right k <+: b := by
  obtain ⟨t, ht⟩ := h
  rw [name, List.append_assoc, List.cons_append] at ht
  -- the two separators are the same one, since there is none in front of either
  rcases List.append_eq_append_iff.mp ht with ⟨c, hc, hrest⟩ | ⟨c, hc, hrest⟩
  · cases c with
    | nil =>
        rw [List.append_nil] at hc
        rw [List.nil_append, List.cons.injEq] at hrest
        exact ⟨hc.symm, t, hrest.2⟩
    | cons d c =>
        rw [List.cons_append, List.cons.injEq] at hrest
        rw [hc, ← hrest.1] at ha
        exact absurd (List.mem_append_right _ List.mem_cons_self) ha
  · cases c with
    | nil =>
        rw [List.append_nil] at hc
        rw [List.nil_append, List.cons.injEq] at hrest
        exact ⟨hc, t, hrest.2.symm⟩
    | cons d c =>
        rw [List.cons_append, List.cons.injEq] at hrest
        have hleft := p.notMem_left k
        rw [hc, ← hrest.1] at hleft
        exact absurd (List.mem_append_right _ List.mem_cons_self) hleft

omit [DecidableEq α] in
/-- The pieces that end a name. -/
theorem suffix_name {k : κ} {s : List α} (h : s <:+ p.name k) :
    (∃ a, a <:+ p.left k ∧ s = a ++ p.separator :: p.right k) ∨ s <:+ p.right k := by
  obtain ⟨t, ht⟩ := h
  rcases List.append_eq_append_iff.mp ht with ⟨a, ha, hs⟩ | ⟨c, hc, hs⟩
  · exact Or.inl ⟨a, ⟨t, ha.symm⟩, hs⟩
  · cases c with
    | nil => exact Or.inl ⟨[], List.nil_suffix, hs.symm⟩
    | cons d c =>
        rw [List.cons_append, List.cons.injEq] at hs
        exact Or.inr ⟨c, hs.2.symm⟩

/-- No right half begins with a free character. -/
theorem not_right_of_opens {keys : List κ} {k : κ} (hk : k ∈ keys) {text : List α}
    (h : p.Opens keys text) : ¬ p.right k <+: text := by
  obtain ⟨c, w, rfl, hfree⟩ := h
  intro hprefix
  obtain ⟨d, r, hright⟩ := List.exists_cons_of_ne_nil (p.right_ne_nil k)
  have hhead := of_decide_eq_true (List.all_eq_true.mp hfree k hk)
  rw [hright, List.cons_prefix_cons] at hprefix
  rw [hright, List.head?_cons, hprefix.1] at hhead
  exact hhead rfl

/-! ## Replacing one placeholder

The induction over the placeholders keeps a text in which some are filled in and the others are
still names. Replacing one of them changes its own places only, since the text is `Clear` of
matches everywhere else. -/

/-- Around the first separator of a text there is no match of a name, unless another one stands
there: before it ends some left half, or after it does not begin the right one. -/
def Clear (p : Placeholders α κ) (k : κ) (text : List α) : Prop :=
  ∀ a b, text = a ++ p.separator :: b → p.separator ∉ a →
    (∃ i, p.left i <:+ a) ∨ ¬ p.right k <+: b

omit [DecidableEq α] in
theorem Clear.append {k : κ} {w text : List α} (hw : p.separator ∉ w) (h : p.Clear k text) :
    p.Clear k (w ++ text) := by
  intro a b heq ha
  rcases List.append_eq_append_iff.mp heq with ⟨c, rfl, hrest⟩ | ⟨c, hc, hrest⟩
  · rcases h c b hrest fun hmem => ha (List.mem_append_right w hmem) with ⟨i, hi⟩ | hright
    · exact Or.inl ⟨i, List.suffix_append_of_suffix hi⟩
    · exact Or.inr hright
  · cases c with
    | nil =>
        rcases h [] b hrest.symm List.not_mem_nil with ⟨i, hi⟩ | hright
        · exact absurd (List.suffix_nil.mp hi) (p.left_ne_nil i)
        · exact Or.inr hright
    | cons d c =>
        rw [List.cons_append, List.cons.injEq] at hrest
        rw [hc, ← hrest.1] at hw
        exact absurd (List.mem_append_right _ List.mem_cons_self) hw

omit [DecidableEq α] in
/-- **No match starts** in a piece without a separator that stands before a clear text. A match
would take the first half of a name out of the piece and the second one out of the text, across
the separator, which is what a clear text excludes. -/
theorem Clear.no_match {k : κ} {s text : List α} (h : p.Clear k text) (hs : p.separator ∉ s)
    (hne : s ≠ []) : ¬ p.name k <+: s ++ text := by
  intro hmatch
  have hsep : p.separator ∈ text := by
    have hmem : p.separator ∈ s ++ text :=
      hmatch.subset (List.mem_append_right _ List.mem_cons_self)
    exact (List.mem_append.mp hmem).resolve_left hs
  obtain ⟨a, b, rfl, ha⟩ := List.eq_append_cons_of_mem hsep
  rw [← List.append_assoc] at hmatch
  have hboth : p.separator ∉ s ++ a := fun hmem => (List.mem_append.mp hmem).elim hs ha
  obtain ⟨hleft, hright⟩ := halves_of_match hboth hmatch
  rcases h a b rfl ha with ⟨i, hi⟩ | hclear
  · -- the left half found there is the name's own, and shorter than it is
    have hsuffix : p.left i <:+ p.left k := by
      rw [hleft]
      exact List.suffix_append_of_suffix hi
    rw [p.left_injective i k hsuffix] at hi
    have hlength := hi.length_le
    rw [hleft, List.length_append] at hlength
    exact hne (List.length_eq_zero_iff.mp (by omega))
  · exact hclear hright

omit [DecidableEq α] in
theorem Clear.no_match_char {k : κ} {c : α} {text : List α} (h : p.Clear k text) :
    ¬ p.name k <+: c :: text := by
  by_cases hc : c = p.separator
  · intro hmatch
    rw [hc, ← List.nil_append (p.separator :: text)] at hmatch
    exact p.left_ne_nil k (halves_of_match List.not_mem_nil hmatch).1
  · exact h.no_match (fun hmem => hc (List.mem_singleton.mp hmem).symm) (List.cons_ne_nil c [])

omit [DecidableEq α] in
theorem Clear.no_match_name {j k : κ} (hne : j ≠ k) {text : List α} (h : p.Clear k text)
    {s : List α} (hs : s <:+ p.name j) (hnil : s ≠ []) : ¬ p.name k <+: s ++ text := by
  rcases suffix_name hs with ⟨a, ha, rfl⟩ | hright
  · -- a match around the separator of the other name would make the left halves agree
    intro hmatch
    rw [List.append_assoc, List.cons_append] at hmatch
    have hsep : p.separator ∉ a := fun hmem => p.notMem_left j (ha.subset hmem)
    have hleft := (halves_of_match hsep hmatch).1
    exact hne (p.left_injective k j (hleft ▸ ha)).symm
  · exact h.no_match (fun hmem => p.notMem_right j (hright.subset hmem)) hnil

section Fill

variable [DecidableEq κ] {keys opening : List κ} {value σ : κ → List α}
  (hvalue : ∀ k, p.separator ∉ value k)
  (hnames : ∀ k ∈ opening, p.Opens keys (p.name k))
  (hopens : ∀ k ∈ opening, p.Opens keys (value k))
  (hmixed : p.Mixed value σ)

include hnames hopens hmixed in
/-- No right half begins what follows a separator of the template. What follows is a character of
the template, a name or a value, and none of these begins like a right half. -/
theorem not_right_of_follows {k : κ} (hk : k ∈ keys) {tokens : List (Token α κ)}
    (h : p.follows keys opening tokens = true) : ¬ p.right k <+: fill σ tokens := by
  cases tokens with
  | nil =>
      rw [fill, List.prefix_nil]
      exact p.right_ne_nil k
  | cons token tokens =>
      apply not_right_of_opens hk
      cases token with
      | char c => exact ⟨c, fill σ tokens, rfl, h⟩
      | slot j =>
          have hj := of_decide_eq_true h
          have hopen : p.Opens keys (σ j) := by
            rcases hmixed j with hname | hval
            · rw [hname]
              exact hnames j hj
            · rw [hval]
              exact hopens j hj
          obtain ⟨c, w, hw, hfree⟩ := hopen
          refine ⟨c, w ++ fill σ tokens, ?_, hfree⟩
          rw [fill, hw, List.cons_append]

include hvalue hnames hopens hmixed in
/-- **A partly filled template is clear** of every name. Names are matched at their separators:
those of the template itself are guarded, a value has none, and the one of a name that is still
there belongs to that name. -/
theorem clear_fill {k : κ} (hk : k ∈ keys) {tokens : List (Token α κ)}
    (h : p.guarded keys opening tokens = true) : p.Clear k (fill σ tokens) := by
  induction tokens with
  | nil =>
      intro a b hab _
      cases a with
      | nil => cases hab
      | cons c a => cases hab
  | cons token tokens ih =>
      cases token with
      | char c =>
          obtain ⟨hfollows, hrest⟩ := Bool.and_eq_true_iff.mp h
          by_cases hc : c = p.separator
          · -- a separator of the template itself
            subst hc
            have hnot := not_right_of_follows hnames hopens hmixed hk
              ((Bool.or_eq_true_iff.mp hfollows).resolve_left (by simp))
            intro a b hab ha
            cases a with
            | nil =>
                rw [fill, List.nil_append, List.cons.injEq] at hab
                rw [← hab.2]
                exact Or.inr hnot
            | cons d a =>
                rw [fill, List.cons_append, List.cons.injEq] at hab
                exact absurd (hab.1 ▸ List.mem_cons_self) ha
          · have hsingle : p.separator ∉ [c] := fun hmem => hc (List.mem_singleton.mp hmem).symm
            exact (ih hrest).append hsingle
      | slot j =>
          rcases hmixed j with hname | hval
          · -- a name still there has its left half before its separator
            intro a b hab ha
            rw [fill, hname] at hab
            have hmatch : p.name j <+: a ++ p.separator :: b := ⟨_, hab⟩
            exact Or.inl ⟨j, (halves_of_match ha hmatch).1 ▸ List.suffix_refl _⟩
          · rw [fill, hval]
            exact (ih h).append (hvalue j)

include hvalue hnames hopens hmixed in
/-- **One replacement** fills in one placeholder, and does nothing else. So the filled template is
again one, with one more value in it, and the next replacement starts from there. -/
theorem replace_fill {k : κ} (hk : k ∈ keys) (hname : σ k = p.name k) {tokens : List (Token α κ)}
    (h : p.guarded keys opening tokens = true) :
    replace (p.name k) (value k) (fill σ tokens)
      = fill (Function.update σ k (value k)) tokens := by
  -- on the template: what stands behind a token is clear of the name already
  induction tokens with
  | nil => rfl
  | cons token tokens ih =>
      cases token with
      | char c =>
          have hrest := (Bool.and_eq_true_iff.mp h).2
          have hclear := clear_fill hvalue hnames hopens hmixed hk hrest
          rw [fill, fill, replace_cons (value k) hclear.no_match_char, ih hrest]
      | slot j =>
          have hrest : p.guarded keys opening tokens = true := h
          have hclear := clear_fill hvalue hnames hopens hmixed hk hrest
          rw [fill, fill, ← ih hrest]
          -- the placeholder's own place is replaced; another one holds its name or its value
          by_cases hj : j = k
          · subst hj
            rw [hname, replace_match (value j) (name_ne_nil j), Function.update_self]
          · rw [Function.update_of_ne hj]
            apply replace_append
            intro s hs hne
            rcases hmixed j with hold | hval
            · rw [hold] at hs
              exact hclear.no_match_name hj hs hne
            · rw [hval] at hs
              exact hclear.no_match (fun hmem => hvalue j (hs.subset hmem)) hne

include hvalue hnames hopens in
/-- **One replacement after the other** fills in all the placeholders. Values have no separators
in them, so what was filled in early is not taken for a placeholder later on. -/
theorem foldl_replace_fill {tokens : List (Token α κ)}
    (h : p.guarded keys opening tokens = true) :
    ∀ {rest : List κ} {σ : κ → List α}, rest.Nodup → (∀ k ∈ rest, k ∈ keys) →
      (∀ k ∈ rest, σ k = p.name k) → p.Mixed value σ →
      rest.foldl (fun text k => replace (p.name k) (value k) text) (fill σ tokens)
        = fill (fun k => if k ∈ rest then value k else σ k) tokens := by
  intro rest
  -- on the placeholders still to be filled in, whose places hold their names
  induction rest with
  | nil =>
      intro σ _ _ _ _
      rfl
  | cons k rest ih =>
      intro σ hnodup hkeys hold hmixed
      obtain ⟨hk, hnodup⟩ := List.nodup_cons.mp hnodup
      have hstep := replace_fill hvalue hnames hopens hmixed (hkeys k List.mem_cons_self)
        (hold k List.mem_cons_self) h
      have hne : ∀ j ∈ rest, j ≠ k := fun j hj heq => hk (heq ▸ hj)
      rw [List.foldl_cons, hstep, ih hnodup (fun j hj => hkeys j (List.mem_cons_of_mem k hj))]
      · -- the place of `k` is filled from now on, and the others are as before
        congr 1
        funext j
        by_cases hj : j = k
        · subst hj
          rw [if_neg hk, Function.update_self, if_pos List.mem_cons_self]
        · rw [Function.update_of_ne hj]
          simp only [List.mem_cons, hj, false_or]
      · intro j hj
        rw [Function.update_of_ne (hne j hj)]
        exact hold j (List.mem_cons_of_mem k hj)
      · intro j
        by_cases hj : j = k
        · subst hj
          exact Or.inr (Function.update_self _ _ _)
        · rw [Function.update_of_ne hj]
          exact hmixed j

include hvalue hnames hopens in
/-- **Successive replacement is simultaneous**: replacing the names one after the other gives what
one pass over the template gives. -/
theorem foldl_replace_eq_fill (hnodup : keys.Nodup) (hall : ∀ k, k ∈ keys) {text : List α}
    (h : p.guarded keys opening (parse p.name keys text) = true) :
    keys.foldl (fun text k => replace (p.name k) (value k) text) text
      = fill value (parse p.name keys text) := by
  have hrun := foldl_replace_fill hvalue hnames hopens h hnodup (fun k hk => hk)
    (fun k _ => rfl) (σ := p.name) (fun k => Or.inl rfl)
  rw [fill_parse name_ne_nil] at hrun
  rw [hrun]
  congr 1
  funext k
  exact if_pos (hall k)

end Fill

end Placeholders

/-! ## Names that begin with two characters of their own

A simpler case, for texts whose placeholders begin with two characters that occur nowhere else
in this order. Values need not be free of either character, only of the one before the other. -/

section Clear

variable {c d : α}

/-- Nowhere in a text, and not across its end, does the one character stand before the other. -/
def clear (c d : α) : List α → Bool
  | [] => true
  | [a] => decide (a ≠ c)
  | a :: b :: text => (decide (a ≠ c) || decide (b ≠ d)) && clear c d (b :: text)

theorem clear_of_notMem : ∀ {w : List α}, c ∉ w → clear c d w = true
  | [], _ => rfl
  | [a], h => decide_eq_true fun heq => h (heq ▸ List.mem_cons_self)
  | a :: b :: w, h => by
      have ha : a ≠ c := fun heq => h (heq ▸ List.mem_cons_self)
      rw [clear, decide_eq_true ha, Bool.true_or, Bool.true_and]
      exact clear_of_notMem fun hmem => h (List.mem_cons_of_mem a hmem)

theorem clear_append {w' : List α} (h' : clear c d w' = true) :
    ∀ {w : List α}, clear c d w = true → clear c d (w ++ w') = true
  | [], _ => h'
  | [a], h => by
      cases w' with
      | nil => exact h
      | cons b w' =>
          have ha : a ≠ c := of_decide_eq_true h
          rw [List.cons_append, List.nil_append, clear, decide_eq_true ha, Bool.true_or,
            Bool.true_and]
          exact h'
  | a :: b :: w, h => by
      rw [clear, Bool.and_eq_true] at h
      rw [List.cons_append, List.cons_append, clear, h.1, Bool.true_and]
      exact clear_append h' h.2

/-- No match begins in such a text. -/
theorem replace_clear {name value rest : List α} : ∀ {w : List α}, clear c d w = true →
    replace (c :: d :: name) value (w ++ rest) = w ++ replace (c :: d :: name) value rest
  | [], _ => rfl
  | [a], h => by
      have ha : a ≠ c := of_decide_eq_true h
      have hmatch : ¬ c :: d :: name <+: a :: rest := by
        rw [List.cons_prefix_cons]
        exact fun h => ha h.1.symm
      exact replace_cons value hmatch
  -- two characters in a row are enough to see that nothing matches
  | a :: b :: w, h => by
      rw [clear, Bool.and_eq_true, Bool.or_eq_true, decide_eq_true_iff, decide_eq_true_iff] at h
      have hmatch : ¬ c :: d :: name <+: a :: (b :: w ++ rest) := by
        rw [List.cons_append, List.cons_prefix_cons, List.cons_prefix_cons]
        rintro ⟨hac, hbd, -⟩
        rcases h.1 with ha | hb
        · exact ha hac.symm
        · exact hb hbd.symm
      rw [List.cons_append, replace_cons value hmatch, replace_clear h.2]
      rfl

/-- **A placeholder with clear surroundings** is replaced, and nothing else. It is enough to look
for the first two characters of the name, and there are few places where these stand. -/
theorem replace_between {name value front back : List α} (hfront : clear c d front = true)
    (hback : clear c d back = true) :
    replace (c :: d :: name) value (front ++ (c :: d :: name ++ back))
      = front ++ (value ++ back) := by
  have hrest : replace (c :: d :: name) value back = back := by
    have happend : replace (c :: d :: name) value (back ++ [])
        = back ++ replace (c :: d :: name) value [] := replace_clear hback
    rw [List.append_nil] at happend
    rw [happend]
    exact List.append_nil back
  rw [replace_clear hfront, replace_match value (List.cons_ne_nil _ _), hrest]

end Clear

end Xrc.Template
