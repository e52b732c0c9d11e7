/-
Texts with tags, and what a reader finds in their tables.

`reading` cuts a text into tags and characters and collects, from its end, the cells between `td`
and `/td`, and the rows of cells between `tr` and `/tr`; `br/` ends a line of a cell. What a text
adds to the reading of what follows it is said by `Content`, `Cells` and `Rows`, which compose;
`Rows.read` is what is read in the end.
-/
import Mathlib.Data.List.Basic
import Mathlib.Tactic.Common

set_option autoImplicit false

namespace Xrc.Markup

/-- A text. -/
abbrev Text : Type := List Char

/-- A piece of a text. -/
inductive Piece where
  | tag (name : Text)
  | char (c : Char)
  deriving DecidableEq, Repr

/-- The pieces of a text, in a tag if some of it has been read. A tag that does not end is none. -/
def scan : Option Text → Text → List Piece
  | _, [] => []
  | none, c :: text => if c = '<' then scan (some []) text else .char c :: scan none text
  | some t, c :: text => if c = '>' then .tag t :: scan none text else scan (some (t ++ [c])) text

/-- What stands from some place on: the rest of a cell, the cells of a row, and the rows. -/
structure Reading where
  text : Text
  cells : List Text
  rows : List (List Text)
  deriving DecidableEq, Repr

/-- One piece more. A tag may have attributes. -/
def step (piece : Piece) (r : Reading) : Reading :=
  match piece with
  | .char c => { r with text := c :: r.text }
  | .tag t =>
    match t.takeWhile fun c => c ≠ ' ' with
    | ['/', 't', 'd'] => { r with text := [] }
    | ['b', 'r', '/'] => { r with text := '\n' :: r.text }
    | ['t', 'd'] => { r with text := [], cells := r.text :: r.cells }
    | ['/', 't', 'r'] => { r with cells := [] }
    | ['t', 'r'] => { r with cells := [], rows := r.cells :: r.rows }
    | _ => r

/-- All of a text. -/
def reading (text : Text) : Reading := (scan none text).foldr step ⟨[], [], []⟩

/-- The rows of a text. -/
def read (text : Text) : List (List Text) := (reading text).rows

/-! ## One piece

A text is scanned into tags and characters, and read from its end. What a piece does to the
reading of the rest is one step, so a text is read part by part as long as its tags are closed. -/

/-- A tag. -/
def tag (name : Text) : Text := '<' :: name ++ ['>']

theorem scan_tag {t : Text} (h : '>' ∉ t) (rest : Text) :
    ∀ before, scan (some before) (t ++ '>' :: rest) = .tag (before ++ t) :: scan none rest := by
  induction t with
  | nil =>
      intro before
      rw [List.nil_append, scan, if_pos rfl, List.append_nil]
  | cons c t ih =>
      intro before
      rw [List.mem_cons, not_or] at h
      rw [List.cons_append, scan, if_neg (Ne.symm h.1), ih h.2, List.append_assoc]
      rfl

theorem reading_tag {t : Text} (h : '>' ∉ t) (rest : Text) :
    reading (tag t ++ rest) = step (.tag t) (reading rest) := by
  unfold reading
  rw [tag, List.append_assoc, List.cons_append, List.cons_append, List.nil_append, scan,
    if_pos rfl, scan_tag h]
  rfl

/-- Characters outside of tags. -/
theorem reading_plain {w : Text} (h : '<' ∉ w) (rest : Text) :
    reading (w ++ rest) = { reading rest with text := w ++ (reading rest).text } := by
  induction w with
  | nil => rfl
  | cons c w ih =>
      rw [List.mem_cons, not_or] at h
      have hscan : scan none (c :: w ++ rest) = .char c :: scan none (w ++ rest) := by
        rw [List.cons_append, scan, if_neg (Ne.symm h.1)]
      unfold reading at ih ⊢
      rw [hscan, List.foldr_cons, ih h.2]
      rfl

/-- A piece that neither begins a row or a cell nor ends a row. -/
def Piece.bare : Piece → Bool
  | .char _ => true
  | .tag t =>
    match t.takeWhile fun c => c ≠ ' ' with
    | ['t', 'd'] | ['/', 't', 'r'] | ['t', 'r'] => false
    | _ => true

theorem step_bare {piece : Piece} (h : piece.bare = true) (r : Reading) :
    (step piece r).cells = r.cells ∧ (step piece r).rows = r.rows := by
  unfold Piece.bare at h
  unfold step
  split at h
  · exact ⟨rfl, rfl⟩
  · split at h
    · cases h
    · cases h
    · cases h
    · -- a tag of another name is not one that a step looks for
      rename_i htd hclose htr
      split
      · exact ⟨rfl, rfl⟩
      · exact ⟨rfl, rfl⟩
      · rename_i hname
        exact absurd hname htd
      · rename_i hname
        exact absurd hname hclose
      · rename_i hname
        exact absurd hname htr
      · exact ⟨rfl, rfl⟩

/-- Whether the tags of a text end. -/
def closed : Bool → Text → Bool
  | inside, [] => !inside
  | false, c :: text => closed (decide (c = '<')) text
  | true, c :: text => closed (decide (c ≠ '>')) text

/-- Behind a text whose tags end the scan starts afresh. So a text can be read in pieces, as long
as no piece ends within a tag. -/
theorem scan_append (rest : Text) : ∀ {text : Text} {b : Option Text},
    closed b.isSome text = true →
      scan b (text ++ rest) = scan b text ++ scan none rest
  | [], none, _ => rfl
  | [], some _, h => by
      cases h
  | c :: text, none, h => by
      rw [List.cons_append, scan, scan]
      by_cases hc : c = '<'
      · -- a tag that is opened in the text is closed in it, so what follows is scanned outside of
        -- one
        rw [if_pos hc, if_pos hc]
        exact scan_append rest (by simpa [closed, hc] using h)
      · rw [if_neg hc, if_neg hc, List.cons_append,
          scan_append rest (by simpa [closed, hc] using h)]
  | c :: text, some t, h => by
      rw [List.cons_append, scan, scan]
      by_cases hc : c = '>'
      · rw [if_pos hc, if_pos hc, List.cons_append,
          scan_append rest (by simpa [closed, hc] using h)]
      · rw [if_neg hc, if_neg hc]
        exact scan_append rest (by simpa [closed, hc] using h)

/-! ## What a text adds

Three kinds of text: one that adds to a cell, one that adds cells to a row, and one that adds
rows. Each says what becomes of the reading of any rest, so texts of one kind compose by
concatenation. -/

/-- A text adds `w` to a cell. That it does so in front of any text is what lets pieces be put
together. -/
def Content (text w : Text) : Prop :=
  ∀ rest, reading (text ++ rest) = { reading rest with text := w ++ (reading rest).text }

/-- A text adds cells to a row. Rows that follow are left as they are, so cells may be collected
before their row ends. -/
def Cells (text : Text) (cells : List Text) : Prop :=
  ∀ rest, (reading (text ++ rest)).cells = cells ++ (reading rest).cells
    ∧ (reading (text ++ rest)).rows = (reading rest).rows

/-- A text adds rows. -/
def Rows (text : Text) (rows : List (List Text)) : Prop :=
  ∀ rest, (reading (text ++ rest)).rows = rows ++ (reading rest).rows

section Adds

variable {text text' w w' : Text} {cells cells' : List Text} {rows rows' : List (List Text)}

theorem Content.plain (h : '<' ∉ w) : Content w w := reading_plain h

/-- A line ends. -/
theorem Content.br : Content (tag ['b', 'r', '/']) ['\n'] := reading_tag (by decide)

theorem Content.append (h : Content text w) (h' : Content text' w') :
    Content (text ++ text') (w ++ w') := by
  intro rest
  rw [List.append_assoc, h, h', List.append_assoc]

/-- Two lines, each of two parts. -/
theorem Content.lines {first first' second second' : Text} (h : '<' ∉ first ++ first')
    (h' : '<' ∉ second ++ second') :
    Content (first ++ first' ++ (tag ['b', 'r', '/'] ++ second) ++ second')
      (first ++ first' ++ '\n' :: second ++ second') := by
  have hlines := ((Content.plain h).append Content.br).append (Content.plain h')
  simpa only [List.append_assoc, List.cons_append, List.nil_append] using hlines

/-- A cell, with its attributes. -/
theorem Cells.cell {a : Text} (h : Content text w)
    (hname : (a.takeWhile fun c => c ≠ ' ') = ['t', 'd']) (hattributes : '>' ∉ a) :
    Cells (tag a ++ text ++ tag ['/', 't', 'd']) [w] := by
  intro rest
  have hopen : ∀ r, step (.tag a) r
      = { r with text := [], cells := r.text :: r.cells } := by
    intro r
    unfold step
    dsimp only
    rw [hname]
    rfl
  have hclose : reading (tag ['/', 't', 'd'] ++ rest) = { reading rest with text := [] } :=
    reading_tag (by decide) rest
  rw [List.append_assoc, List.append_assoc, reading_tag hattributes, hopen, h, hclose]
  exact ⟨by rw [List.append_nil]; rfl, rfl⟩

/-- A text without rows and cells, which is checked. -/
theorem Cells.bare (hclosed : closed false text = true)
    (hbare : ((scan none text).all Piece.bare) = true) : Cells text [] := by
  have hpieces : ∀ {pieces : List Piece}, pieces.all Piece.bare = true → ∀ r,
      (pieces.foldr step r).cells = r.cells ∧ (pieces.foldr step r).rows = r.rows := by
    intro pieces hall r
    induction pieces with
    | nil => exact ⟨rfl, rfl⟩
    | cons piece pieces ih =>
        rw [List.all_cons, Bool.and_eq_true] at hall
        rw [List.foldr_cons, (step_bare hall.1 _).1, (step_bare hall.1 _).2]
        exact ih hall.2
  intro rest
  have hscan : scan none (text ++ rest) = scan none text ++ scan none rest :=
    scan_append rest (b := none) hclosed
  rw [reading, hscan, List.foldr_append]
  exact hpieces hbare _

theorem Cells.append (h : Cells text cells) (h' : Cells text' cells') :
    Cells (text ++ text') (cells ++ cells') := by
  intro rest
  rw [List.append_assoc, (h _).1, (h _).2, (h' _).1, (h' _).2, List.append_assoc]
  exact ⟨rfl, rfl⟩

/-- Cells outside of rows are none. -/
theorem Cells.no_rows (h : Cells text cells) : Rows text [] := fun rest => (h rest).2

theorem Rows.plain (h : '<' ∉ w) : Rows w [] := by
  intro rest
  rw [reading_plain h]
  rfl

/-- A row. -/
theorem Rows.row (h : Cells text cells) :
    Rows (tag ['t', 'r'] ++ text ++ tag ['/', 't', 'r']) [cells] := by
  intro rest
  have hopen : reading (tag ['t', 'r'] ++ (text ++ (tag ['/', 't', 'r'] ++ rest)))
      = step (.tag ['t', 'r']) (reading (text ++ (tag ['/', 't', 'r'] ++ rest))) :=
    reading_tag (by decide) _
  have hclose : reading (tag ['/', 't', 'r'] ++ rest) = { reading rest with cells := [] } :=
    reading_tag (by decide) rest
  rw [List.append_assoc, List.append_assoc, hopen]
  show _ :: _ = _
  rw [(h _).1, (h _).2, hclose, List.append_nil]
  rfl

theorem Rows.append (h : Rows text rows) (h' : Rows text' rows') :
    Rows (text ++ text') (rows ++ rows') := by
  intro rest
  rw [List.append_assoc, h, h', List.append_assoc]

/-- Rows with plain text between them. -/
theorem Rows.intercalate {separator : Text} (hseparator : '<' ∉ separator) :
    ∀ {texts : List Text} {rows : List (List Text)},
      List.Forall₂ (fun text row => Rows text [row]) texts rows →
        Rows (separator.intercalate texts) rows
  | [], [], .nil => fun _ => rfl
  | [text], [row], .cons h .nil => by
      intro rest
      simpa using h rest
  | text :: text' :: texts, row :: row' :: rows, .cons h hrest => by
      have hall := (h.append (Rows.plain hseparator)).append
        (Rows.intercalate hseparator hrest)
      simpa using hall

theorem Rows.read (h : Rows text rows) : Markup.read text = rows := by
  have hall := h []
  rw [List.append_nil] at hall
  rw [Markup.read, hall]
  exact List.append_nil rows

end Adds

end Xrc.Markup
