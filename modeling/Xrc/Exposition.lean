/-
The text format metrics are scraped in: families of series, each family under one header of
two lines, each series one line with its labels, its value and a time stamp. Label values are
any texts; their quotes, backslashes and line ends are escaped.

`write` is the format, `read` one reader of it: it cuts the text into lines, reads each line,
and collects the series under the header they follow, turning away a second header of the same
name. `read_write` is the round trip.
-/
import Mathlib.Data.List.Basic
import Mathlib.Tactic.Common

set_option autoImplicit false

namespace Xrc.Exposition

/-- A text. -/
abbrev Text : Type := List Char

/-- One series of a metric. -/
structure Series where
  labels : List (Text × Text)
  value : Text
  stamp : Text
  deriving DecidableEq, Repr

/-- A metric with all its series. -/
structure Family where
  name : Text
  help : Text
  typ : Text
  series : List Series
  deriving DecidableEq, Repr

/-! ## Writing

A line ends with its line end and nowhere else, and the fields of a line are told apart by
spaces, braces, commas and quotes. Only the label values may hold any of these, which is why
they are quoted and escaped. -/

/-- One character of a label value. -/
def escape_char (c : Char) : Text :=
  if c = '\\' then ['\\', '\\']
  else if c = '\n' then ['\\', 'n']
  else if c = '"' then ['\\', '"']
  else [c]

/-- A label value. -/
def escape (value : Text) : Text := value.flatMap escape_char

/-- A label. -/
def write_pair (pair : Text × Text) : Text := pair.1 ++ '=' :: '"' :: escape pair.2 ++ ['"']

/-- The labels, separated by commas. -/
def write_pairs : List (Text × Text) → Text
  | [] => []
  | pair :: pairs => write_pair pair ++ pairs.flatMap fun pair => ',' :: write_pair pair

/-- The labels of a series, in braces unless there are none. -/
def write_labels (labels : List (Text × Text)) : Text :=
  match labels with
  | [] => []
  | labels => '{' :: write_pairs labels ++ ['}']

/-- The line of a series. -/
def write_series (name : Text) (series : Series) : Text :=
  name ++ write_labels series.labels ++ ' ' :: series.value ++ ' ' :: series.stamp

def HELP : Text := ['#', ' ', 'H', 'E', 'L', 'P', ' ']
def TYPE : Text := ['#', ' ', 'T', 'Y', 'P', 'E', ' ']

/-- The two lines of a header. -/
def write_header (name help typ : Text) : List Text :=
  [HELP ++ name ++ ' ' :: help, TYPE ++ name ++ ' ' :: typ]

/-- The lines of a family. -/
def write_family (family : Family) : List Text :=
  write_header family.name family.help family.typ
    ++ family.series.map (write_series family.name)

/-- The lines of a text, each of them ended. -/
def unlines (lines : List Text) : Text := lines.flatMap fun line => line ++ ['\n']

/-- A whole text. -/
def write (families : List Family) : Text := unlines (families.flatMap write_family)

/-! ## Reading

The reader is written independently of the writer. It goes through the labels as a small machine
with five modes, since a quote or a brace ends something only outside a value. -/

/-- The text up to a character that stops it, and the rest from there on. -/
def upto (stop : Char → Bool) : Text → Text × Text
  | [] => ([], [])
  | c :: text => if stop c then ([], c :: text) else ((c :: (upto stop text).1), (upto stop text).2)

/-- Where a reader of labels is. -/
inductive Mode where
  /-- In a key. -/
  | key (key : Text)
  /-- Before the opening quote. -/
  | quote (key : Text)
  /-- In a value. -/
  | text (key value : Text)
  /-- After a backslash. -/
  | escape (key value : Text)
  /-- After the closing quote. -/
  | next (key value : Text)

/-- The labels up to the closing brace, and the rest behind it. -/
def read_pairs : Mode → Text → Option (List (Text × Text) × Text)
  | _, [] => none
  | .key k, c :: rest =>
    if c = '=' then read_pairs (.quote k) rest else read_pairs (.key (k ++ [c])) rest
  | .quote k, c :: rest => if c = '"' then read_pairs (.text k []) rest else none
  | .text k v, c :: rest =>
    if c = '"' then read_pairs (.next k v) rest
    else if c = '\\' then read_pairs (.escape k v) rest
    else read_pairs (.text k (v ++ [c])) rest
  | .escape k v, c :: rest =>
    if c = 'n' then read_pairs (.text k (v ++ ['\n'])) rest
    else if c = '\\' ∨ c = '"' then read_pairs (.text k (v ++ [c])) rest
    else none
  | .next k v, c :: rest =>
    if c = ',' then (read_pairs (.key []) rest).map fun read => ((k, v) :: read.1, read.2)
    else if c = '}' then some ([(k, v)], rest)
    else none

/-- A line. -/
inductive Line where
  | help (name text : Text)
  | type (name text : Text)
  | series (name : Text) (series : Series)

/-- The value and the time stamp behind the labels of a series. -/
def read_value (name : Text) (labels : List (Text × Text)) (text : Text) : Option Line :=
  match text with
  | ' ' :: rest =>
    match upto (fun c => c == ' ') rest with
    | (value, ' ' :: stamp) => some (.series name ⟨labels, value, stamp⟩)
    | _ => none
  | _ => none

/-- The line of a series. -/
def read_series (line : Text) : Option Line :=
  match upto (fun c => c == ' ' || c == '{') line with
  | (name, '{' :: rest) => (read_pairs (.key []) rest).bind fun read => read_value name read.1 read.2
  | (name, rest) => read_value name [] rest

/-- A line of a header: the name and what stands behind it. -/
def read_comment (text : Text) : Option (Text × Text) :=
  match upto (fun c => c == ' ') text with
  | (name, _ :: rest) => some (name, rest)
  | _ => none

def read_line (line : Text) : Option Line :=
  if HELP.isPrefixOf line then
    (read_comment (line.drop HELP.length)).map fun read => .help read.1 read.2
  else if TYPE.isPrefixOf line then
    (read_comment (line.drop TYPE.length)).map fun read => .type read.1 read.2
  else read_series line

/-- The lines of a text; what is behind the last line end counts as a line unless it is
empty. -/
def lines : Text → List Text
  | [] => []
  | c :: text =>
    if c = '\n' then [] :: lines text
    else
      match lines text with
      | [] => [[c]]
      | line :: rest => (c :: line) :: rest

/-- The families of the lines, with the series that precede the first header. -/
def collect : List Line → Option (List (Text × Series) × List Family)
  | [] => some ([], [])
  | .series name series :: rest =>
    (collect rest).map fun collected => ((name, series) :: collected.1, collected.2)
  | .help name text :: .type name' typ :: rest =>
    (collect rest).bind fun collected =>
      if name = name' ∧ (∀ series ∈ collected.1, series.1 = name)
          ∧ ∀ family ∈ collected.2, family.name ≠ name then
        some ([], ⟨name, text, typ, collected.1.map Prod.snd⟩ :: collected.2)
      else none
  | _ => none

/-- A whole text. -/
def read (text : Text) : Option (List Family) :=
  ((lines text).mapM read_line).bind fun lines =>
    (collect lines).bind fun collected =>
      if collected.1 = [] then some collected.2 else none

/-! ## Pieces of a line read back

An escaped character leaves the reader in the mode it was in, with the character added to the
value. The induction over a value, and then over the labels, follows from that. -/

theorem upto_append {stop : Char → Bool} {w : Text} (h : ∀ c ∈ w, stop c = false) {c : Char}
    (hc : stop c = true) (rest : Text) : upto stop (w ++ c :: rest) = (w, c :: rest) := by
  induction w with
  | nil => rw [List.nil_append, upto, if_pos hc]
  | cons first w ih =>
      rw [List.cons_append, upto, h first List.mem_cons_self, if_neg Bool.false_ne_true,
        ih fun c hc => h c (List.mem_cons_of_mem _ hc)]

/-- An escaped character reads back, whatever it is. Three characters are escaped, by a backslash
and one more character, and the reader is back in the value after them. -/
theorem read_escape_char (k v : Text) (c : Char) (rest : Text) :
    read_pairs (.text k v) (escape_char c ++ rest) = read_pairs (.text k (v ++ [c])) rest := by
  unfold escape_char
  split
  · rename_i hc
    subst hc
    rfl
  split
  · rename_i hc
    subst hc
    rfl
  split
  · rename_i hc
    subst hc
    rfl
  · rename_i hslash _ hquote
    rw [List.singleton_append, read_pairs, if_neg hquote, if_neg hslash]

/-- An escaped value reads back up to the quote that closes it. -/
theorem read_escape (k w rest : Text) :
    ∀ v, read_pairs (.text k v) (escape w ++ '"' :: rest) = read_pairs (.next k (v ++ w)) rest := by
  induction w with
  | nil =>
      intro v
      rw [List.append_nil]
      rfl
  | cons c w ih =>
      intro v
      rw [escape, List.flatMap_cons, List.append_assoc, read_escape_char, ← escape, ih,
        List.append_assoc, List.singleton_append]

theorem read_key {w : Text} (h : '=' ∉ w) (rest : Text) :
    ∀ k, read_pairs (.key k) (w ++ '=' :: rest) = read_pairs (.quote (k ++ w)) rest := by
  induction w with
  | nil =>
      intro k
      rw [List.nil_append, List.append_nil, read_pairs, if_pos rfl]
  | cons c w ih =>
      intro k
      have hc : c ≠ '=' := fun heq => h (heq ▸ List.mem_cons_self)
      rw [List.cons_append, read_pairs, if_neg hc,
        ih fun hmem => h (List.mem_cons_of_mem _ hmem), List.append_assoc, List.singleton_append]

theorem read_write_pair {pair : Text × Text} (h : '=' ∉ pair.1) (rest : Text) :
    read_pairs (.key []) (write_pair pair ++ rest) = read_pairs (.next pair.1 pair.2) rest := by
  have hwrite : write_pair pair ++ rest
      = pair.1 ++ '=' :: '"' :: (escape pair.2 ++ '"' :: rest) := by
    simp only [write_pair, List.append_assoc, List.cons_append, List.nil_append]
  rw [hwrite, read_key h, List.nil_append, read_pairs, if_pos rfl, read_escape, List.nil_append]

/-- The labels of a series read back, up to the closing brace. The reader is a machine with a few
modes, and a pair takes it from one key to the next. -/
theorem read_write_pairs (pairs : List (Text × Text)) (rest : Text) :
    ∀ pair : Text × Text, '=' ∉ pair.1 → (∀ p ∈ pairs, '=' ∉ p.1) →
      read_pairs (.key []) (write_pairs (pair :: pairs) ++ '}' :: rest)
        = some (pair :: pairs, rest) := by
  induction pairs with
  | nil =>
      intro pair hpair _
      rw [write_pairs, List.flatMap_nil, List.append_nil, read_write_pair hpair]
      rfl
  | cons second pairs ih =>
      intro pair hpair hpairs
      have hsecond := ih second (hpairs second List.mem_cons_self)
        fun p hp => hpairs p (List.mem_cons_of_mem _ hp)
      have hwrite : write_pairs (pair :: second :: pairs)
          = write_pair pair ++ ',' :: write_pairs (second :: pairs) := rfl
      rw [hwrite, List.append_assoc, read_write_pair hpair, List.cons_append, read_pairs,
        if_pos rfl, hsecond]
      rfl

/-! ## Lines read back

What stands outside the quotes must hold no separator. This is what is asked of names, keys,
values and time stamps here, and the writer's side has to show it. -/

/-- A series whose keys, value and time stamp hold no separators. Its label values may hold
anything. -/
structure Series.WellFormed (series : Series) : Prop where
  labels : ∀ pair ∈ series.labels, '=' ∉ pair.1 ∧ '\n' ∉ pair.1
  value : ' ' ∉ series.value ∧ '\n' ∉ series.value
  stamp : '\n' ∉ series.stamp

/-- What may stand in the name of a metric. A line starts with a name, so it must be possible to
tell where it ends, and whether the line is a comment. -/
structure WellNamed (name : Text) : Prop where
  space : ' ' ∉ name
  brace : '{' ∉ name
  newline : '\n' ∉ name
  comment : '#' ∉ name

/-- A family with a usable name whose other texts are lines, and whose series are
well-formed. -/
structure Family.WellFormed (family : Family) : Prop where
  name : WellNamed family.name
  help : '\n' ∉ family.help
  typ : '\n' ∉ family.typ
  series : ∀ series ∈ family.series, series.WellFormed

theorem read_comment_append {name : Text} (h : ' ' ∉ name) (rest : Text) :
    read_comment (name ++ ' ' :: rest) = some (name, rest) := by
  have hspace : ∀ c ∈ name, (c == ' ') = false := by
    intro c hc
    rw [beq_eq_false_iff_ne]
    exact fun heq => h (heq ▸ hc)
  rw [read_comment, upto_append hspace rfl]

theorem read_line_help {name : Text} (h : WellNamed name) (help : Text) :
    read_line (HELP ++ name ++ ' ' :: help) = some (.help name help) := by
  have hprefix : HELP.isPrefixOf (HELP ++ name ++ ' ' :: help) = true := by
    rw [List.append_assoc]
    exact List.isPrefixOf_iff_prefix.mpr (List.prefix_append _ _)
  rw [read_line, if_pos hprefix, List.append_assoc, List.drop_left, read_comment_append h.space]
  rfl

theorem read_line_type {name : Text} (h : WellNamed name) (typ : Text) :
    read_line (TYPE ++ name ++ ' ' :: typ) = some (.type name typ) := by
  have hhelp : ¬ HELP.isPrefixOf (TYPE ++ name ++ ' ' :: typ) = true := by
    rw [List.append_assoc]
    exact Bool.false_ne_true
  have hprefix : TYPE.isPrefixOf (TYPE ++ name ++ ' ' :: typ) = true := by
    rw [List.append_assoc]
    exact List.isPrefixOf_iff_prefix.mpr (List.prefix_append _ _)
  rw [read_line, if_neg hhelp, if_pos hprefix, List.append_assoc, List.drop_left,
    read_comment_append h.space]
  rfl

theorem read_value_append {series : Series} (h : series.WellFormed) (name : Text) :
    read_value name series.labels (' ' :: series.value ++ ' ' :: series.stamp)
      = some (.series name series) := by
  have hspace : ∀ c ∈ series.value, (c == ' ') = false := by
    intro c hc
    rw [beq_eq_false_iff_ne]
    exact fun heq => h.value.1 (heq ▸ hc)
  rw [List.cons_append, read_value, upto_append hspace rfl]
  rfl

/-- The name of a series ends at its labels or its value. -/
theorem upto_name {name : Text} (h : WellNamed name) {c : Char} (hc : c = ' ' ∨ c = '{')
    (rest : Text) :
    upto (fun c => c == ' ' || c == '{') (name ++ c :: rest) = (name, c :: rest) := by
  apply upto_append
  · intro c hmem
    rw [Bool.or_eq_false_iff, beq_eq_false_iff_ne, beq_eq_false_iff_ne]
    exact ⟨fun heq => h.space (heq ▸ hmem), fun heq => h.brace (heq ▸ hmem)⟩
  · rcases hc with rfl | rfl
    · rfl
    · rfl

theorem read_write_series {name : Text} (hname : WellNamed name) {series : Series}
    (h : series.WellFormed) : read_series (write_series name series) = some (.series name series) := by
  have hvalue := read_value_append h name
  obtain ⟨labels, value, stamp⟩ := series
  -- without labels there are no braces, and the name ends at a space
  cases labels with
  | nil =>
      have hwrite : write_series name ⟨[], value, stamp⟩
          = name ++ ' ' :: (value ++ ' ' :: stamp) := by
        simp only [write_series, write_labels, List.append_nil, List.append_assoc,
          List.cons_append]
      rw [hwrite, read_series, upto_name hname (.inl rfl)]
      exact hvalue
  | cons pair pairs =>
      have hwrite : write_series name ⟨pair :: pairs, value, stamp⟩
          = name ++ '{' :: (write_pairs (pair :: pairs)
            ++ '}' :: (' ' :: value ++ ' ' :: stamp)) := by
        simp only [write_series, write_labels, List.append_assoc, List.cons_append,
          List.nil_append]
      have hpairs := read_write_pairs pairs (' ' :: value ++ ' ' :: stamp) pair
        (h.labels pair List.mem_cons_self).1
        fun p hp => (h.labels p (List.mem_cons_of_mem _ hp)).1
      have hread : read_series (name ++ '{' :: (write_pairs (pair :: pairs)
            ++ '}' :: (' ' :: value ++ ' ' :: stamp)))
          = (read_pairs (.key []) (write_pairs (pair :: pairs)
            ++ '}' :: (' ' :: value ++ ' ' :: stamp))).bind
              fun read => read_value name read.1 read.2 := by
        rw [read_series, upto_name hname (.inr rfl)]
        rfl
      rw [hwrite, hread, hpairs]
      exact hvalue

/-- The line of a series is not one of a header. Its name has no character of a comment, and so
the line does not start like one. -/
theorem read_line_series {name : Text} (hname : WellNamed name) {series : Series}
    (h : series.WellFormed) : read_line (write_series name series) = some (.series name series) := by
  -- even with an empty name the line would not begin like a comment
  have hfirst : ∃ c rest, write_series name series = c :: rest ∧ c ≠ '#' := by
    cases name with
    | cons c name =>
        exact ⟨c, _, rfl, fun heq => hname.comment (heq ▸ List.mem_cons_self)⟩
    | nil =>
        obtain ⟨labels, value, stamp⟩ := series
        cases labels with
        | nil => exact ⟨' ', _, rfl, by decide⟩
        | cons pair pairs => exact ⟨'{', _, rfl, by decide⟩
  obtain ⟨c, rest, heq, hc⟩ := hfirst
  have hcomment : ∀ w : Text, ¬ ('#' :: w).isPrefixOf (c :: rest) = true := by
    intro w
    rw [List.isPrefixOf_cons_cons, Bool.and_eq_true, beq_iff_eq]
    exact fun hprefix => hc hprefix.1.symm
  have hhelp : ¬ HELP.isPrefixOf (c :: rest) = true := hcomment _
  have htype : ¬ TYPE.isPrefixOf (c :: rest) = true := hcomment _
  have hread := read_write_series hname h
  rw [heq] at hread ⊢
  rw [read_line, if_neg hhelp, if_neg htype, hread]

/-! ## Line ends

The text is cut into lines before any line is read, so no line may hold a line end. A label
value could; its escape does not. -/

theorem newline_notMem_escape_char (c : Char) : '\n' ∉ escape_char c := by
  unfold escape_char
  split
  · decide
  split
  · decide
  split
  · decide
  · rename_i hnewline _
    rw [List.mem_singleton]
    exact fun heq => hnewline heq.symm

/-- **No label value ends its line.** The encoder writes a line break in a value as two
characters, so a reader may split the text into lines before it looks at any of them. -/
theorem newline_notMem_escape (value : Text) : '\n' ∉ escape value := by
  rw [escape, List.mem_flatMap]
  rintro ⟨c, -, hc⟩
  exact newline_notMem_escape_char c hc

theorem newline_notMem_write_pair {pair : Text × Text} (h : '\n' ∉ pair.1) :
    '\n' ∉ write_pair pair := by
  simp [write_pair, h, newline_notMem_escape]

theorem newline_notMem_write_labels {labels : List (Text × Text)}
    (h : ∀ pair ∈ labels, '\n' ∉ pair.1) : '\n' ∉ write_labels labels := by
  cases labels with
  | nil => exact List.not_mem_nil
  | cons pair pairs =>
      have hpair := newline_notMem_write_pair (h pair List.mem_cons_self)
      have hpairs : ∀ p ∈ pairs, '\n' ∉ write_pair p := fun p hp =>
        newline_notMem_write_pair (h p (List.mem_cons_of_mem _ hp))
      simp only [write_labels, write_pairs, List.mem_append, List.mem_cons, List.mem_flatMap,
        List.not_mem_nil, or_false, not_or, not_exists, not_and]
      exact ⟨⟨by decide, hpair, fun p hp => ⟨by decide, hpairs p hp⟩⟩, by decide⟩

theorem newline_notMem_write_series {name : Text} (hname : WellNamed name) {series : Series}
    (h : series.WellFormed) : '\n' ∉ write_series name series := by
  have hlabels := newline_notMem_write_labels fun pair hpair => (h.labels pair hpair).2
  simp [write_series, hname.newline, hlabels, h.value.2, h.stamp]

theorem newline_notMem_write_family {family : Family} (h : family.WellFormed) :
    ∀ line ∈ write_family family, '\n' ∉ line := by
  intro line hline
  rw [write_family, write_header, List.mem_append, List.mem_cons, List.mem_singleton,
    List.mem_map] at hline
  rcases hline with (rfl | rfl) | ⟨series, hseries, rfl⟩
  · simp [HELP, h.name.newline, h.help]
  · simp [TYPE, h.name.newline, h.typ]
  · exact newline_notMem_write_series h.name (h.series series hseries)

theorem lines_append {line : Text} (h : '\n' ∉ line) (rest : Text) :
    lines (line ++ '\n' :: rest) = line :: lines rest := by
  induction line with
  | nil => rw [List.nil_append, lines, if_pos rfl]
  | cons c line ih =>
      have hc : c ≠ '\n' := fun heq => h (heq ▸ List.mem_cons_self)
      rw [List.cons_append, lines, if_neg hc, ih fun hmem => h (List.mem_cons_of_mem _ hmem)]

theorem lines_unlines {ls : List Text} (h : ∀ line ∈ ls, '\n' ∉ line) :
    lines (unlines ls) = ls := by
  induction ls with
  | nil => rfl
  | cons line ls ih =>
      rw [unlines, List.flatMap_cons, List.append_assoc, List.singleton_append,
        lines_append (h line List.mem_cons_self), ← unlines,
        ih fun l hl => h l (List.mem_cons_of_mem _ hl)]

/-! ## The round trip

Each line is read back by itself, and what is left is to collect series under their headers.
This needs the names of the families to be distinct, as a reader turns away a second header of
the same name. -/

/-- The lines of a family, read. -/
def Family.lines (family : Family) : List Line :=
  .help family.name family.help :: .type family.name family.typ
    :: family.series.map (Line.series family.name)

theorem mapM_read_line_family {family : Family} (h : family.WellFormed) :
    (write_family family).mapM read_line = some family.lines := by
  have hseries : ∀ series : List Series, (∀ s ∈ series, s.WellFormed) →
      (series.map (write_series family.name)).mapM read_line
        = some (series.map (Line.series family.name)) := by
    intro series
    induction series with
    | nil => exact fun _ => rfl
    | cons first series ih =>
        intro hall
        rw [List.map_cons, List.mapM_cons, read_line_series h.name (hall first List.mem_cons_self),
          ih fun s hs => hall s (List.mem_cons_of_mem _ hs)]
        rfl
  rw [write_family, write_header, List.mapM_append, List.mapM_cons, List.mapM_cons,
    read_line_help h.name, read_line_type h.name, hseries _ h.series]
  rfl

theorem mapM_read_line_families {families : List Family} (h : ∀ f ∈ families, f.WellFormed) :
    (families.flatMap write_family).mapM read_line = some (families.flatMap Family.lines) := by
  induction families with
  | nil => rfl
  | cons family families ih =>
      rw [List.flatMap_cons, List.mapM_append, mapM_read_line_family (h family List.mem_cons_self),
        ih fun f hf => h f (List.mem_cons_of_mem _ hf)]
      rfl

/-- Series go to the header before them. -/
theorem collect_series (name : Text) {rest : List Line} {families : List Family}
    (h : collect rest = some ([], families)) (series : List Series) :
    collect (series.map (Line.series name) ++ rest)
      = some (series.map fun s => (name, s), families) := by
  induction series with
  | nil => exact h
  | cons first series ih =>
      rw [List.map_cons, List.cons_append, collect, ih]
      rfl

theorem collect_families {families : List Family}
    (h : (families.map Family.name).Nodup) :
    collect (families.flatMap Family.lines) = some ([], families) := by
  induction families with
  | nil => rfl
  | cons family families ih =>
      rw [List.map_cons, List.nodup_cons] at h
      -- the names are distinct, so no series is taken for one of another family
      have hnames : ∀ other ∈ families, other.name ≠ family.name := by
        intro other hother heq
        exact h.1 (heq ▸ List.mem_map_of_mem hother)
      have hseries : ∀ s ∈ family.series.map fun s => (family.name, s), s.1 = family.name := by
        intro s hs
        obtain ⟨series, -, rfl⟩ := List.mem_map.mp hs
        rfl
      have hmap : (family.series.map fun s => (family.name, s)).map Prod.snd = family.series := by
        rw [List.map_map]
        exact List.map_id _
      rw [List.flatMap_cons, Family.lines, List.cons_append, List.cons_append, collect,
        collect_series family.name (ih h.2), Option.bind_some, if_pos ⟨rfl, hseries, hnames⟩, hmap]

/-- **What is written reads back**: families of distinct names come out as they went in, with
every label value, whatever it holds. -/
theorem read_write {families : List Family} (h : ∀ f ∈ families, f.WellFormed)
    (hnames : (families.map Family.name).Nodup) : read (write families) = some families := by
  have hlines : ∀ line ∈ families.flatMap write_family, '\n' ∉ line := by
    intro line hline
    obtain ⟨family, hfamily, hmem⟩ := List.mem_flatMap.mp hline
    exact newline_notMem_write_family (h family hfamily) line hmem
  rw [read, write, lines_unlines hlines, mapM_read_line_families h, Option.bind_some,
    collect_families hnames, Option.bind_some, if_pos rfl]

end Xrc.Exposition
