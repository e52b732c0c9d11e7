/-
`get_entries` of the monitor canister, and a client that pages through the log with it while
batches append to it and upgrades come in between. A page is cut out of the log as it is at that
moment, in words of 32 bits, and every entry of it is decoded.

What keeps the client in step is that the log only grows, and that whatever is in it was encoded
by the canister itself (`Stored`); so no query fails and nothing is read twice or left out
(`pages_read_the_log`).
-/
import Xrc.Sampling
import Mathlib.Data.List.Induction

set_option autoImplicit false

namespace Xrc.monitor

open Machine

/-! ## The query

`get_entries` works with words of 32 bits. An offset that is none makes it trap, and a limit
that is none falls back to a hundred entries, as a limit that is not given does. -/

def WASM_PAGE_SIZE : ℕ := 65_536
def GIB : ℕ := 1024 * 1024 * 1024

/-- The maximum number of Wasm pages of the stable storage. -/
def NUM_WASM_PAGES : ℕ := 4 * GIB / WASM_PAGE_SIZE

/-- The decoder of the entries, and the size of the log, which keeps eight bytes an entry apart
from the entries themselves. -/
class Decoder [Storage] where
  decode_one : List UInt8 → Except String Entry
  decode_encode : ∀ {entry : Entry} {bytes : List UInt8},
    Storage.encode_entry entry = some bytes → decode_one bytes = .ok entry
  has_space_le : ∀ {entries : List (List UInt8)} {bytes : List UInt8},
    Storage.has_space entries bytes = true →
      (entries.length + 1) * 8 ≤ NUM_WASM_PAGES * WASM_PAGE_SIZE

structure GetEntriesRequest where
  offset : ℕ
  limit : Option ℕ

structure GetEntriesResponse where
  entries : List Entry
  total : ℕ

/-- `Nat::to_usize`, of a target of 32 bits. -/
def to_usize (n : ℕ) : Option ℕ := if n < 2 ^ 32 then some n else none

/-- The digits of a number in groups of three, as `candid` prints them. -/
def pp_num (n : ℕ) : String :=
  let digits := (Nat.toDigits 10 n).reverse
  String.ofList ((digits.toChunks 3).map List.reverse |>.reverse |>.intersperse ['_']).flatten

namespace GetEntriesRequest

def too_large (offset : ℕ) : String :=
  let offset := pp_num offset
  s!"offset {offset} is too large, max allowed: 18446744073709551615"

/-- The number of entries asked for. -/
def page_size : Option ℕ → ℕ
  | some limit => (to_usize limit).getD 100
  | none => 100

def offset_and_limit (self : GetEntriesRequest) : Except String (ℕ × ℕ) :=
  match to_usize self.offset with
  | none => .error (too_large self.offset)
  | some offset => .ok (offset, page_size self.limit)

end GetEntriesRequest

section Query

variable [Storage] [Decoder]

def decode_entry (idx : ℕ) (bytes : List UInt8) : Except String Entry :=
  match Decoder.decode_one bytes with
  | .ok entry => .ok entry
  | .error err => .error s!"failed to decode entry {idx}: {err}"

/-- The entry at a position that is unwrapped. -/
def entry_at (entries : List (List UInt8)) (idx : ℕ) : Except String Entry :=
  match entries[idx]? with
  | none => .error "called `Option::unwrap()` on a `None` value"
  | some bytes => decode_entry idx bytes

/-- `get_entries`, or the message it traps with. -/
def get_entries (entries : List (List UInt8)) (request : GetEntriesRequest) :
    Except String GetEntriesResponse :=
  match request.offset_and_limit with
  | .error err => .error err
  | .ok (start, limit) =>
    let stop := saturating_add 32 start limit
    let total := entries.length
    let stop := if total ≤ stop then total else stop
    match (List.range' start (stop - start)).mapM (entry_at entries) with
    | .error err => .error err
    | .ok entries => .ok ⟨entries, total⟩

/-! ## What is stored

Two assumptions on code from elsewhere, both in the class `Decoder`: an encoded entry is decoded
as itself, and a log takes some bytes for every entry, so that its length is a word. Both hold
of an instance at the end of the module. -/

/-- The entries behind the bytes of a log. -/
def decoded (entries : List (List UInt8)) : List Entry :=
  entries.filterMap fun bytes => (Decoder.decode_one bytes).toOption

theorem decoded_cons {entry : Entry} {bytes : List UInt8}
    (h : Storage.encode_entry entry = some bytes) (entries : List (List UInt8)) :
    decoded (bytes :: entries) = entry :: decoded entries := by
  rw [decoded, List.filterMap_cons, Decoder.decode_encode h]
  rfl

/-- A longer log has more entries behind it. -/
theorem decoded_prefix {entries entries' : List (List UInt8)} (h : entries <+: entries') :
    decoded entries <+: decoded entries' := by
  obtain ⟨more, rfl⟩ := h
  rw [decoded, decoded, List.filterMap_append]
  exact List.prefix_append _ _

/-- What the canister has stored: entries it has encoded, as many as there is space for. The
second part bounds the number of entries by the memory the log has for its index, from which it
follows that positions are words. -/
structure Stored (entries : List (List UInt8)) : Prop where
  encoded : ∀ bytes ∈ entries, ∃ entry, Storage.encode_entry entry = some bytes
  fits : entries.length * 8 ≤ NUM_WASM_PAGES * WASM_PAGE_SIZE

namespace Stored

variable {entries : List (List UInt8)}

omit [Decoder] in
theorem nil : Stored [] where
  encoded := fun _ hbytes => absurd hbytes List.not_mem_nil
  fits := Nat.zero_le _

/-- One more entry. -/
theorem append_entry (h : Stored entries) {entry : Entry} {bytes : List UInt8}
    (hbytes : Storage.encode_entry entry = some bytes) :
    Stored (append_entry entries bytes) := by
  rw [monitor.append_entry]
  split
  · rename_i hspace
    refine ⟨?_, ?_⟩
    · intro bytes' hmem
      rcases List.mem_append.mp hmem with hold | hnew
      · exact h.encoded bytes' hold
      · rw [List.mem_singleton.mp hnew]
        exact ⟨entry, hbytes⟩
    · rw [List.length_append]
      exact Decoder.has_space_le hspace
  · exact h

/-- What a batch offers. -/
theorem append_all (offered : List (List UInt8))
    (hoffered : ∀ bytes ∈ offered, ∃ entry, Storage.encode_entry entry = some bytes) :
    ∀ {entries : List (List UInt8)}, Stored entries →
      Stored (offered.foldl monitor.append_entry entries) := by
  induction offered with
  | nil => exact fun h => h
  | cons bytes offered ih =>
      intro entries h
      obtain ⟨entry, hbytes⟩ := hoffered bytes List.mem_cons_self
      apply ih
      · exact fun bytes' hmem => hoffered bytes' (List.mem_cons_of_mem _ hmem)
      · exact h.append_entry hbytes

/-- The log after any batches. -/
theorem logged (h : Stored entries) (batches : List Batch) :
    Stored (logged entries batches) := by
  induction batches using List.reverseRecOn with
  | nil => exact h
  | append_singleton batches batch ih =>
      rw [logged_concat]
      apply append_all _ ?_ ih
      intro bytes hbytes
      obtain ⟨entry, -, hentry⟩ := List.mem_filterMap.mp hbytes
      exact ⟨entry, hentry⟩

omit [Decoder] in
theorem of_cons {bytes : List UInt8} (h : Stored (bytes :: entries)) : Stored entries where
  encoded := fun bytes' hmem => h.encoded bytes' (List.mem_cons_of_mem _ hmem)
  fits := by
    have hfits := h.fits
    rw [List.length_cons] at hfits
    omega

theorem length_decoded (h : Stored entries) : (decoded entries).length = entries.length := by
  induction entries with
  | nil => rfl
  | cons bytes entries ih =>
      obtain ⟨entry, hentry⟩ := h.encoded bytes List.mem_cons_self
      rw [decoded_cons hentry, List.length_cons, List.length_cons, ih h.of_cons]

/-- Every stored entry is read back where it stands. No entry was ever stored that was not
encoded, so the unwrapping in the code cannot fail. -/
theorem entry_at (h : Stored entries) {idx : ℕ} (hidx : idx < (decoded entries).length) :
    entry_at entries idx = .ok (decoded entries)[idx] := by
  have hread : ∀ {entries : List (List UInt8)}, Stored entries → ∀ {idx : ℕ}
      (hidx : idx < (decoded entries).length), ∃ bytes, entries[idx]? = some bytes
        ∧ Decoder.decode_one bytes = .ok (decoded entries)[idx] := by
    intro entries h
    induction entries with
    | nil => exact fun hidx => absurd hidx (Nat.not_lt_zero _)
    | cons bytes entries ih =>
        obtain ⟨entry, hentry⟩ := h.encoded bytes List.mem_cons_self
        intro idx hidx
        have hdecoded := decoded_cons hentry entries
        cases idx with
        | zero =>
            refine ⟨bytes, rfl, ?_⟩
            simp only [hdecoded, List.getElem_cons_zero]
            exact Decoder.decode_encode hentry
        | succ idx =>
            simp only [hdecoded, List.length_cons, List.getElem_cons_succ,
              List.getElem?_cons_succ] at hidx ⊢
            exact ih h.of_cons (Nat.lt_of_succ_lt_succ hidx)
  obtain ⟨bytes, hbytes, hdecode⟩ := hread h hidx
  rw [monitor.entry_at, hbytes]
  dsimp only
  rw [decode_entry, hdecode]

/-- So the whole log is. -/
theorem mapM_decode (h : Stored entries) :
    entries.mapM Decoder.decode_one = .ok (decoded entries) := by
  induction entries with
  | nil => rfl
  | cons bytes entries ih =>
      obtain ⟨entry, hentry⟩ := h.encoded bytes List.mem_cons_self
      rw [List.mapM_cons, Decoder.decode_encode hentry, ih h.of_cons, decoded_cons hentry]
      rfl

/-- A range of positions within the log. -/
theorem mapM_entry_at (h : Stored entries) (n : ℕ) :
    ∀ {start : ℕ}, start + n ≤ (decoded entries).length →
      (List.range' start n).mapM (monitor.entry_at entries)
        = .ok (((decoded entries).drop start).take n) := by
  induction n with
  | zero => exact fun _ => rfl
  | succ n ih =>
      intro start hle
      have hstart : start < (decoded entries).length := by omega
      rw [List.range'_succ, List.mapM_cons, h.entry_at hstart, ih (by omega),
        List.drop_eq_getElem_cons hstart, List.take_succ_cons]
      rfl

end Stored

/-- **A page** is cut out of the log; only an offset that is no word is refused. The offset and
the limit are converted to machine words of 32 bits. A limit that does not fit becomes the
default, while an offset that does not is an error. -/
theorem get_entries_eq {entries : List (List UInt8)} (h : Stored entries)
    (request : GetEntriesRequest) :
    get_entries entries request
      = if request.offset < 2 ^ 32 then
          .ok ⟨((decoded entries).drop request.offset).take (GetEntriesRequest.page_size request.limit),
            (decoded entries).length⟩
        else .error (GetEntriesRequest.too_large request.offset) := by
  rw [get_entries, GetEntriesRequest.offset_and_limit, to_usize]
  by_cases hoffset : request.offset < 2 ^ 32
  · rw [if_pos hoffset, if_pos hoffset]
    dsimp only
    have hfits := h.fits
    have hlength := h.length_decoded
    have hpages : NUM_WASM_PAGES * WASM_PAGE_SIZE = 2 ^ 32 := by decide
    generalize GetEntriesRequest.page_size request.limit = limit
    generalize request.offset = start at hoffset
    -- the sum saturates only beyond the end of the log
    have hstop : (if entries.length ≤ saturating_add 32 start limit then entries.length
        else saturating_add 32 start limit) = min (start + limit) entries.length := by
      unfold saturating_add wordMax
      split_ifs <;> omega
    rw [hstop, hlength]
    by_cases hbeyond : entries.length ≤ start
    · rw [Nat.sub_eq_zero_of_le (by omega), List.drop_eq_nil_of_le (by omega), List.take_nil]
      rfl
    · rw [h.mapM_entry_at _ (by omega)]
      dsimp only
      rw [List.take_eq_take_iff.mpr]
      rw [List.length_drop]
      omega
  · rw [if_neg hoffset, if_neg hoffset]

end Query

/-! ## A client

A client that remembers what it has and asks for what comes next. It stays in step because the
log only grows: neither a batch nor an upgrade changes an entry that is there. -/

/-- The canister, and a client that asks for the entries after those it has. -/
structure Paged where
  canister : Monitor
  received : List Entry

def Paged.new : Paged := ⟨Monitor.new [], []⟩

/-- What can happen to the two. -/
inductive PagedEvent where
  | canister (event : MonitorEvent)
  /-- An upgrade of the canister, which keeps the log. -/
  | upgraded
  /-- The client asks for one more page. -/
  | page (limit : Option ℕ)

namespace Paged

open GetEntriesRequest

section Runs

variable [Storage] [Decoder]

/-- One event; the client has nothing of a query that fails. -/
def step (p : Paged) : PagedEvent → Paged
  | .canister event => { p with canister := Xrc.monitor.step p.canister event }
  | .upgraded => { p with canister := Monitor.new p.canister.state.entries }
  | .page limit =>
    match get_entries p.canister.state.entries ⟨p.received.length, limit⟩ with
    | .ok response => { p with received := p.received ++ response.entries }
    | .error _ => p

def run (p : Paged) (events : List PagedEvent) : Paged := events.foldl step p

/-- The entries in the log. -/
def log (p : Paged) : List Entry := decoded p.canister.state.entries

/-- **What holds between two events**: the monitor has sampled since its last upgrade, and the
client has the beginning of the log. -/
structure InStep (p : Paged) : Prop where
  sampled : ∃ entries, Stored entries ∧ Sampled entries p.canister
  received : p.received <+: p.log

theorem inStep_new : Paged.new.InStep where
  sampled := ⟨[], Stored.nil, sampled_new []⟩
  received := List.nil_prefix

namespace InStep

variable {p : Paged}

theorem stored (h : p.InStep) : Stored p.canister.state.entries := by
  obtain ⟨entries, hstored, hsampled⟩ := h.sampled
  rw [hsampled.log]
  exact hstored.logged _

/-- A page is what comes next in the log. -/
theorem step_page (h : p.InStep) (limit : Option ℕ) :
    p.step (.page limit) = { p with
      received := p.log.take (p.received.length + page_size limit) } := by
  have hword : p.received.length < 2 ^ 32 := by
    have hle := h.received.length_le
    have hlength := h.stored.length_decoded
    have hfits := h.stored.fits
    have hpages : NUM_WASM_PAGES * WASM_PAGE_SIZE = 2 ^ 32 := by decide
    rw [log] at hle
    omega
  rw [step, get_entries_eq h.stored, if_pos hword]
  dsimp only
  obtain ⟨rest, hrest⟩ := h.received
  rw [log] at hrest ⊢
  rw [← hrest, List.drop_left, List.take_length_add_append]

/-- **One event** keeps the client in step, and the log. The canister appends to the log, an
upgrade keeps it, and a page gives the client the next entries: so what it has received remains a
beginning of the log. -/
theorem step (h : p.InStep) (event : PagedEvent) :
    (p.step event).InStep ∧ p.log <+: (p.step event).log := by
  obtain ⟨entries, hstored, hsampled⟩ := h.sampled
  cases event with
  | canister event =>
      obtain ⟨hstep, hgrows⟩ := hsampled.step event
      have hlog := decoded_prefix hgrows
      exact ⟨⟨⟨entries, hstored, hstep⟩, h.received.trans hlog⟩, hlog⟩
  | upgraded =>
      exact ⟨⟨⟨_, h.stored, sampled_new _⟩, h.received⟩, List.prefix_refl _⟩
  | page limit =>
      rw [h.step_page limit]
      exact ⟨⟨⟨entries, hstored, hsampled⟩, List.take_prefix _ _⟩, List.prefix_refl _⟩

/-- **Any run** does. The log of an earlier state stays a beginning of every later one, so a
client may go on reading where it stopped. -/
theorem run (events : List PagedEvent) :
    ∀ {p : Paged}, p.InStep → (p.run events).InStep ∧ p.log <+: (p.run events).log := by
  induction events with
  | nil => exact fun h => ⟨h, List.prefix_refl _⟩
  | cons event events ih =>
      intro p h
      obtain ⟨hstep, hgrows⟩ := h.step event
      obtain ⟨hrun, hgrows'⟩ := ih hstep
      exact ⟨hrun, hgrows.trans hgrows'⟩

/-- Page after page, while nothing else happens. Each page takes as many entries as its limit
allows, until the log is exhausted. -/
theorem run_pages (h : p.InStep) (limit : Option ℕ) (n : ℕ) :
    p.run (List.replicate n (.page limit)) = { p with
      received := p.log.take (p.received.length + n * page_size limit) } := by
  induction n generalizing p with
  | zero =>
      obtain ⟨rest, hrest⟩ := h.received
      rw [Nat.zero_mul, Nat.add_zero, ← hrest, List.take_left]
      rfl
  | succ n ih =>
      have hnext := ih (h.step (.page limit)).1
      rw [h.step_page limit] at hnext
      rw [List.replicate_succ, Paged.run, List.foldl_cons, ← Paged.run, h.step_page limit, hnext]
      dsimp only [log]
      -- a page that reaches the end of the log is followed by empty ones
      rw [List.length_take, List.take_eq_take_iff.mpr]
      rw [Nat.add_mul]
      omega

end InStep

/-- **Pages read the log.** However the batches of the monitor, its upgrades and the pages of a
client follow on each other: every stored entry is decoded; a query for any offset that is a word
returns the part of the log it asks for, whatever the limit; the client has, without a gap and
without a repetition, the beginning of a log that only grows; and as many pages as the rest of the
log takes bring it all of the log.

That a page starts where the client's last one ended needs no agreement of the two, only that the
log grows at its end (`Sampled.run`). A limit that is no word is read as a hundred entries, which
only changes how long a page is. -/
theorem pages_read_the_log (events : List PagedEvent) :
    let p := Paged.new.run events
    p.canister.state.entries.mapM Decoder.decode_one = .ok p.log
      ∧ (∀ request : GetEntriesRequest, get_entries p.canister.state.entries request
          = if request.offset < 2 ^ 32 then
              .ok ⟨(p.log.drop request.offset).take (page_size request.limit), p.log.length⟩
            else .error (too_large request.offset))
      ∧ p.received <+: p.log
      ∧ (∀ more, p.log <+: (p.run more).log)
      ∧ ∀ limit n, p.log.length ≤ p.received.length + n * page_size limit →
          (p.run (List.replicate n (.page limit))).received = p.log := by
  intro p
  have h : p.InStep := (InStep.run events inStep_new).1
  refine ⟨h.stored.mapM_decode, get_entries_eq h.stored, h.received, ?_, ?_⟩
  · exact fun more => (InStep.run more h).2
  · intro limit n henough
    -- so many pages take as many entries as there are, or more
    rw [h.run_pages limit n]
    exact List.take_of_length_le henough

end Runs

end Paged

/-! ### A log of two entries, in pages of one

An encoder and a decoder for two known entries, with a log that has room for both, and a client
that fetches them one by one. -/

/-- An encoder of the entries it knows, each as so many bytes as come before it, with a log that
has space for their index. -/
@[reducible] def counting (known : List Entry) : Storage where
  encode_entry entry := (known.idxOf? entry).map fun idx => List.replicate idx 0
  has_space entries _ := decide ((entries.length + 1) * 8 ≤ NUM_WASM_PAGES * WASM_PAGE_SIZE)

/-- What it has encoded can be decoded. -/
@[reducible] def countingDecoder (known : List Entry) : @Decoder (counting known) :=
  let _ := counting known
  { decode_one := fun bytes =>
      match known[bytes.length]? with
      | some entry => .ok entry
      | none => .error "unexpected end of file"
    decode_encode := by
      intro entry bytes h
      obtain ⟨idx, hidx, rfl⟩ := Option.map_eq_some_iff.mp h
      obtain ⟨hlt, hentry, -⟩ := List.idxOf?_eq_some_iff.mp hidx
      rw [List.length_replicate, List.getElem?_eq_getElem hlt, hentry]
    has_space_le := of_decide_eq_true }

/-- The first two entries of a batch that is started two minutes after the epoch. -/
def firstEntries : List Entry :=
  [entry (make_get_exchange_rate_request ⟨"ICP", .Cryptocurrency⟩ ⟨"CXDR", .FiatCurrency⟩ 60)
      (.ok (.error .Pending)),
    entry (make_get_exchange_rate_request ⟨"BTC", .Cryptocurrency⟩ ⟨"BTT", .Cryptocurrency⟩ 60)
      (.ok (.error .RateLimited))]

/-- The batch after its first two answers, and a page of one entry. -/
def firstPage : List PagedEvent :=
  [.canister (.heartbeat 120_000_000_000), .canister (.answered 0 (.ok (.error .Pending))),
    .canister (.answered 0 (.ok (.error .RateLimited))), .page (some 1)]

/-- The first page cuts the log, and the second one completes it. -/
theorem second_page_completes :
    letI := counting firstEntries
    letI := countingDecoder firstEntries
    (Paged.new.run firstPage).log.length = 2
      ∧ (Paged.new.run firstPage).received.length = 1
      ∧ ((Paged.new.run firstPage).run [.page (some 1)]).received
        = (Paged.new.run firstPage).log := by
  let _ := counting firstEntries
  let _ := countingDecoder firstEntries
  have hlog : (Paged.new.run firstPage).log.length = 2 := by decide +kernel
  have hreceived : (Paged.new.run firstPage).received.length = 1 := by decide +kernel
  refine ⟨hlog, hreceived, ?_⟩
  obtain ⟨-, -, -, -, hcomplete⟩ := Paged.pages_read_the_log firstPage
  apply hcomplete (some 1) 1
  rw [hlog, hreceived]
  decide

end Xrc.monitor
