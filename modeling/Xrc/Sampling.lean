/-
The monitor keeps sampling. Between two segments either no batch is suspended and the flag is
cleared, or exactly one is and the flag is set (`Idle`, `Busy`); the next call time and the log
are functions of the batches so far. Every segment of a batch, its last one whatever the reason
included, leads from one of these to the other (`Sampled.step`).
-/
import Xrc.Monitor
import Mathlib.Data.List.TakeWhile

set_option autoImplicit false

namespace Xrc.monitor

open Machine

/-! ## What the batches so far determine

The specification of the monitor: which requests a batch makes, which entries come of the
answers, and what a log with limited space keeps of them. A batch offers its entries in order
and stops at the first one that cannot be encoded. -/

namespace Batch

variable (batch : Batch)

/-- The time a batch starts with. -/
def start : ℕ := now_secs batch.time

def requests : List GetExchangeRateRequest :=
  make_get_exchange_rate_requests (batch.start - ONE_MINUTE_SECONDS)

/-- Its entries, in the order of the requests. -/
def entries : List Entry := List.zipWith entry batch.requests batch.call_results

/-- What it offers the log: its entries up to the first one that cannot be encoded. -/
def encoded [Storage] : List (List UInt8) :=
  (batch.entries.takeWhile fun entry => (Storage.encode_entry entry).isSome).filterMap
    Storage.encode_entry

end Batch

/-- The log after the batches: what it had space for of what they offered. -/
def logged [Storage] (entries : List (List UInt8)) (batches : List Batch) : List (List UInt8) :=
  batches.foldl (fun entries batch => batch.encoded.foldl append_entry entries) entries

/-- The time from which on a batch may start: five minutes after the start of the last one. -/
def Monitor.due (m : Monitor) : ℕ :=
  match m.batches.getLast? with
  | none => 0
  | some batch => batch.start + 5 * ONE_MINUTE_SECONDS

theorem now_secs_lt (now : UInt64) : now_secs now < 2 ^ 35 := by
  have hlt : now.toNat < 2 ^ 64 := now.toNat_lt
  unfold now_secs NANOS_PER_SEC
  omega

section

variable [Storage]

theorem logged_concat (entries : List (List UInt8)) (batches : List Batch) (batch : Batch) :
    logged entries (batches ++ [batch])
      = batch.encoded.foldl append_entry (logged entries batches) := by
  rw [logged, List.foldl_append]
  rfl

/-- One more answer, after entries that could all be encoded. An entry that cannot be encoded is
the last one of its batch, so those before it all could. -/
theorem encoded_answer {batch : Batch} {asked rest : List GetExchangeRateRequest}
    {request : GetExchangeRateRequest} (hrequests : batch.requests = asked ++ request :: rest)
    (hasked : asked.length = batch.call_results.length)
    (hencoded : ∀ e ∈ batch.entries, (Storage.encode_entry e).isSome = true)
    (call_result : CallResult) :
    (batch.answer call_result).entries = batch.entries ++ [entry request call_result] ∧
      (batch.answer call_result).encoded
        = batch.encoded ++ (Storage.encode_entry (entry request call_result)).toList := by
  -- the entries pair the requests with the answers, as far as there are any
  have hbefore : batch.entries = List.zipWith entry asked batch.call_results := by
    rw [Batch.entries, hrequests, ← List.append_nil batch.call_results,
      List.zipWith_append hasked, List.zipWith_nil_right, List.append_nil, List.append_nil]
  have hentries : (batch.answer call_result).entries
      = batch.entries ++ [entry request call_result] := by
    have hsame : (batch.answer call_result).requests = batch.requests := rfl
    rw [hbefore, Batch.entries, hsame, hrequests, Batch.answer, List.zipWith_append hasked,
      List.zipWith_cons_cons, List.zipWith_nil_right]
  refine ⟨hentries, ?_⟩
  rw [Batch.encoded, hentries, List.takeWhile_append_of_pos hencoded, Batch.encoded,
    List.takeWhile_eq_self_iff.mpr hencoded, List.filterMap_append]
  congr 1
  cases hentry : Storage.encode_entry (entry request call_result) with
  | none => simp [List.takeWhile, hentry]
  | some bytes => simp [List.takeWhile, hentry]

/-! ## Idle and busy

The two shapes of the monitor between segments. Every event leads from one of them to one of
them, and which one depends on the time of a heartbeat and on whether the entry of an answer can
be encoded. -/

/-- No batch is suspended: the flag is cleared, and the next one is due. Every batch has then been
recorded in full. -/
structure Idle (m : Monitor) : Prop where
  tasks_eq : m.tasks = []
  is_calling : m.state.is_calling_xrc = false
  next_call : m.state.next_call_at_timestamp = m.due

/-- The part of a batch after the answer to `request`. -/
def resume_batch (now_secs : ℕ) (request : GetExchangeRateRequest)
    (requests : List GetExchangeRateRequest) (call_result : CallResult) (s : MonitorState) :
    Sampler :=
  match Storage.encode_entry (entry request call_result) with
  | none => .done (conclude_batch now_secs s) ()
  | some bytes => sample now_secs requests { s with entries := append_entry s.entries bytes }

/-- Only the last batch is suspended, at the call for `request`: the flag is set, and all of its
entries so far could be encoded. -/
structure Busy (m : Monitor) (earlier : List Batch) (batch : Batch)
    (request : GetExchangeRateRequest) (rest : List GetExchangeRateRequest) : Prop where
  tasks_eq : m.tasks = [⟨earlier.length, resume_batch batch.start request rest⟩]
  batches_eq : m.batches = earlier ++ [batch]
  is_calling : m.state.is_calling_xrc = true
  requests_eq : ∃ asked, batch.requests = asked ++ request :: rest ∧
    asked.length = batch.call_results.length
  encoded : ∀ e ∈ batch.entries, (Storage.encode_entry e).isSome = true

/-- A batch starts, at the call for its first request. -/
def started (m : Monitor) (now : UInt64) : Monitor :=
  let timestamp := now_secs now - ONE_MINUTE_SECONDS
  { state := { m.state with is_calling_xrc := true }
    tasks := [⟨m.batches.length,
      resume_batch (now_secs now) (make_get_exchange_rate_request ⟨"ICP", .Cryptocurrency⟩
        ⟨"CXDR", .FiatCurrency⟩ timestamp) (make_get_exchange_rate_requests timestamp).tail⟩]
    batches := m.batches ++ [⟨now, []⟩] }

/-- A heartbeat starts a batch when it is due. -/
theorem heartbeat_idle {m : Monitor} (h : Idle m) (now : UInt64) :
    heartbeat m now = if m.due ≤ now_secs now then started m now else m := by
  unfold heartbeat beat call_xrc_with_encoder
  have hnext := h.next_call
  rw [h.is_calling, if_neg Bool.false_ne_true]
  by_cases hdue : m.due ≤ now_secs now
  · rw [if_neg (by omega), if_pos hdue, started, h.tasks_eq]
    rfl
  · rw [if_pos (by omega), if_neg hdue]

/-- No heartbeat starts a second one. -/
theorem heartbeat_busy {m : Monitor} {earlier : List Batch} {batch : Batch}
    {request : GetExchangeRateRequest} {rest : List GetExchangeRateRequest}
    (h : Busy m earlier batch request rest) (now : UInt64) : heartbeat m now = m := by
  unfold heartbeat beat call_xrc_with_encoder
  rw [if_pos h.is_calling]

omit [Storage] in
/-- An answer without a suspended batch does nothing. -/
theorem answered_idle {m : Monitor} (h : Idle m) (i : ℕ) (call_result : CallResult) :
    answered m i call_result = m := by
  unfold answered
  rw [h.tasks_eq]
  rfl

/-- The batch ends. -/
def ended (earlier : List Batch) (batch : Batch) (s : MonitorState) : Monitor :=
  ⟨conclude_batch batch.start s, [], earlier ++ [batch]⟩

/-- The batch goes on to its next call. -/
def resumed (earlier : List Batch) (batch : Batch) (request : GetExchangeRateRequest)
    (rest : List GetExchangeRateRequest) (s : MonitorState) : Monitor :=
  ⟨s, [⟨earlier.length, resume_batch batch.start request rest⟩], earlier ++ [batch]⟩

/-- **An answer** ends the batch where its entry cannot be encoded or it was the last one;
otherwise the batch goes on. -/
theorem answered_busy {m : Monitor} {earlier : List Batch} {batch : Batch}
    {request : GetExchangeRateRequest} {rest : List GetExchangeRateRequest}
    (h : Busy m earlier batch request rest) (i : ℕ) (call_result : CallResult) :
    answered m i call_result = m
      ∨ Storage.encode_entry (entry request call_result) = none
        ∧ answered m i call_result = ended earlier (batch.answer call_result) m.state
      ∨ ∃ bytes, Storage.encode_entry (entry request call_result) = some bytes
        ∧ (rest = [] ∧ answered m i call_result = ended earlier (batch.answer call_result)
            { m.state with entries := append_entry m.state.entries bytes }
          ∨ ∃ request' rest', rest = request' :: rest'
            ∧ answered m i call_result = resumed earlier (batch.answer call_result) request' rest'
              { m.state with entries := append_entry m.state.entries bytes }) := by
  -- the suspended batch is the last one of the record
  have hmodify : m.batches.modify earlier.length (·.answer call_result)
      = earlier ++ [batch.answer call_result] := by
    rw [h.batches_eq, List.modify_eq_take_drop, List.take_left, List.drop_left]
    rfl
  cases i with
  -- there is only one suspended batch to answer
  | succ i =>
      left
      unfold answered
      rw [h.tasks_eq]
      rfl
  | zero =>
      right
      unfold answered
      rw [h.tasks_eq, List.getElem?_cons_zero]
      dsimp only
      rw [hmodify]
      unfold resume_batch
      -- an entry that cannot be encoded ends the loop early
      cases Storage.encode_entry (entry request call_result) with
      | none => exact Or.inl ⟨rfl, rfl⟩
      | some bytes =>
          refine Or.inr ⟨bytes, rfl, ?_⟩
          cases rest with
          | nil => exact Or.inl ⟨rfl, rfl⟩
          | cons request' rest' => exact Or.inr ⟨request', rest', rfl, rfl⟩

/-! ## The invariant

`Sampled` joins the shape of the tasks to the history of batches: their distance in time, the
due time of the next one, and the log. It is kept by one event (`Sampled.step`) and so by any
sequence of them, from any log the monitor starts with. -/

/-- The log never loses an entry. -/
theorem prefix_append_entry (entries : List (List UInt8)) (bytes : List UInt8) :
    entries <+: append_entry entries bytes := by
  unfold append_entry
  split
  · exact List.prefix_append entries [bytes]
  · exact List.prefix_refl entries

omit [Storage] in
theorem due_concat (s : MonitorState) (tasks : List Task) (batches : List Batch) (batch : Batch) :
    Monitor.due ⟨s, tasks, batches ++ [batch]⟩ = batch.start + 5 * ONE_MINUTE_SECONDS := by
  rw [Monitor.due, List.getLast?_concat]

omit [Storage] in
/-- The next batch is due five minutes after each of the batches so far. -/
theorem le_due {m : Monitor}
    (h : (m.batches.map Batch.start).Pairwise fun a b => a + 5 * ONE_MINUTE_SECONDS ≤ b)
    {batch : Batch} (hbatch : batch ∈ m.batches) :
    batch.start + 5 * ONE_MINUTE_SECONDS ≤ m.due := by
  obtain ⟨s, tasks, batches⟩ := m
  rcases List.eq_nil_or_concat batches with rfl | ⟨earlier, last, rfl⟩
  · exact absurd hbatch List.not_mem_nil
  · rw [List.concat_eq_append] at h hbatch ⊢
    rw [due_concat]
    rw [List.map_append, List.pairwise_append] at h
    rcases List.mem_append.mp hbatch with hearlier | hlast
    · have hle := h.2.2 _ (List.mem_map_of_mem hearlier) last.start (by simp)
      omega
    · rw [List.mem_singleton.mp hlast]

/-- **What holds between two segments**: at most one batch is suspended; the batches started five
minutes apart; and the log holds what it had space for of what they offered. -/
structure Sampled (entries : List (List UInt8)) (m : Monitor) : Prop where
  phase : Idle m ∨ ∃ earlier batch request rest, Busy m earlier batch request rest
  spaced : (m.batches.map Batch.start).Pairwise fun a b => a + 5 * ONE_MINUTE_SECONDS ≤ b
  log : m.state.entries = logged entries m.batches

omit [Storage] in
theorem idle_ended (earlier : List Batch) (batch : Batch) (s : MonitorState) :
    Idle (ended earlier batch s) where
  tasks_eq := rfl
  is_calling := rfl
  next_call := by
    have hword := now_secs_lt batch.time
    have hstart : batch.start = now_secs batch.time := rfl
    have hfits : batch.start + 5 * ONE_MINUTE_SECONDS ≤ wordMax 64 := by
      rw [hstart]
      unfold wordMax ONE_MINUTE_SECONDS
      omega
    rw [ended, due_concat]
    exact saturating_add_eq hfits

section Answer

variable {entries : List (List UInt8)} {m : Monitor} {earlier : List Batch} {batch : Batch}
  {request : GetExchangeRateRequest} {rest : List GetExchangeRateRequest}
  (h : Sampled entries m) (hbusy : Busy m earlier batch request rest) (call_result : CallResult)

include h hbusy in
theorem spaced_answer :
    ((earlier ++ [batch.answer call_result]).map Batch.start).Pairwise
      fun a b => a + 5 * ONE_MINUTE_SECONDS ≤ b := by
  have hspaced := h.spaced
  rw [hbusy.batches_eq, List.map_append] at hspaced
  rw [List.map_append]
  exact hspaced

include h hbusy in
theorem logged_answer :
    logged entries (earlier ++ [batch.answer call_result])
      = (Storage.encode_entry (entry request call_result)).toList.foldl append_entry
        m.state.entries := by
  obtain ⟨asked, hrequests, hasked⟩ := hbusy.requests_eq
  rw [logged_concat, (encoded_answer hrequests hasked hbusy.encoded call_result).2,
    List.foldl_append, ← logged_concat, ← hbusy.batches_eq, ← h.log]

include hbusy in
/-- The batch goes on. -/
theorem busy_resumed {request' : GetExchangeRateRequest} {rest' : List GetExchangeRateRequest}
    (hrest : rest = request' :: rest') {bytes : List UInt8}
    (hbytes : Storage.encode_entry (entry request call_result) = some bytes) :
    Busy (resumed earlier (batch.answer call_result) request' rest'
        { m.state with entries := append_entry m.state.entries bytes })
      earlier (batch.answer call_result) request' rest' := by
  obtain ⟨asked, hrequests, hasked⟩ := hbusy.requests_eq
  refine ⟨rfl, rfl, hbusy.is_calling, ⟨asked ++ [request], ?_, ?_⟩, ?_⟩
  · rw [List.append_assoc, List.singleton_append, ← hrest]
    exact hrequests
  · rw [List.length_append, hasked, Batch.answer, List.length_append]
    rfl
  · intro e he
    rw [(encoded_answer hrequests hasked hbusy.encoded call_result).1] at he
    rcases List.mem_append.mp he with hold | hnew
    · exact hbusy.encoded e hold
    · rw [List.mem_singleton.mp hnew, hbytes]
      rfl

include h hbusy in
theorem Sampled.answered (i : ℕ) :
    Sampled entries (answered m i call_result)
      ∧ m.state.entries <+: (answered m i call_result).state.entries := by
  have hlogged := logged_answer h hbusy call_result
  have hspaced := spaced_answer h hbusy call_result
  rcases answered_busy hbusy i call_result with
    hsame | ⟨hnone, hended⟩ | ⟨bytes, hbytes, ⟨-, hended⟩ | ⟨request', rest', hrest, hresumed⟩⟩
  · rw [hsame]
    exact ⟨h, List.prefix_refl _⟩
  · -- an entry that cannot be encoded ends the batch without being stored
    rw [hnone] at hlogged
    rw [hended]
    exact ⟨⟨Or.inl (idle_ended _ _ _), hspaced, hlogged.symm⟩, List.prefix_refl _⟩
  · rw [hbytes] at hlogged
    rw [hended]
    exact ⟨⟨Or.inl (idle_ended _ _ _), hspaced, hlogged.symm⟩, prefix_append_entry _ _⟩
  · -- otherwise the next request of the batch is made
    have hnext := busy_resumed hbusy call_result hrest hbytes
    rw [hbytes] at hlogged
    rw [hresumed]
    exact ⟨⟨Or.inr ⟨_, _, _, _, hnext⟩, hspaced, hlogged.symm⟩, prefix_append_entry _ _⟩

end Answer

/-- A batch has started. -/
theorem busy_started (m : Monitor) (now : UInt64) :
    ∃ request rest, Busy (started m now) m.batches ⟨now, []⟩ request rest :=
  ⟨_, _, rfl, rfl, rfl, ⟨[], rfl, rfl⟩, fun _ he => absurd he List.not_mem_nil⟩

theorem Sampled.started {entries : List (List UInt8)} {m : Monitor} (h : Sampled entries m)
    {now : UInt64} (hdue : m.due ≤ now_secs now) : Sampled entries (started m now) where
  phase := Or.inr ⟨_, _, busy_started m now⟩
  spaced := by
    rw [monitor.started, List.map_append, List.pairwise_append]
    refine ⟨h.spaced, List.pairwise_singleton _ _, ?_⟩
    intro start hstart last hlast
    obtain ⟨batch, hbatch, rfl⟩ := List.mem_map.mp hstart
    rw [List.map_singleton, List.mem_singleton] at hlast
    rw [hlast]
    exact (le_due h.spaced hbatch).trans hdue
  log := by
    rw [monitor.started, logged_concat]
    exact h.log

/-- **One event** keeps the invariant, and the log. While a batch is under way, heartbeats do
nothing and an answer either continues the batch or ends it with one more entry; otherwise only a
heartbeat that is due does anything. -/
theorem Sampled.step {entries : List (List UInt8)} {m : Monitor} (h : Sampled entries m)
    (event : MonitorEvent) :
    Sampled entries (step m event) ∧ m.state.entries <+: (step m event).state.entries := by
  rcases h.phase with hidle | ⟨earlier, batch, request, rest, hbusy⟩
  · cases event with
    | heartbeat now =>
        rw [monitor.step, heartbeat_idle hidle]
        split
        · rename_i hdue
          exact ⟨h.started hdue, List.prefix_refl _⟩
        · exact ⟨h, List.prefix_refl _⟩
    | answered i call_result =>
        rw [monitor.step, answered_idle hidle]
        exact ⟨h, List.prefix_refl _⟩
  · cases event with
    | heartbeat now =>
        rw [monitor.step, heartbeat_busy hbusy]
        exact ⟨h, List.prefix_refl _⟩
    | answered i call_result => exact h.answered hbusy call_result i

/-- **Any sequence of events** does. Together with the entries that are in the log already, which
stay where they are. -/
theorem Sampled.run {entries : List (List UInt8)} {m : Monitor} (h : Sampled entries m)
    (events : List MonitorEvent) :
    Sampled entries (run m events) ∧ m.state.entries <+: (run m events).state.entries := by
  induction events generalizing m with
  | nil => exact ⟨h, List.prefix_refl _⟩
  | cons event events ih =>
      obtain ⟨hstep, hgrows⟩ := h.step event
      obtain ⟨hrun, hgrows'⟩ := ih hstep
      exact ⟨hrun, hgrows.trans hgrows'⟩

theorem sampled_new (entries : List (List UInt8)) : Sampled entries (Monitor.new entries) where
  phase := Or.inl ⟨rfl, rfl, rfl⟩
  spaced := List.Pairwise.nil
  log := rfl

theorem run_append (m : Monitor) (events more : List MonitorEvent) :
    run m (events ++ more) = run (run m events) more := List.foldl_append

/-! ## The monitor keeps sampling

The invariant read off at the end of a run. That the flag is always cleared again needs no
further argument: an idle monitor has it cleared, and a busy one ends its batch in any case. -/

/-- **The monitor keeps sampling.** After any events, and whatever the encoder and the log refuse:
at most one batch is suspended; the batches started five minutes apart, their heartbeats' times
rounded down to the minute; once no batch is suspended the flag is cleared, the next call time is
the start of the last batch plus five minutes and the next heartbeat from then on starts one; and
the log has grown by what it had space for of the entries of each batch, in the order of its
requests, up to the first one that could not be encoded.

All of it is the invariant `Sampled`, which says what the monitor looks like between two segments
as a function of the batches so far. The flag cannot stay set, because every way a batch can end
goes through the part that clears it. -/
theorem keeps_sampling (entries : List (List UInt8)) (events more : List MonitorEvent) :
    let m := run (Monitor.new entries) events
    m.tasks.length ≤ 1 ∧
      (m.batches.map Batch.start).Pairwise (fun a b => a + 5 * ONE_MINUTE_SECONDS ≤ b) ∧
      (m.tasks = [] → m.state.is_calling_xrc = false ∧
        m.state.next_call_at_timestamp = m.due ∧
        ∀ now, m.due ≤ now_secs now →
          (step m (.heartbeat now)).batches = m.batches ++ [⟨now, []⟩]) ∧
      m.state.entries = logged entries m.batches ∧
      m.state.entries <+: (run (Monitor.new entries) (events ++ more)).state.entries := by
  intro m
  obtain ⟨h, -⟩ := (sampled_new entries).run events
  have hgrows := (h.run more).2
  rw [← run_append] at hgrows
  refine ⟨?_, h.spaced, ?_, h.log, hgrows⟩
  · -- idle or busy: none or one is suspended
    rcases h.phase with hidle | ⟨earlier, batch, request, rest, hbusy⟩
    · rw [hidle.tasks_eq]
      exact Nat.zero_le 1
    · rw [hbusy.tasks_eq]
      exact le_refl 1
  · intro hnone
    rcases h.phase with hidle | ⟨earlier, batch, request, rest, hbusy⟩
    · refine ⟨hidle.is_calling, hidle.next_call, ?_⟩
      intro now hdue
      rw [step, heartbeat_idle hidle, if_pos hdue]
      rfl
    · -- a busy monitor has a suspended batch
      rw [hbusy.tasks_eq] at hnone
      cases hnone

end

/-- Nothing can be encoded. -/
@[reducible] def refusing : Storage := ⟨fun _ => none, fun _ _ => true⟩

/-- A batch started by a heartbeat after 59 seconds, and the next one after 300. -/
def hurried : List MonitorEvent :=
  [.heartbeat 59_000_000_000, .answered 0 (.ok (.error .Pending)), .heartbeat 300_000_000_000]

/-- The heartbeats of two consecutive batches need not be five minutes apart, as the time of the
first one is rounded down. -/
theorem heartbeats_closer :
    letI := refusing
    ¬ ((run (Monitor.new []) hurried).batches.map fun batch =>
        batch.time.toNat / NANOS_PER_SEC).Pairwise
      fun a b => a + 5 * ONE_MINUTE_SECONDS ≤ b := by
  decide

end Xrc.monitor
