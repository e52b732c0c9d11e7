/-
A registry of metrics: a sorted map of counters that saturate, and one of gauges that keep
the last value they were set to.

Writes to it arrive one at a time. `counters_after` and `gauges_after` say what a whole history
of writes leaves at every key: the counter is the sum of what was added to it, as far as the
cap, and the gauge the last value; a key nothing was written to is not there.
-/
import Mathlib.Algebra.BigOperators.Group.List.Basic
import Mathlib.Algebra.GroupWithZero.Nat
import Mathlib.Data.List.Induction
import Mathlib.Tactic.Common

set_option autoImplicit false

namespace Xrc

/-- The counters and the gauges, each by its key. -/
structure Registry (K : Type) (cmp : K → K → Ordering) where
  counters : Std.TreeMap K ℕ cmp
  gauges : Std.TreeMap K ℕ cmp

namespace Registry

section Operations

variable {K : Type} {cmp : K → K → Ordering}

def empty : Registry K cmp := ⟨∅, ∅⟩

/-- Adds to a counter, which starts at zero. -/
def add (cap : ℕ) (key : K) (delta : ℕ) (self : Registry K cmp) : Registry K cmp :=
  { self with counters :=
      self.counters.alter key fun entry => some (min (entry.getD 0 + delta) cap) }

/-- Sets a gauge. -/
def set (key : K) (value : ℕ) (self : Registry K cmp) : Registry K cmp :=
  { self with gauges := self.gauges.insert key value }

end Operations

/-! ## Histories of writes

A write goes to one key and leaves all others alone, hence what a key holds after a history is a
function of the writes to this key: their sum, or the last one. The cap is met by the sum as a
whole, since addition that saturates at every step saturates once. -/

/-- One write. -/
inductive Write (K : Type) where
  | add (key : K) (delta : ℕ)
  | set (key : K) (value : ℕ)

variable {K : Type}

/-- What a write adds to the counter at a key. -/
def Write.added [DecidableEq K] (key : K) : Write K → Option ℕ
  | .add k delta => if k = key then some delta else none
  | .set _ _ => none

/-- What a write sets the gauge at a key to. -/
def Write.value [DecidableEq K] (key : K) : Write K → Option ℕ
  | .add _ _ => none
  | .set k value => if k = key then some value else none

/-- The series a write goes to. -/
def Write.key : Write K → K
  | .add key _ => key
  | .set key _ => key

theorem Write.added_of_ne [DecidableEq K] {key : K} {w : Write K} (h : w.key ≠ key) :
    w.added key = none := by
  cases w with
  | add k delta => exact if_neg h
  | set k value => rfl

theorem Write.value_of_ne [DecidableEq K] {key : K} {w : Write K} (h : w.key ≠ key) :
    w.value key = none := by
  cases w with
  | add k delta => rfl
  | set k value => exact if_neg h

/-- The sum of what was added to a counter, if anything was. -/
def total [DecidableEq K] (key : K) (writes : List (Write K)) : Option ℕ :=
  match writes.filterMap (Write.added key) with
  | [] => none
  | delta :: deltas => some (delta :: deltas).sum

/-- The last value a gauge was set to. -/
def latest [DecidableEq K] (key : K) (writes : List (Write K)) : Option ℕ :=
  (writes.filterMap (Write.value key)).getLast?

theorem latest_append [DecidableEq K] (key : K) (history more : List (Write K)) :
    latest key (history ++ more) = (latest key more).or (latest key history) := by
  rw [latest, latest, latest, List.filterMap_append, List.getLast?_append]

theorem latest_singleton [DecidableEq K] (key : K) (w : Write K) :
    latest key [w] = w.value key := by
  cases h : w.value key with
  | none => rw [latest, List.filterMap_cons_none h]; rfl
  | some value => rw [latest, List.filterMap_cons_some h]; rfl

section Run

variable {cmp : K → K → Ordering}

/-- One write. -/
def write (cap : ℕ) (self : Registry K cmp) : Write K → Registry K cmp
  | .add key delta => self.add cap key delta
  | .set key value => self.set key value

/-- A history of writes, the oldest one first. -/
def writes (cap : ℕ) (self : Registry K cmp) (history : List (Write K)) : Registry K cmp :=
  history.foldl (write cap) self

theorem writes_cons (cap : ℕ) (self : Registry K cmp) (w : Write K) (history : List (Write K)) :
    self.writes cap (w :: history) = (self.write cap w).writes cap history := rfl

theorem writes_append (cap : ℕ) (self : Registry K cmp) (history more : List (Write K)) :
    self.writes cap (history ++ more) = (self.writes cap history).writes cap more :=
  List.foldl_append

variable [DecidableEq K] [Std.TransCmp cmp] [Std.LawfulEqCmp cmp]

/-- One write, at every counter. -/
theorem counters_write (cap : ℕ) (self : Registry K cmp) (w : Write K) (key : K) :
    (self.write cap w).counters[key]?
      = match w.added key with
        | some delta => some (min ((self.counters[key]?).getD 0 + delta) cap)
        | none => self.counters[key]? := by
  cases w with
  | set k value => rfl
  | add k delta =>
      rw [write, add, Write.added, Std.TreeMap.getElem?_alter]
      by_cases h : k = key
      · subst h
        rw [if_pos (Std.LawfulEqCmp.compare_eq_iff_eq.mpr rfl), if_pos rfl]
      · rw [if_neg fun heq => h (Std.LawfulEqCmp.compare_eq_iff_eq.mp heq), if_neg h]

/-- One write, at every gauge. -/
theorem gauges_write (cap : ℕ) (self : Registry K cmp) (w : Write K) (key : K) :
    (self.write cap w).gauges[key]? = (w.value key).or self.gauges[key]? := by
  cases w with
  | add k delta => rfl
  | set k value =>
      rw [write, set, Write.value, Std.TreeMap.getElem?_insert]
      by_cases h : k = key
      · subst h
        rw [if_pos (Std.LawfulEqCmp.compare_eq_iff_eq.mpr rfl), if_pos rfl]
        rfl
      · rw [if_neg fun heq => h (Std.LawfulEqCmp.compare_eq_iff_eq.mp heq), if_neg h]
        rfl

/-- What was added after a first addition, or to what was there. The first addition makes the
counter, and saturation in between is saturation of the sum. -/
theorem counters_writes {cap : ℕ} (history : List (Write K)) (key : K) :
    ∀ self : Registry K cmp,
      (self.writes cap history).counters[key]?
        = match history.filterMap (Write.added key) with
          | [] => self.counters[key]?
          | delta :: deltas =>
            some (min ((self.counters[key]?).getD 0 + (delta :: deltas).sum) cap) := by
  induction history with
  | nil => exact fun _ => rfl
  | cons w history ih =>
      intro self
      have hstep := counters_write cap self w key
      rw [writes_cons, ih]
      cases hadded : w.added key with
      | none =>
          rw [hadded] at hstep
          rw [List.filterMap_cons_none hadded, hstep]
      | some delta =>
          rw [hadded] at hstep
          rw [List.filterMap_cons_some hadded, hstep]
          -- a sum that was cut at the cap stays at the cap
          cases history.filterMap (Write.added key) with
          | nil => rfl
          | cons second deltas =>
              simp only [Option.getD_some, List.sum_cons, Option.some.injEq]
              omega

/-- **What the counters count**: the sum of what was added, as far as the cap. Each addition
saturates, and so does the sum of all: once the cap is reached, nothing is lost by adding more. A
counter that nothing was added to is not there. -/
theorem counters_after (cap : ℕ) (history : List (Write K)) (key : K) :
    ((empty : Registry K cmp).writes cap history).counters[key]?
      = (total key history).map fun sum => min sum cap := by
  rw [counters_writes, total]
  cases history.filterMap (Write.added key) with
  | nil => exact Std.TreeMap.getElem?_emptyc
  | cons delta deltas =>
      simp only [empty, Std.TreeMap.getElem?_emptyc, Option.getD_none, Nat.zero_add,
        Option.map_some]

theorem gauges_writes {cap : ℕ} (history : List (Write K)) (key : K) :
    ∀ self : Registry K cmp,
      (self.writes cap history).gauges[key]? = (latest key history).or self.gauges[key]? := by
  induction history using List.reverseRecOn with
  | nil => exact fun _ => rfl
  | append_singleton history w ih =>
      intro self
      rw [writes_append, writes_cons, writes, List.foldl_nil, gauges_write, ih,
        latest_append, latest_singleton, Option.or_assoc]

/-- **What the gauges show**: the last value they were set to. Unlike a counter, it forgets what
it showed before. -/
theorem gauges_after (cap : ℕ) (history : List (Write K)) (key : K) :
    ((empty : Registry K cmp).writes cap history).gauges[key]? = latest key history := by
  rw [gauges_writes, empty, Std.TreeMap.getElem?_emptyc, Option.or_none]

end Run

/-! ## Counters of ones

For a registry that is written next to another state, step by step. `Counted` is what an
invariant over such steps says of a counter, together with the two lemmas on writes to this key
and to another. -/

section Counted

variable [DecidableEq K] {cmp : K → K → Ordering} [Std.TransCmp cmp] [Std.LawfulEqCmp cmp]

/-- A counter has been counted up `n` times. A counter that was never counted up is not there,
rather than zero. -/
def Counted (cap : ℕ) (self : Registry K cmp) (key : K) (n : ℕ) : Prop :=
  self.counters[key]? = if n = 0 then none else some (min n cap)

variable {cap : ℕ} {self : Registry K cmp} {key : K} {n : ℕ}

omit [DecidableEq K] [Std.TransCmp cmp] [Std.LawfulEqCmp cmp] in
theorem Counted.congr {other : Registry K cmp} (h : self.Counted cap key n)
    (heq : other.counters[key]? = self.counters[key]?) : other.Counted cap key n :=
  heq.trans h

theorem Counted.add_self (h : self.Counted cap key n) :
    (self.add cap key 1).Counted cap key (n + 1) := by
  have hstep := counters_write cap self (.add key 1) key
  rw [Write.added, if_pos rfl] at hstep
  dsimp only at hstep
  refine hstep.trans ?_
  rw [Counted] at h
  rw [h, if_neg (Nat.succ_ne_zero n)]
  split
  · rename_i hzero
    rw [hzero]
    rfl
  · simp only [Option.getD_some, Option.some.injEq]
    omega

theorem counters_add_of_ne {other : K} (h : other ≠ key) (delta : ℕ) :
    (self.add cap other delta).counters[key]? = self.counters[key]? := by
  have hstep := counters_write cap self (.add other delta) key
  rw [Write.added, if_neg h] at hstep
  exact hstep

theorem gauges_set_self (value : ℕ) : (self.set key value).gauges[key]? = some value := by
  have hstep := gauges_write 0 self (.set key value) key
  rw [Write.value, if_pos rfl] at hstep
  exact hstep

theorem gauges_set_of_ne {other : K} (h : other ≠ key) (value : ℕ) :
    (self.set other value).gauges[key]? = self.gauges[key]? := by
  have hstep := gauges_write 0 self (.set other value) key
  rw [Write.value, if_neg h] at hstep
  exact hstep

end Counted

/-! ## Histories of events that write

The other way to use the registry: events of some type, each of which is a few writes. A counter
or gauge is then expressed by the events that write to it. -/

section Events

variable [DecidableEq K] {E : Type} {writes_of : E → List (Write K)} {key : K}

/-- A counter that some events add one to counts those events. -/
theorem total_eq_countP {p : E → Bool}
    (h : ∀ event, (writes_of event).filterMap (Write.added key) = if p event then [1] else [])
    (events : List E) :
    total key (events.flatMap writes_of)
      = if events.countP p = 0 then none else some (events.countP p) := by
  -- each event with `p` adds one, and the others add nothing
  have hadded : (events.flatMap writes_of).filterMap (Write.added key)
      = List.replicate (events.countP p) 1 := by
    induction events with
    | nil => rfl
    | cons event events ih =>
        rw [List.flatMap_cons, List.filterMap_append, h, ih]
        by_cases hp : p event = true
        · rw [if_pos hp, List.countP_cons_of_pos hp, List.replicate_succ, List.singleton_append]
        · rw [if_neg hp, List.countP_cons_of_neg hp, List.nil_append]
  rw [total, hadded]
  cases events.countP p with
  | zero => rfl
  | succ n =>
      have hsum : (List.replicate (n + 1) 1).sum = n + 1 := by
        rw [List.sum_replicate_nat, Nat.mul_one]
      rw [if_neg (Nat.succ_ne_zero n)]
      exact congrArg some hsum

/-- A gauge that an event sets at most once shows what the last of those events set. -/
theorem latest_eq_getLast? {value : E → Option ℕ}
    (h : ∀ event, (writes_of event).filterMap (Write.value key) = (value event).toList)
    (events : List E) :
    latest key (events.flatMap writes_of) = (events.filterMap value).getLast? := by
  have hset : (events.flatMap writes_of).filterMap (Write.value key) = events.filterMap value := by
    induction events with
    | nil => rfl
    | cons event events ih =>
        rw [List.flatMap_cons, List.filterMap_append, h, ih]
        cases hvalue : value event with
        | none => rw [List.filterMap_cons_none hvalue]; rfl
        | some v => rw [List.filterMap_cons_some hvalue]; rfl
  rw [latest, hset]

end Events

end Registry

end Xrc
