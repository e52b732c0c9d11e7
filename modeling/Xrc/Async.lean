/-
Resumable computations over a shared state: what an `async` function is once it runs.

Between two suspension points such a function is a state transformer; at a suspension
point it has issued a call, owns the guards that are alive there and waits for the
answer, while anything may happen to the shared state. `Async` is the tree of these
segments. `run` drives one computation to its end in a `World` that answers the calls
and changes the state meanwhile; `Holds` is the program logic, a contract for every
segment of the tree, for whatever answers and whatever interference.

Nothing here names a particular program: the state `σ`, the guards `γ`, the calls `κ`
with their answers `ρ` and the result `α` are parameters.
-/
import Mathlib.Data.List.Basic
import Mathlib.Tactic.Common

set_option autoImplicit false

namespace Xrc

/-- A computation over the shared state `σ`, up to its suspension points. The guards are part of a
suspension because they live across it: Rust drops them when the computation ends, and not when it
is suspended. -/
inductive Async (σ γ κ : Type) (ρ : κ → Type) (α : Type) where
  /-- It has returned `a` and left the state `s`. -/
  | done (s : σ) (a : α)
  /-- It has panicked: the segment is rolled back and the computation is gone. -/
  | trap
  /-- It has left the state `s`, owns the guards `held` and awaits the answer to `call`. -/
  | await (s : σ) (held : List γ) (call : κ) (resume : ρ call → σ → Async σ γ κ ρ α)

/-- What surrounds a computation: how its `n`-th call is answered, and what has become of the
shared state by the time it is resumed. In a run of the whole canister this is what the other
requests have done in the meantime; for a single computation it is arbitrary. -/
structure World (σ κ : Type) (ρ : κ → Type) where
  respond : ℕ → (call : κ) → σ → ρ call × σ

namespace Async

variable {σ γ κ : Type} {ρ : κ → Type} {α β : Type}

/-! ## Composition

A caller changes a computation in two ways only: it goes on with the result, or it keeps a guard
alive around the whole of it. Both act on every segment, so that each notion below has a lemma
for `map` and one for `guarded`, and the proofs about a handler follow the way it is put
together. -/

/-- Post-process the result. -/
def map (f : α → β) : Async σ γ κ ρ α → Async σ γ κ ρ β
  | done s a => done s (f a)
  | trap => trap
  | await s held call resume => await s held call fun answer s' => map f (resume answer s')

/-- Keep the guard `g` alive over the whole computation and drop it at its end. -/
def guarded (g : γ) (drop : σ → σ) : Async σ γ κ ρ α → Async σ γ κ ρ α
  | done s a => done (drop s) a
  | trap => trap
  | await s held call resume =>
    await s (g :: held) call fun answer s' => guarded g drop (resume answer s')

/-- Whether it has returned. -/
def isDone : Async σ γ κ ρ α → Bool
  | done _ _ => true
  | _ => false

/-- Post-processing with nothing. -/
theorem map_id : ∀ t : Async σ γ κ ρ α, t.map id = t
  | done s a => rfl
  | trap => rfl
  | await s held call resume => by
    rw [map]
    apply congrArg (await s held call)
    funext answer s'
    exact map_id (resume answer s')

/-- Post-processing twice. -/
theorem map_map {δ : Type} (f : α → β) (g : β → δ) :
    ∀ t : Async σ γ κ ρ α, (t.map f).map g = t.map fun a => g (f a)
  | done s a => rfl
  | trap => rfl
  | await s held call resume => by
    rw [map, map, map]
    apply congrArg (await s held call)
    funext answer s'
    exact map_map f g (resume answer s')

/-! ## Running to the end

A `World` fixes all answers and all interference beforehand. That is no restriction: a statement
about every world is one about every way in which the surroundings may react, since the `n`-th
response may be any function of the call and of the state. -/

/-- The final state and the result, `none` if the computation panics. The calls are
numbered from `n` on. -/
def run (w : World σ κ ρ) : ℕ → Async σ γ κ ρ α → Option (σ × α)
  | _, done s a => some (s, a)
  | _, trap => none
  | n, await s _ call resume =>
    run w (n + 1) (resume (w.respond n call s).1 (w.respond n call s).2)

/-- The calls made on the way, in order. -/
def calls (w : World σ κ ρ) : ℕ → Async σ γ κ ρ α → List κ
  | _, done _ _ => []
  | _, trap => []
  | n, await s _ call resume =>
    call :: calls w (n + 1) (resume (w.respond n call s).1 (w.respond n call s).2)

/-- The same calls, each with the answer it was given. Together with the initial state this
is all a run gets to see of its surroundings, apart from what they do to the shared state. -/
def answered (w : World σ κ ρ) : ℕ → Async σ γ κ ρ α → List ((call : κ) × ρ call)
  | _, done _ _ => []
  | _, trap => []
  | n, await s _ call resume =>
    ⟨call, (w.respond n call s).1⟩
      :: answered w (n + 1) (resume (w.respond n call s).1 (w.respond n call s).2)

/-- The segments of a run, each with the state it started and the one it ended in. -/
def segments (w : World σ κ ρ) : ℕ → σ → Async σ γ κ ρ α → List (σ × σ)
  | _, s₀, done s _ => [(s₀, s)]
  | _, _, trap => []
  | n, s₀, await s _ call resume =>
    (s₀, s) :: segments w (n + 1) (w.respond n call s).2
      (resume (w.respond n call s).1 (w.respond n call s).2)

/-- The result of a run, without the state it leaves behind. -/
def result (w : World σ κ ρ) (n : ℕ) (t : Async σ γ κ ρ α) : Option α := (t.run w n).map Prod.snd

section Run

variable (w : World σ κ ρ) (n : ℕ)

@[simp] theorem run_done (s : σ) (a : α) :
    (done s a : Async σ γ κ ρ α).run w n = some (s, a) := rfl

@[simp] theorem run_await (s : σ) (held : List γ) (call : κ)
    (resume : ρ call → σ → Async σ γ κ ρ α) :
    (await s held call resume).run w n
      = (resume (w.respond n call s).1 (w.respond n call s).2).run w (n + 1) := rfl

@[simp] theorem calls_done (s : σ) (a : α) :
    (done s a : Async σ γ κ ρ α).calls w n = [] := rfl

@[simp] theorem calls_trap : (trap : Async σ γ κ ρ α).calls w n = [] := rfl

@[simp] theorem calls_await (s : σ) (held : List γ) (call : κ)
    (resume : ρ call → σ → Async σ γ κ ρ α) :
    (await s held call resume).calls w n
      = call :: (resume (w.respond n call s).1 (w.respond n call s).2).calls w (n + 1) := rfl

@[simp] theorem answered_done (s : σ) (a : α) :
    (done s a : Async σ γ κ ρ α).answered w n = [] := rfl

@[simp] theorem answered_await (s : σ) (held : List γ) (call : κ)
    (resume : ρ call → σ → Async σ γ κ ρ α) :
    (await s held call resume).answered w n
      = ⟨call, (w.respond n call s).1⟩
        :: (resume (w.respond n call s).1 (w.respond n call s).2).answered w (n + 1) := rfl

/-- Post-processing commutes with running. -/
theorem run_map (f : α → β) : ∀ (t : Async σ γ κ ρ α) (n : ℕ),
    (t.map f).run w n = (t.run w n).map fun r => (r.1, f r.2)
  | done s a, n => rfl
  | trap, n => rfl
  | await s held call resume, n => by
    rw [map, run_await, run_await]
    exact run_map f _ _

/-- A guard is dropped exactly when its computation ends. -/
theorem run_guarded (g : γ) (drop : σ → σ) : ∀ (t : Async σ γ κ ρ α) (n : ℕ),
    (t.guarded g drop).run w n = (t.run w n).map fun r => (drop r.1, r.2)
  | done s a, n => rfl
  | trap, n => rfl
  | await s held call resume, n => by
    rw [guarded, run_await, run_await]
    exact run_guarded g drop _ _

theorem result_eq_some_iff {t : Async σ γ κ ρ α} {a : α} :
    t.result w n = some a ↔ ∃ s, t.run w n = some (s, a) := by
  rw [result, Option.map_eq_some_iff]
  constructor
  · rintro ⟨⟨s, a'⟩, hrun, rfl⟩
    exact ⟨s, hrun⟩
  · rintro ⟨s, hrun⟩
    exact ⟨(s, a), hrun, rfl⟩

theorem result_await (s : σ) (held : List γ) (call : κ)
    (resume : ρ call → σ → Async σ γ κ ρ α) :
    (await s held call resume).result w n
      = (resume (w.respond n call s).1 (w.respond n call s).2).result w (n + 1) := rfl

theorem result_map (f : α → β) (t : Async σ γ κ ρ α) (n : ℕ) :
    (t.map f).result w n = (t.result w n).map f := by
  rw [result, run_map, result, Option.map_map, Option.map_map]
  rfl

/-- A guard does not change what its computation returns. -/
theorem result_guarded (g : γ) (drop : σ → σ) (t : Async σ γ κ ρ α) (n : ℕ) :
    (t.guarded g drop).result w n = t.result w n := by
  rw [result, run_guarded, result, Option.map_map]
  rfl

theorem calls_map (f : α → β) : ∀ (t : Async σ γ κ ρ α) (n : ℕ),
    (t.map f).calls w n = t.calls w n
  | done s a, n => rfl
  | trap, n => rfl
  | await s held call resume, n => by
    rw [map, calls_await, calls_await, calls_map f]

theorem calls_guarded (g : γ) (drop : σ → σ) : ∀ (t : Async σ γ κ ρ α) (n : ℕ),
    (t.guarded g drop).calls w n = t.calls w n
  | done s a, n => rfl
  | trap, n => rfl
  | await s held call resume, n => by
    rw [guarded, calls_await, calls_await, calls_guarded g drop]

theorem answered_map (f : α → β) : ∀ (t : Async σ γ κ ρ α) (n : ℕ),
    (t.map f).answered w n = t.answered w n
  | done s a, n => rfl
  | trap, n => rfl
  | await s held call resume, n => by
    rw [map, answered_await, answered_await, answered_map f]

theorem answered_guarded (g : γ) (drop : σ → σ) : ∀ (t : Async σ γ κ ρ α) (n : ℕ),
    (t.guarded g drop).answered w n = t.answered w n
  | done s a, n => rfl
  | trap, n => rfl
  | await s held call resume, n => by
    rw [guarded, answered_await, answered_await, answered_guarded g drop]

/-- Every answer is one to a call of the run. -/
theorem fst_mem_calls_of_mem_answered {answer : (call : κ) × ρ call} :
    ∀ {t : Async σ γ κ ρ α} {n : ℕ}, answer ∈ t.answered w n → answer.1 ∈ t.calls w n
  | done _ _, _, h => by cases h
  | trap, _, h => by cases h
  | await s held call resume, n, h => by
    rw [answered_await, List.mem_cons] at h
    rw [calls_await]
    rcases h with rfl | h
    · exact List.mem_cons_self
    · exact List.mem_cons_of_mem _ (fst_mem_calls_of_mem_answered h)

theorem segments_map (f : α → β) : ∀ (t : Async σ γ κ ρ α) (n : ℕ) (s₀ : σ),
    (t.map f).segments w n s₀ = t.segments w n s₀
  | done s a, n, s₀ => rfl
  | trap, n, s₀ => rfl
  | await s held call resume, n, s₀ => by
    rw [map, segments, segments, segments_map f]

end Run

/-! ## The program logic

A contract speaks of one segment: the state and the guards it starts with, and those it ends
with. Between two segments nothing is assumed about the state but what the contract says of the
start of the next one, so a proof of `Holds` covers every interleaving with other computations.
The rules follow `map`, `guarded` and sequencing; `Holds.run` and `Holds.segments` bring a
contract back to single runs. -/

/-- What every segment of a computation guarantees, and what it may assume of the answers. A
segment starts in a state with some guards alive; it ends the computation, or suspends it with
some guards alive. It is stated for one segment, so that it can be proved by the structure of a
computation, and used at every suspension point of a run. -/
structure Contract (σ γ κ : Type) (ρ : κ → Type) (α : Type) where
  onDone : σ → List γ → σ → α → Prop
  onAwait : σ → List γ → σ → List γ → κ → Prop
  onTrap : Prop
  answers : (call : κ) → ρ call → Prop

/-- Every segment, the first one started in `s₀` with the guards `held₀`, keeps the contract: for
all answers the contract allows and all states the computation may be resumed in. The definition
is by recursion on the tree, so that a proof of it goes through the handler once. -/
def Holds (C : Contract σ γ κ ρ α) : σ → List γ → Async σ γ κ ρ α → Prop
  | s₀, held₀, done s a => C.onDone s₀ held₀ s a
  | _, _, trap => C.onTrap
  | s₀, held₀, await s held call resume =>
    C.onAwait s₀ held₀ s held call
      ∧ ∀ answer s', C.answers call answer → Holds C s' held (resume answer s')

section Holds

variable {C : Contract σ γ κ ρ α}

/-- The consequence rule, along a post-processing of the result. -/
theorem Holds.map (C : Contract σ γ κ ρ α) (C' : Contract σ γ κ ρ β) {f : α → β}
    (hdone : ∀ s₀ held₀ s a, C.onDone s₀ held₀ s a → C'.onDone s₀ held₀ s (f a))
    (hawait : ∀ s₀ held₀ s held call, C.onAwait s₀ held₀ s held call →
      C'.onAwait s₀ held₀ s held call)
    (htrap : C.onTrap → C'.onTrap)
    (hanswers : ∀ call answer, C'.answers call answer → C.answers call answer) :
    ∀ (t : Async σ γ κ ρ α) (s₀ : σ) (held₀ : List γ), Holds C s₀ held₀ t →
      Holds C' s₀ held₀ (t.map f)
  | done s a, s₀, held₀, h => hdone s₀ held₀ s a h
  | trap, _, _, h => htrap h
  | await s held call _, s₀, held₀, ⟨h, hk⟩ =>
    ⟨hawait s₀ held₀ s held call h, fun answer s' ha =>
      Holds.map C C' hdone hawait htrap hanswers _ _ _ (hk answer s' (hanswers call answer ha))⟩

/-- The rule of guards: the last segment also drops the guard, every other one still holds it. So
an inner contract may speak of the guards that are its own, and the outer one adds what surrounds
them. -/
theorem Holds.guarded (C C' : Contract σ γ κ ρ α) {g : γ} {drop : σ → σ}
    (hdone : ∀ s₀ held₀ s a, C.onDone s₀ held₀ s a → C'.onDone s₀ (g :: held₀) (drop s) a)
    (hawait : ∀ s₀ held₀ s held call, C.onAwait s₀ held₀ s held call →
      C'.onAwait s₀ (g :: held₀) s (g :: held) call)
    (htrap : C.onTrap → C'.onTrap)
    (hanswers : ∀ call answer, C'.answers call answer → C.answers call answer) :
    ∀ (t : Async σ γ κ ρ α) (s₀ : σ) (held₀ : List γ), Holds C s₀ held₀ t →
      Holds C' s₀ (g :: held₀) (t.guarded g drop)
  | done s a, s₀, held₀, h => hdone s₀ held₀ s a h
  | trap, _, _, h => htrap h
  | await s held call _, s₀, held₀, ⟨h, hk⟩ =>
    -- the next segment starts with the guard alive, so the rule applies to it again
    ⟨hawait s₀ held₀ s held call h, fun answer s' ha =>
      Holds.guarded C C' hdone hawait htrap hanswers _ _ _ (hk answer s' (hanswers call answer ha))⟩

/-- The rule of sequencing, on the left: what happens before the first segment becomes
part of it. -/
theorem Holds.start {s₀ s₁ : σ} {held₀ held₁ : List γ} {t : Async σ γ κ ρ α}
    (hdone : ∀ s a, C.onDone s₁ held₁ s a → C.onDone s₀ held₀ s a)
    (hawait : ∀ s held call, C.onAwait s₁ held₁ s held call → C.onAwait s₀ held₀ s held call)
    (h : Holds C s₁ held₁ t) : Holds C s₀ held₀ t := by
  cases t with
  | done s a => exact hdone s a h
  | trap => exact h
  | await s held call resume => exact ⟨hawait s held call h.1, h.2⟩

/-- **Soundness of the logic for single runs.** A computation that keeps its contract
ends, in every world whose answers the contract allows, in a state and a result its
last segment guarantees. -/
theorem Holds.run {w : World σ κ ρ} (hw : ∀ n call s, C.answers call (w.respond n call s).1) :
    ∀ (t : Async σ γ κ ρ α) (s₀ : σ) (held₀ : List γ) (n : ℕ) (s' : σ) (a : α),
      Holds C s₀ held₀ t → t.run w n = some (s', a) → ∃ s₁ held₁, C.onDone s₁ held₁ s' a
  | done s a, s₀, held₀, n, s', a', h, hrun => by
    obtain ⟨rfl, rfl⟩ := Prod.mk.inj (Option.some.inj hrun)
    exact ⟨s₀, held₀, h⟩
  | trap, _, _, _, _, _, _, hrun => by cases hrun
  | await s held call resume, s₀, held₀, n, s', a, ⟨_, hk⟩, hrun =>
    Holds.run hw _ _ _ (n + 1) s' a (hk _ _ (hw n call s)) hrun

/-- Every segment of a run keeps the contract. A segment ends in a result or in a call, and which
of the two clauses applies is not said, since most contracts promise the same in both. -/
theorem Holds.segments {w : World σ κ ρ}
    (hw : ∀ n call s, C.answers call (w.respond n call s).1) :
    ∀ (t : Async σ γ κ ρ α) (s₀ : σ) (held₀ : List γ) (n : ℕ), Holds C s₀ held₀ t →
      ∀ p ∈ t.segments w n s₀, (∃ held a, C.onDone p.1 held p.2 a)
        ∨ ∃ held held' call, C.onAwait p.1 held p.2 held' call
  | done s a, s₀, held₀, n, h, p, hp => by
    rw [Async.segments, List.mem_singleton] at hp
    subst hp
    exact Or.inl ⟨held₀, a, h⟩
  | trap, _, _, _, _, _, hp => by cases hp
  | await s held call resume, s₀, held₀, n, ⟨h, hk⟩, p, hp => by
    rw [Async.segments, List.mem_cons] at hp
    -- the segment up to the call, and those of what is resumed after it
    rcases hp with rfl | hp
    · exact Or.inr ⟨held₀, held, call, h⟩
    · exact Holds.segments hw _ _ _ (n + 1) (hk _ _ (hw n call s)) p hp

end Holds

/-! ## Obligations

Two modalities on the tree, some branch and every branch, and one of the kind "sooner or later":
a computation that has not paid is still going to make a call with `p`, unless it fails. They
are what the in-flight set means, namely that an outcall is under way or to come. -/

/-- Some answers and some interference lead to a call with `p`. It is about what the program could
do and not about one run of it, so that it can be assumed of a program that is still suspended. -/
def MayCall (p : κ → Prop) : Async σ γ κ ρ α → Prop
  | done _ _ => False
  | trap => False
  | await _ _ call resume => p call ∨ ∃ answer s, MayCall p (resume answer s)

/-- Whatever the answers and the interference, there is a call with `p`, unless it panics or
ends in a result that has `failed`. -/
def CallsUnless (failed : α → Prop) (p : κ → Prop) : Async σ γ κ ρ α → Prop
  | done _ a => failed a
  | trap => True
  | await _ _ call resume => p call ∨ ∀ answer s, CallsUnless failed p (resume answer s)

/-- What is suspended at `call` is after a call with `p`: it awaits one, or it goes on to make
one, from which only a failure keeps it. -/
def Pursues (failed : α → Prop) (p : κ → Prop) (call : κ)
    (resume : ρ call → σ → Async σ γ κ ρ α) : Prop :=
  p call ∨ (∃ answer s, MayCall p (resume answer s))
    ∧ ∀ answer s, CallsUnless failed p (resume answer s)

/-- Wherever it is suspended, it has `paid` in the segment that ends there, or is after a call
with `p`: for all answers that are allowed and all states it is resumed in. This is how a resource
that is taken early is accounted for by a call that is made late. -/
def Owes (answers : (call : κ) → ρ call → Prop) (failed : α → Prop) (p : κ → Prop)
    (paid : σ → Prop) : Async σ γ κ ρ α → Prop
  | done _ _ => True
  | trap => True
  | await s _ call resume => (paid s ∨ Pursues failed p call resume)
      ∧ ∀ answer s', answers call answer → Owes answers failed p paid (resume answer s')

section Obligations

variable {p : κ → Prop} {answers : (call : κ) → ρ call → Prop} {paid : σ → Prop}
  {failed : α → Prop} {failed' : β → Prop}

theorem mayCall_map {f : α → β} : ∀ {t : Async σ γ κ ρ α}, MayCall p t → MayCall p (t.map f)
  | await _ _ _ _, h => h.imp id fun ⟨answer, s, hlater⟩ => ⟨answer, s, mayCall_map hlater⟩

theorem mayCall_guarded {g : γ} {drop : σ → σ} :
    ∀ {t : Async σ γ κ ρ α}, MayCall p t → MayCall p (t.guarded g drop)
  | await _ _ _ _, h => h.imp id fun ⟨answer, s, hlater⟩ => ⟨answer, s, mayCall_guarded hlater⟩

theorem callsUnless_map {f : α → β} (hf : ∀ a, failed a → failed' (f a)) :
    ∀ {t : Async σ γ κ ρ α}, CallsUnless failed p t → CallsUnless failed' p (t.map f)
  | done _ a, h => hf a h
  | trap, _ => trivial
  | await _ _ _ _, h => h.imp id fun hlater answer s => callsUnless_map hf (hlater answer s)

theorem callsUnless_guarded {g : γ} {drop : σ → σ} :
    ∀ {t : Async σ γ κ ρ α}, CallsUnless failed p t → CallsUnless failed p (t.guarded g drop)
  | done _ _, h => h
  | trap, _ => trivial
  | await _ _ _ _, h => h.imp id fun hlater answer s => callsUnless_guarded (hlater answer s)

theorem Pursues.map {f : α → β} (hf : ∀ a, failed a → failed' (f a)) {call : κ}
    {resume : ρ call → σ → Async σ γ κ ρ α} (h : Pursues failed p call resume) :
    Pursues failed' p call fun answer s => (resume answer s).map f := by
  rcases h with hnow | ⟨⟨answer, s, hmay⟩, hlater⟩
  · exact Or.inl hnow
  · refine Or.inr ⟨⟨answer, s, mayCall_map hmay⟩, ?_⟩
    intro answer s
    exact callsUnless_map hf (hlater answer s)

theorem Pursues.guarded {g : γ} {drop : σ → σ} {call : κ}
    {resume : ρ call → σ → Async σ γ κ ρ α} (h : Pursues failed p call resume) :
    Pursues failed p call fun answer s => (resume answer s).guarded g drop := by
  rcases h with hnow | ⟨⟨answer, s, hmay⟩, hlater⟩
  · exact Or.inl hnow
  · refine Or.inr ⟨⟨answer, s, mayCall_guarded hmay⟩, ?_⟩
    intro answer s
    exact callsUnless_guarded (hlater answer s)

/-- Post-processing discharges nothing, as long as it does not hide a failure. -/
theorem Owes.map {f : α → β} (hf : ∀ a, failed a → failed' (f a)) :
    ∀ {t : Async σ γ κ ρ α}, Owes answers failed p paid t → Owes answers failed' p paid (t.map f)
  | done _ _, _ => trivial
  | trap, _ => trivial
  | await _ _ _ _, ⟨hnow, hlater⟩ =>
    ⟨hnow.imp id (Pursues.map hf), fun answer s' hanswer => Owes.map hf (hlater answer s' hanswer)⟩

/-- Nor do guards, as long as dropping them is not what pays. -/
theorem Owes.guarded {g : γ} {drop : σ → σ} :
    ∀ {t : Async σ γ κ ρ α}, Owes answers failed p paid t →
      Owes answers failed p paid (t.guarded g drop)
  | done _ _, _ => trivial
  | trap, _ => trivial
  | await _ _ _ _, ⟨hnow, hlater⟩ =>
    ⟨hnow.imp id Pursues.guarded, fun answer s' hanswer => Owes.guarded (hlater answer s' hanswer)⟩

/-- A call that is possible is made in a segment that keeps the contract, if that allows
all answers. -/
theorem MayCall.holds {C : Contract σ γ κ ρ α} (hall : ∀ call answer, C.answers call answer) :
    ∀ {t : Async σ γ κ ρ α} {s₀ : σ} {held₀ : List γ}, MayCall p t → Holds C s₀ held₀ t →
      ∃ a held b held' call, C.onAwait a held b held' call ∧ p call
  | await s held' call resume, s₀, held₀, hcall, ⟨hawait, hlater⟩ => by
    rcases hcall with hnow | ⟨answer, s', hmay⟩
    · exact ⟨s₀, held₀, s, held', call, hawait, hnow⟩
    · exact MayCall.holds hall hmay (hlater answer s' (hall call answer))

end Obligations

/-! ## Bounded computations

There is no recursion over time in the source: a handler has a fixed number of suspension
points. `AwaitsAtMost` counts them, and with `EndsIn` it says how a computation ends, if it
ends. -/

/-- It ends in a result with `P`, if at all, whatever the answers and the interference. A trap
ends in no result, and so has nothing to satisfy. -/
def EndsIn (P : α → Prop) : Async σ γ κ ρ α → Prop
  | done _ a => P a
  | trap => True
  | await _ _ _ resume => ∀ answer s, EndsIn P (resume answer s)

/-- It is suspended `n` times at most, whatever the answers and the interference. The bound is on
every path, which a program with loops would not have; the handlers have none that awaits. -/
def AwaitsAtMost : ℕ → Async σ γ κ ρ α → Prop
  | _, done _ _ => True
  | _, trap => True
  | 0, await _ _ _ _ => False
  | n + 1, await _ _ _ resume => ∀ answer s, AwaitsAtMost n (resume answer s)

section Bounded

@[simp] theorem awaitsAtMost_done (n : ℕ) (s : σ) (a : α) :
    AwaitsAtMost n (done s a : Async σ γ κ ρ α) := by
  cases n <;> trivial

@[simp] theorem awaitsAtMost_trap (n : ℕ) : AwaitsAtMost n (trap : Async σ γ κ ρ α) := by
  cases n <;> trivial

theorem AwaitsAtMost.succ : ∀ {n : ℕ} {t : Async σ γ κ ρ α}, AwaitsAtMost n t →
    AwaitsAtMost (n + 1) t
  | _, done _ _, _ => trivial
  | _, trap, _ => trivial
  | _ + 1, await _ _ _ _, h => fun answer s => AwaitsAtMost.succ (h answer s)

theorem AwaitsAtMost.map {f : α → β} : ∀ {n : ℕ} {t : Async σ γ κ ρ α}, AwaitsAtMost n t →
    AwaitsAtMost n (t.map f)
  | _, done _ _, _ => awaitsAtMost_done _ _ _
  | _, trap, _ => awaitsAtMost_trap _
  | _ + 1, await _ _ _ _, h => fun answer s => AwaitsAtMost.map (h answer s)

theorem AwaitsAtMost.guarded {g : γ} {drop : σ → σ} : ∀ {n : ℕ} {t : Async σ γ κ ρ α},
    AwaitsAtMost n t → AwaitsAtMost n (t.guarded g drop)
  | _, done _ _, _ => awaitsAtMost_done _ _ _
  | _, trap, _ => awaitsAtMost_trap _
  | _ + 1, await _ _ _ _, h => fun answer s => AwaitsAtMost.guarded (h answer s)

end Bounded

section EndsIn

variable {P : α → Prop} {Q : β → Prop}

theorem EndsIn.map {f : α → β} (hf : ∀ a, P a → Q (f a)) : ∀ {t : Async σ γ κ ρ α},
    EndsIn P t → EndsIn Q (t.map f)
  | done _ a, h => hf a h
  | trap, _ => trivial
  | await _ _ _ _, h => fun answer s => EndsIn.map hf (h answer s)

/-- A family of contracts that bounds the results, each of them some. -/
theorem EndsIn.of_holds {ι : Type} {C : ι → Contract σ γ κ ρ α}
    (hdone : ∀ s₀ held₀ s a, (∀ i, (C i).onDone s₀ held₀ s a) → P a)
    (hanswers : ∀ i call answer, (C i).answers call answer) :
    ∀ {t : Async σ γ κ ρ α} {s₀ : σ} {held₀ : List γ}, (∀ i, Holds (C i) s₀ held₀ t) →
      EndsIn P t
  | done s a, s₀, held₀, h => hdone s₀ held₀ s a h
  | trap, _, _, _ => trivial
  | await _ _ call _, _, _, h => fun answer s =>
    EndsIn.of_holds hdone hanswers fun i => (h i).2 answer s (hanswers i call answer)

end EndsIn

/-! ## Larger states

A computation that is written for the state of the handlers runs on the state of the whole
canister and leaves the rest of it alone, until `last` records the result. -/

/-- The same computation over a larger state, of which it sees and replaces a part, with `last`
done to the whole of it at the end. -/
def within {τ : Type} (get : τ → σ) (set : σ → τ → τ) (last : τ → α → τ) :
    τ → Async σ γ κ ρ α → Async τ γ κ ρ α
  | t, done s a => done (last (set s t) a) a
  | _, trap => trap
  | t, await s held call resume =>
    await (set s t) held call fun answer t' => within get set last t' (resume answer (get t'))

theorem EndsIn.within {τ : Type} {get : τ → σ} {set : σ → τ → τ} {last : τ → α → τ}
    {P : α → Prop} : ∀ {c : Async σ γ κ ρ α} {t : τ}, EndsIn P c →
      EndsIn P (within get set last t c)
  | done _ _, _, h => h
  | trap, _, _ => trivial
  | await _ _ _ _, _, h => fun answer t' => EndsIn.within (h answer (get t'))

end Async

end Xrc
