/-
Answers from outside, read in many places at once. The caller sends a context along with its
question. Each reader reduces the raw answer it got, under that context, to a value and writes
the value down; the caller reads what was written.

Whatever the two forms are, as long as they can be read back: the caller gets the reduction of
a raw answer (`read_transformed`), and two readers write the same exactly if their raw answers
have the same reduction (`transformed_alike_iff`), whatever else they differ in.
-/
import Mathlib.Tactic.Common

set_option autoImplicit false

namespace Xrc

/-- A way to write values down and to read them back. Decoding may accept more than what encoding
writes; nothing is assumed about that. -/
structure Codec (E B α : Type) where
  encode : α → Except E B
  decode : B → Except E α
  decode_encode : ∀ {a : α} {b : B}, encode a = .ok b → decode b = .ok a

namespace Codec

variable {E B α : Type} (self : Codec E B α)

/-- Different values are written differently. -/
theorem encode_inj {a a' : α} {b : B} (h : self.encode a = .ok b) (h' : self.encode a' = .ok b) :
    a = a' := by
  have hread := (self.decode_encode h).symm.trans (self.decode_encode h')
  exact Except.ok.inj hread

/-- A form for one value only. -/
def single [DecidableEq α] [DecidableEq B] (value : α) (text : B) (error : E) : Codec E B α where
  encode a := if a = value then .ok text else .error error
  decode b := if b = text then .ok value else .error error
  decode_encode := by
    intro a b h
    by_cases ha : a = value
    · rw [if_pos ha] at h
      rw [if_pos (Except.ok.inj h).symm, ha]
    · rw [if_neg ha] at h
      cases h

end Codec

/-- What a reader does with a raw answer. -/
structure Relay (E B C Raw R T : Type) where
  context : Codec E B C
  result : Codec E B R
  /-- The value of a raw answer, or a trap. -/
  reduce : C → Raw → Except T R
  /-- The trap on a context that cannot be read. -/
  unread : E → T
  /-- The trap on a value that cannot be written. -/
  unwritten : R → E → T

namespace Relay

variable {E B C Raw R T : Type}

/-- One reader. -/
def transform (self : Relay E B C Raw R T) (context : B) (raw : Raw) : Except T B :=
  match self.context.decode context with
  | .error e => .error (self.unread e)
  | .ok c =>
    match self.reduce c raw with
    | .error t => .error t
    | .ok value =>
      match self.result.encode value with
      | .error e => .error (self.unwritten value e)
      | .ok written => .ok written

variable {self : Relay E B C Raw R T} {c : C} {context written : B} {raw : Raw}

/-- A reader with the context of the caller writes the reduction under it. -/
theorem transform_eq_ok_iff (hcontext : self.context.encode c = .ok context) :
    self.transform context raw = .ok written
      ↔ ∃ value, self.reduce c raw = .ok value ∧ self.result.encode value = .ok written := by
  rw [transform, self.context.decode_encode hcontext]
  dsimp only
  cases hreduce : self.reduce c raw with
  | error t => simp
  | ok value => cases hencode : self.result.encode value <;> simp [hencode]

/-- **The caller reads a reduction.** This is all that a caller needs to know about an outcall:
the value was reduced from the raw response, by its own context. -/
theorem read_transformed (hcontext : self.context.encode c = .ok context)
    (h : self.transform context raw = .ok written) :
    ∃ value, self.reduce c raw = .ok value ∧ self.result.decode written = .ok value := by
  obtain ⟨value, hreduce, hencode⟩ := (transform_eq_ok_iff hcontext).mp h
  exact ⟨value, hreduce, self.result.decode_encode hencode⟩

/-- **When readers agree.** A reader writes what another one wrote exactly if its own raw answer
has the same reduction. -/
theorem transformed_alike_iff {raw' : Raw} (hcontext : self.context.encode c = .ok context)
    (h : self.transform context raw = .ok written) :
    self.transform context raw' = .ok written ↔ self.reduce c raw' = self.reduce c raw := by
  obtain ⟨value, hreduce, hencode⟩ := (transform_eq_ok_iff hcontext).mp h
  rw [transform_eq_ok_iff hcontext, hreduce]
  constructor
  · rintro ⟨value', hreduce', hencode'⟩
    rw [hreduce', self.result.encode_inj hencode' hencode]
  · intro hreduce'
    exact ⟨value, hreduce', hencode⟩

end Relay

end Xrc
