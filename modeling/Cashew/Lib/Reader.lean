import Cashew.Lib.Decoder

/-!
# Readers with a machine offset

A parser that keeps an offset into its buffer and tests `offset + n > size` in machine
arithmetic. The sum wraps, so a test that passes does not keep the read that follows
inside the buffer: a `Reader` has outcomes for a value with the offset behind it, for an
error of its own, for a read outside the buffer and for memory it is refused, and one for
a recursion that is cut off.

* `Reader.more` and `Reader.byte`, `Reader.require` and `Reader.slice` — a test and the
  read behind it;
* `Reads` — a reader returns what was written, from some offset on; closed under
  sequencing (`Reads.bind`);
* `ReadOutcome.Escapes` — the two outcomes that are neither a value nor an error;
* `ReadOutcome.Follows` — a reading returns where a grammar says a field ends, and escapes
  exactly when a condition holds; closed under sequencing (`Follows.bind`). A test and
  its slice escape exactly when their sum wraps (`Follows.slice`).
-/

namespace Cashew.Lib

/-- What becomes of reading at an offset. -/
inductive ReadOutcome (ε α : Type) where
  | returns (a : α) (offset : Nat)
  | throws (e : ε)
  | outside
  | refused
  | outOfFuel
  deriving DecidableEq

/-- A reader is given the offset to read at. -/
def Reader (ε α : Type) := Nat → ReadOutcome ε α

namespace Reader

variable {ε α β : Type}

instance : Monad (Reader ε) where
  pure a := fun o => .returns a o
  bind x f := fun o =>
    match x o with
    | .returns a o' => f a o'
    | .throws e => .throws e
    | .outside => .outside
    | .refused => .refused
    | .outOfFuel => .outOfFuel

theorem bind_apply (x : Reader ε α) (f : α → Reader ε β) (o : Nat) :
    (x >>= f) o =
      match x o with
      | .returns a o' => f a o'
      | .throws e => .throws e
      | .outside => .outside
      | .refused => .refused
      | .outOfFuel => .outOfFuel := rfl

/-- `throw e`. -/
def throw (e : ε) : Reader ε α := fun _ => .throws e

/-- Memory for as many elements as a container cannot have. -/
def refuse : Reader ε α := fun _ => .refused

/-- The recursion is cut off. -/
def cutOff : Reader ε α := fun _ => .outOfFuel

/-- `if (offset >= size) throw e`. -/
def more (e : ε) (buffer : Bytes) : Reader ε Unit := fun o =>
  if buffer.length ≤ o then .throws e else .returns () o

/-- `if (offset + n > size) throw e`, with the sum in 64 bits. -/
def require (e : ε) (buffer : Bytes) (n : Nat) : Reader ε Unit := fun o =>
  if buffer.length < (o + n) % 2 ^ 64 then .throws e else .returns () o

/-- `buffer[offset++]`. -/
def byte (buffer : Bytes) : Reader ε UInt8 := fun o =>
  match buffer[o]? with
  | some b => .returns b (o + 1)
  | none => .outside

/-- The next `n` bytes of the buffer, wherever the offset is. -/
def slice (buffer : Bytes) (n : Nat) : Reader ε Bytes := fun o =>
  if o + n ≤ buffer.length then .returns ((buffer.drop o).take n) (o + n) else .outside

end Reader

/-! ## Reading back what was written -/

/-- Wherever the buffer has these bytes at `start` or behind it, the reader returns the
value and stops right behind them. -/
def Reads {ε α : Type} (buffer : Bytes) (start : Nat) (x : Reader ε α) (field : Bytes) (a : α) :
    Prop :=
  ∀ front back, buffer = front ++ (field ++ back) → start ≤ front.length →
    x front.length = .returns a (front.length + field.length)

namespace Reads

variable {ε α β : Type} {buffer : Bytes} {start : Nat}

theorem pure (a : α) : Reads buffer start (Pure.pure a : Reader ε α) [] a :=
  fun _ _ _ _ => rfl

theorem bind {x : Reader ε α} {f : α → Reader ε β} {first second : Bytes} {a : α} {b : β}
    (hx : Reads buffer start x first a) (hf : Reads buffer (start + first.length) (f a) second b) :
    Reads buffer start (x >>= f) (first ++ second) b := by
  intro front back hbuffer hstart
  -- what the second reads is behind what the first has read
  have hfirst := hx front (second ++ back) (by rw [hbuffer, List.append_assoc]) hstart
  have hsecond := hf (front ++ first) back (by rw [hbuffer]; simp) (by
    rw [List.length_append]
    omega)
  rw [List.length_append] at hsecond
  rw [Reader.bind_apply, hfirst, List.length_append, ← Nat.add_assoc]
  exact hsecond

/-- The last of several readers may be followed by what makes the value. -/
theorem map {x : Reader ε α} {f : α → β} {field : Bytes} {a : α}
    (hx : Reads buffer start x field a) :
    Reads buffer start (do let a ← x; Pure.pure (f a) : Reader ε β) field (f a) := by
  have hbind := hx.bind (f := fun a => Pure.pure (f a)) (pure (f a))
  rwa [List.append_nil] at hbind

/-- The field is part of the buffer. -/
theorem of_length {x : Reader ε α} {field : Bytes} {a : α}
    (h : start + field.length ≤ buffer.length → Reads buffer start x field a) :
    Reads buffer start x field a := by
  intro front back hbuffer hstart
  refine h ?_ front back hbuffer hstart
  rw [hbuffer, List.length_append, List.length_append]
  omega

/-- A test that passes, in front of the bytes it is about. -/
theorem require {e : ε} {n : Nat} {f : Unit → Reader ε β} {field : Bytes} {b : β}
    (hsize : buffer.length < 2 ^ 64) (hn : n ≤ field.length)
    (hf : Reads buffer start (f ()) field b) :
    Reads buffer start (Reader.require e buffer n >>= f) field b := by
  intro front back hbuffer hstart
  have hlen : front.length + field.length ≤ buffer.length := by
    rw [hbuffer, List.length_append, List.length_append]
    omega
  rw [Reader.bind_apply, Reader.require, Nat.mod_eq_of_lt (by omega), if_neg (by omega)]
  exact hf front back hbuffer hstart

theorem more {e : ε} {f : Unit → Reader ε β} {field : Bytes} {b : β} (hfield : field ≠ [])
    (hf : Reads buffer start (f ()) field b) :
    Reads buffer start (Reader.more e buffer >>= f) field b := by
  intro front back hbuffer hstart
  have hpos := List.length_pos_iff.mpr hfield
  have hlen : front.length + field.length ≤ buffer.length := by
    rw [hbuffer, List.length_append, List.length_append]
    omega
  rw [Reader.bind_apply, Reader.more, if_neg (by omega)]
  exact hf front back hbuffer hstart

theorem slice (field : Bytes) :
    Reads buffer start (Reader.slice buffer field.length : Reader ε Bytes) field field := by
  intro front back hbuffer _
  rw [Reader.slice, hbuffer, if_pos (by simp), List.drop_left, List.take_left]

theorem byte (b : UInt8) : Reads buffer start (Reader.byte buffer : Reader ε UInt8) [b] b := by
  intro front back hbuffer _
  have hat : buffer[front.length]? = some b := by
    rw [hbuffer, List.getElem?_append_right (le_refl _), Nat.sub_self]
    rfl
  rw [Reader.byte, hat]
  rfl

end Reads

namespace ReadOutcome

variable {ε α β : Type}

/-- Neither a value nor an error of the reader's own. -/
def Escapes (r : ReadOutcome ε α) : Prop := r = .outside ∨ r = .refused

/-- The reading ends in a value exactly where `G` says, escapes exactly if `B` holds,
and is not cut off. -/
structure Follows (r : ReadOutcome ε α) (G : Nat → Prop) (B : Prop) : Prop where
  ends : ∀ o, (∃ a, r = .returns a o) ↔ G o
  escapes : r.Escapes ↔ B
  fueled : r ≠ .outOfFuel

namespace Follows

theorem returns {a : α} {o : Nat} {G : Nat → Prop} {B : Prop} (hG : ∀ o', G o' ↔ o = o')
    (hB : ¬ B) : Follows (.returns a o : ReadOutcome ε α) G B where
  ends o' := by
    rw [hG]
    constructor
    · rintro ⟨_, h⟩
      cases h
      rfl
    · rintro rfl
      exact ⟨a, rfl⟩
  escapes := iff_of_false (by rintro (h | h) <;> cases h) hB
  fueled h := by cases h

theorem throws {e : ε} {G : Nat → Prop} {B : Prop} (hG : ∀ o, ¬ G o) (hB : ¬ B) :
    Follows (.throws e : ReadOutcome ε α) G B where
  ends o := iff_of_false (by rintro ⟨_, h⟩; cases h) (hG o)
  escapes := iff_of_false (by rintro (h | h) <;> cases h) hB
  fueled h := by cases h

theorem escaping {r : ReadOutcome ε α} {G : Nat → Prop} {B : Prop} (hr : r.Escapes)
    (hG : ∀ o, ¬ G o) (hB : B) : Follows r G B where
  ends o := by
    refine iff_of_false ?_ (hG o)
    rintro ⟨_, rfl⟩
    rcases hr with h | h <;> cases h
  escapes := iff_of_true hr hB
  fueled := by
    rintro rfl
    rcases hr with h | h <;> cases h

theorem congr {r : ReadOutcome ε α} {G G' : Nat → Prop} {B B' : Prop} (h : Follows r G B)
    (hG : ∀ o, G' o ↔ G o) (hB : B' ↔ B) : Follows r G' B' :=
  ⟨fun o => (h.ends o).trans (hG o).symm, h.escapes.trans hB.symm, h.fueled⟩

theorem not_ends {r : ReadOutcome ε α} {G : Nat → Prop} {B : Prop} (h : Follows r G B)
    (hr : ∀ a o, r ≠ .returns a o) (o : Nat) : ¬ G o := by
  intro hG
  obtain ⟨a, ha⟩ := (h.ends o).mpr hG
  exact hr a o ha

/-- One reading after another: the second starts where the first ends. -/
theorem bind {x : Reader ε α} {f : α → Reader ε β} {o : Nat} {G : Nat → Prop} {B : Prop}
    {K : Nat → Nat → Prop} {C : Nat → Prop} (hx : Follows (x o) G B)
    (hf : ∀ a o', G o' → Follows (f a o') (K o') (C o')) :
    Follows ((x >>= f) o) (fun o'' => ∃ o', G o' ∧ K o' o'') (B ∨ ∃ o', G o' ∧ C o') := by
  rw [Reader.bind_apply]
  cases hr : x o with
  | returns a o' =>
    rw [hr] at hx
    have hend : ∀ j, G j ↔ o' = j := by
      intro j
      rw [← hx.ends j]
      constructor
      · rintro ⟨_, h⟩
        cases h
        rfl
      · rintro rfl
        exact ⟨a, rfl⟩
    have hB : ¬ B := by
      rw [← hx.escapes]
      rintro (h | h) <;> cases h
    refine (hf a o' ((hend o').mpr rfl)).congr (fun j => ?_) ?_
    · simp [hend]
    · simp [hend, hB]
  | throws e =>
    rw [hr] at hx
    have hend := hx.not_ends fun _ _ h => by cases h
    have hB : ¬ B := by
      rw [← hx.escapes]
      rintro (h | h) <;> cases h
    exact throws (by simp [hend]) (by simp [hend, hB])
  | outside =>
    rw [hr] at hx
    have hend := hx.not_ends fun _ _ h => by cases h
    exact escaping (.inl rfl) (by simp [hend]) (.inl (hx.escapes.mp (.inl rfl)))
  | refused =>
    rw [hr] at hx
    have hend := hx.not_ends fun _ _ h => by cases h
    exact escaping (.inr rfl) (by simp [hend]) (.inl (hx.escapes.mp (.inr rfl)))
  | outOfFuel => exact absurd hr hx.fueled

/-- What is made of the value afterwards does not matter. -/
theorem map {x : Reader ε α} {f : α → β} {o : Nat} {G : Nat → Prop} {B : Prop}
    (hx : Follows (x o) G B) :
    Follows ((do let a ← x; pure (f a) : Reader ε β) o) G B := by
  have hbind := hx.bind (f := fun a => pure (f a)) (K := fun o' o'' => o' = o'')
    (C := fun _ => False) fun a o' _ => returns (fun _ => Iff.rfl) not_false
  exact hbind.congr (fun j => by simp) (by simp)

/-- A test and the bytes behind it: the test misses exactly the sums that wrap. -/
theorem slice {e : ε} {buffer : Bytes} {o n : Nat} (hsize : buffer.length < 2 ^ 63)
    (ho : o ≤ buffer.length) (hn : n < 2 ^ 64) :
    Follows ((do
        Reader.require e buffer n
        Reader.slice buffer n : Reader ε Bytes) o)
      (fun o' => o + n ≤ buffer.length ∧ o + n = o') (2 ^ 64 ≤ o + n) := by
  rw [Reader.bind_apply, Reader.require]
  by_cases hwraps : 2 ^ 64 ≤ o + n
  · -- the sum wraps to something small and passes the test
    rw [if_neg (by omega)]
    dsimp only
    rw [Reader.slice, if_neg (by omega)]
    exact escaping (.inl rfl) (fun o' h => by omega) hwraps
  · rw [Nat.mod_eq_of_lt (by omega)]
    by_cases hend : o + n ≤ buffer.length
    · rw [if_neg (by omega)]
      dsimp only
      rw [Reader.slice, if_pos hend]
      exact returns (fun o' => and_iff_right hend) hwraps
    · rw [if_pos (by omega)]
      exact throws (fun o' h => hend h.1) hwraps

end Follows

end ReadOutcome

end Cashew.Lib
