import Mathlib

/-!
# Searching and editing text

Texts are lists of characters. The first half is the search functions of a string library
with what they find; the second half is passes that go through a text looking for a pattern
and edit it where they find it (`Pass`). A pass need not come to an end: `Ends` says that it
does, `Visits` which places it comes to, and `run` computes with a bound on the number of
rounds.

An occurrence of a tag is exposed if a closing mark follows it. Erasing a span can expose a
tag in one way only, by joining a beginning of the tag in front of the span to the rest of it
behind (`Joins`).
-/

namespace Cashew.Lib

variable {α : Type}

/-- `std::isspace` in the C locale. -/
def isSpace (b : UInt8) : Bool := b = 32 ∨ 9 ≤ b ∧ b ≤ 13

/-! ## Search -/

/-- The pattern stands at the position. -/
def OccursAt (pattern text : List α) (i : Nat) : Prop := pattern <+: text.drop i

theorem OccursAt.length_le {pattern text : List α} {i : Nat} (h : OccursAt pattern text i)
    (hne : pattern ≠ []) : i + pattern.length ≤ text.length := by
  have hlength := List.IsPrefix.length_le h
  have hpos : 0 < pattern.length := List.length_pos_iff.mpr hne
  rw [List.length_drop] at hlength
  omega

theorem occursAt_singleton {char : α} {text : List α} {i : Nat} :
    OccursAt [char] text i ↔ text[i]? = some char := by
  unfold OccursAt
  rw [← List.head?_drop]
  cases text.drop i with
  | nil => simp
  | cons first rest => simp [eq_comm]

/-- A character that is there has a last place. -/
theorem exists_last {char : α} {text : List α} (h : char ∈ text) :
    ∃ front back, text = front ++ char :: back ∧ char ∉ back := by
  obtain ⟨front, back, heq, hnot⟩ := List.eq_append_cons_of_mem (List.mem_reverse.mpr h)
  refine ⟨back.reverse, front.reverse, ?_, fun hmem => hnot (List.mem_reverse.mp hmem)⟩
  rw [← List.reverse_reverse text, heq]
  simp

variable [DecidableEq α]

instance (pattern text : List α) (i : Nat) : Decidable (OccursAt pattern text i) :=
  inferInstanceAs (Decidable (pattern <+: text.drop i))

/-- The first occurrence from a position on. -/
def findFrom (pattern text : List α) (pos : Nat) : Option Nat :=
  ((List.range (text.length + 1 - pos)).find? fun k => OccursAt pattern text (pos + k)).map
    (pos + ·)

/-- The last place up to a position with this character. -/
def rfindChar (char : α) (text : List α) (pos : Nat) : Option Nat :=
  (List.range (pos + 1)).reverse.find? fun i => text[i]? = some char

/-- The first place from a position on with one of these characters. -/
def findFirstOf (chars text : List α) (pos : Nat) : Option Nat :=
  ((List.range (text.length - pos)).find? fun k => text[pos + k]?.any (· ∈ chars)).map (pos + ·)

section Search

variable {pattern text : List α} {i pos : Nat}

theorem findFrom_eq_some_iff :
    findFrom pattern text pos = some i ↔
      pos ≤ i ∧ i ≤ text.length ∧ OccursAt pattern text i ∧
        ∀ j, pos ≤ j → j < i → ¬ OccursAt pattern text j := by
  unfold findFrom
  simp only [Option.map_eq_some_iff, List.find?_range_eq_some, List.mem_range, decide_eq_true_eq,
    Bool.not_eq_true', decide_eq_false_iff_not]
  constructor
  · rintro ⟨k, ⟨hoccurs, hk, hfirst⟩, rfl⟩
    refine ⟨by omega, by omega, hoccurs, fun j hj hji => ?_⟩
    have hbefore := hfirst (j - pos) (by omega)
    rwa [Nat.add_sub_cancel' hj] at hbefore
  · rintro ⟨hpos, hi, hoccurs, hfirst⟩
    refine ⟨i - pos, ⟨?_, by omega, fun j hj => hfirst (pos + j) (by omega) (by omega)⟩, by omega⟩
    rwa [Nat.add_sub_cancel' hpos]

theorem findFrom_eq_none_iff (hne : pattern ≠ []) :
    findFrom pattern text pos = none ↔ ∀ j, pos ≤ j → ¬ OccursAt pattern text j := by
  unfold findFrom
  simp only [Option.map_eq_none_iff, List.find?_range_eq_none, Bool.not_eq_true',
    decide_eq_false_iff_not]
  constructor
  · intro hnone j hj hoccurs
    have hlength := hoccurs.length_le hne
    have hbefore := hnone (j - pos) (by omega)
    rw [Nat.add_sub_cancel' hj] at hbefore
    exact hbefore hoccurs
  · intro hnone k hk
    exact hnone (pos + k) (by omega)

/-- What is found lies inside the text. -/
theorem findFrom_bounds (h : findFrom pattern text pos = some i) (hne : pattern ≠ []) :
    pos ≤ i ∧ i + pattern.length ≤ text.length := by
  obtain ⟨hpos, _, hoccurs, _⟩ := findFrom_eq_some_iff.mp h
  exact ⟨hpos, hoccurs.length_le hne⟩

/-- A character that is searched for and not found is not there. -/
theorem findFrom_char_eq_none_iff {char : α} :
    findFrom [char] text pos = none ↔ char ∉ text.drop pos := by
  rw [findFrom_eq_none_iff (List.cons_ne_nil _ _)]
  simp only [occursAt_singleton]
  constructor
  · intro hnone hmem
    obtain ⟨k, hk⟩ := List.mem_iff_getElem?.mp hmem
    rw [List.getElem?_drop] at hk
    exact hnone (pos + k) (Nat.le_add_right _ _) hk
  · intro hnot j hj hjth
    refine hnot (List.mem_iff_getElem?.mpr ⟨j - pos, ?_⟩)
    rwa [List.getElem?_drop, Nat.add_sub_cancel' hj]

/-- The first place of a character, with what stands in front of it. -/
theorem findFrom_append {char : α} {front back : List α} (h : char ∉ front) :
    findFrom [char] (front ++ char :: back) 0 = some front.length := by
  refine findFrom_eq_some_iff.mpr ⟨Nat.zero_le _, by simp, ?_, ?_⟩
  · rw [occursAt_singleton, List.getElem?_append_right (Nat.le_refl _), Nat.sub_self]
    rfl
  · intro j _ hj hoccurs
    rw [occursAt_singleton, List.getElem?_append_left hj] at hoccurs
    exact h (List.mem_of_getElem? hoccurs)

theorem rfindChar_eq_some_iff {char : α} :
    rfindChar char text pos = some i ↔
      i ≤ pos ∧ text[i]? = some char ∧ ∀ j, i < j → j ≤ pos → text[j]? ≠ some char := by
  unfold rfindChar
  induction pos with
  | zero =>
    by_cases hzero : text[0]? = some char
    · simp [hzero, List.range_succ]
      constructor
      · rintro rfl
        exact ⟨rfl, hzero, fun j hj hle => by omega⟩
      · exact fun hi => hi.1.symm
    · simp [hzero, List.range_succ]
      intro hi heq
      rw [hi] at heq
      exact absurd heq hzero
  | succ pos ih =>
    rw [List.range_succ, List.reverse_append, List.reverse_singleton, List.singleton_append]
    -- the search runs from the end, so the last position is looked at first
    by_cases hlast : text[pos + 1]? = some char
    · rw [List.find?_cons_of_pos (by simpa using hlast)]
      constructor
      · intro hi
        cases hi
        exact ⟨Nat.le_refl _, hlast, fun j hj hle => by omega⟩
      · rintro ⟨hi, _, hnone⟩
        refine congrArg some (Nat.le_antisymm ?_ hi)
        by_contra hlt
        exact hnone (pos + 1) (by omega) (Nat.le_refl _) hlast
    · rw [List.find?_cons_of_neg (by simpa using hlast), ih]
      constructor
      · rintro ⟨hi, hith, hnone⟩
        refine ⟨by omega, hith, fun j hj hle => ?_⟩
        rcases Nat.lt_or_eq_of_le hle with hlt | rfl
        · exact hnone j hj (by omega)
        · exact hlast
      · rintro ⟨hi, hith, hnone⟩
        refine ⟨?_, hith, fun j hj hle => hnone j hj (by omega)⟩
        by_contra hgt
        have heq : i = pos + 1 := by omega
        exact hlast (heq ▸ hith)

/-- The last place of a character, with what stands behind it. -/
theorem rfindChar_append {char : α} {front back : List α} (h : char ∉ back) :
    rfindChar char (front ++ char :: back) (front ++ char :: back).length = some front.length := by
  refine rfindChar_eq_some_iff.mpr ⟨by simp, ?_, ?_⟩
  · rw [List.getElem?_append_right (Nat.le_refl _), Nat.sub_self]
    rfl
  · intro j hj _ hjth
    obtain ⟨k, rfl⟩ : ∃ k, j = front.length + (k + 1) := ⟨j - front.length - 1, by omega⟩
    rw [List.getElem?_append_right (by omega), Nat.add_sub_cancel_left,
      List.getElem?_cons_succ] at hjth
    exact h (List.mem_of_getElem? hjth)

theorem rfindChar_of_not_mem {char : α} (h : char ∉ text) : rfindChar char text pos = none := by
  unfold rfindChar
  refine List.find?_eq_none.mpr fun i _ htest => h ?_
  exact List.mem_of_getElem? (of_decide_eq_true htest)

end Search

/-! ## Passes -/

/-- What is done where a pattern has been found. -/
inductive TextEdit (α : Type) where
  /-- go on one character further -/
  | skip
  /-- erase so many characters and go on there -/
  | erase (count : Nat)
  /-- erase everything from here on and stop -/
  | cut
  /-- go on here, with nothing changed -/
  | stay
  /-- replace so many characters from `start` on, and go on so much further -/
  | replace (start count : Nat) (patch : List α) (advance : Nat)

/-- The text afterwards, and from where on the search continues. -/
def TextEdit.apply (text : List α) (p : Nat) : TextEdit α → List α × Option Nat
  | skip => (text, some (p + 1))
  | erase count => (text.take p ++ text.drop (p + count), some p)
  | cut => (text.take p, none)
  | stay => (text, some p)
  | replace start count patch advance =>
    (text.take start ++ (patch ++ text.drop (start + count)), some (p + advance))

omit [DecidableEq α] in
/-- Only a cut stops the search. -/
theorem TextEdit.apply_stop {e : TextEdit α} {text text' : List α} {p : Nat}
    (h : e.apply text p = (text', none)) : e = .cut ∧ text' = text.take p := by
  cases e with
  | cut =>
    cases h
    exact ⟨rfl, rfl⟩
  | _ => cases h

omit [DecidableEq α] in
/-- What an edit with which the search goes on can do. -/
theorem TextEdit.apply_next {e : TextEdit α} {text text' : List α} {p pos' : Nat}
    (h : e.apply text p = (text', some pos')) :
    (e = .skip ∧ text' = text ∧ pos' = p + 1) ∨
      (∃ count, e = .erase count ∧ text' = text.take p ++ text.drop (p + count) ∧ pos' = p) ∨
      (e = .stay ∧ text' = text ∧ pos' = p) ∨
      ∃ start count patch advance, e = .replace start count patch advance ∧
        text' = text.take start ++ (patch ++ text.drop (start + count)) ∧ pos' = p + advance := by
  cases e with
  | cut => cases h
  | skip =>
    cases h
    exact .inl ⟨rfl, rfl, rfl⟩
  | erase count =>
    cases h
    exact .inr (.inl ⟨count, rfl, rfl, rfl⟩)
  | stay =>
    cases h
    exact .inr (.inr (.inl ⟨rfl, rfl, rfl⟩))
  | replace start count patch advance =>
    cases h
    exact .inr (.inr (.inr ⟨start, count, patch, advance, rfl, rfl, rfl⟩))

/-- It brings the search nearer to the end of the text. -/
def TextEdit.Progress (text : List α) : TextEdit α → Prop
  | skip => True
  | erase count => 0 < count
  | cut => True
  | stay => False
  | replace start count patch advance =>
    start + count ≤ text.length ∧ patch.length ≤ count ∧ (patch.length < count ∨ 0 < advance)

/-- A loop that searches for a pattern and edits where it finds it. -/
structure Pass (α : Type) where
  pattern : List α
  edit : List α → Nat → TextEdit α

namespace Pass

variable (P : Pass α)

/-- Computed, for at most so many rounds. -/
def run : Nat → List α → Nat → Option (List α)
  | 0, _, _ => none
  | fuel + 1, text, pos =>
    match findFrom P.pattern text pos with
    | none => some text
    | some p =>
      match (P.edit text p).apply text p with
      | (text', none) => some text'
      | (text', some pos') => run fuel text' pos'

/-- From here on it comes to an end, and leaves this text. -/
inductive Ends : List α → Nat → List α → Prop
  | done {text : List α} {pos : Nat} (hfind : findFrom P.pattern text pos = none) :
      Ends text pos text
  | stop {text text' : List α} {pos p : Nat} (hfind : findFrom P.pattern text pos = some p)
      (hedit : (P.edit text p).apply text p = (text', none)) : Ends text pos text'
  | next {text text' out : List α} {pos p pos' : Nat}
      (hfind : findFrom P.pattern text pos = some p)
      (hedit : (P.edit text p).apply text p = (text', some pos'))
      (hrest : Ends text' pos' out) : Ends text pos out

/-- From here on it comes to find its pattern at a place in a text. -/
inductive Visits : List α → Nat → List α → Nat → Prop
  | here {text : List α} {pos p : Nat} (hfind : findFrom P.pattern text pos = some p) :
      Visits text pos text p
  | later {text text' there : List α} {pos p pos' q : Nat}
      (hfind : findFrom P.pattern text pos = some p)
      (hedit : (P.edit text p).apply text p = (text', some pos'))
      (hrest : Visits text' pos' there q) : Visits text pos there q

variable {P} {text out : List α} {pos : Nat}

theorem ends_of_run {fuel : Nat} (h : P.run fuel text pos = some out) : P.Ends text pos out := by
  induction fuel generalizing text pos with
  | zero => cases h
  | succ fuel ih =>
    unfold run at h
    split at h
    · rename_i hfind
      cases h
      exact .done hfind
    · rename_i p hfind
      split at h
      · rename_i text' hedit
        cases h
        exact .stop hfind hedit
      · rename_i text' pos' hedit
        exact .next hfind hedit (ih h)

/-- Enough rounds find the end. -/
theorem Ends.run (h : P.Ends text pos out) :
    ∃ enough, ∀ fuel, enough ≤ fuel → P.run fuel text pos = some out := by
  induction h with
  | done hfind =>
    refine ⟨1, fun fuel hfuel => ?_⟩
    obtain ⟨fuel, rfl⟩ := Nat.exists_eq_add_of_le' hfuel
    simp only [Pass.run, hfind]
  | stop hfind hedit =>
    refine ⟨1, fun fuel hfuel => ?_⟩
    obtain ⟨fuel, rfl⟩ := Nat.exists_eq_add_of_le' hfuel
    simp only [Pass.run, hfind, hedit]
  | next hfind hedit hrest ih =>
    obtain ⟨enough, henough⟩ := ih
    refine ⟨enough + 1, fun fuel hfuel => ?_⟩
    obtain ⟨rest, rfl⟩ : ∃ rest, fuel = rest + 1 := ⟨fuel - 1, by omega⟩
    simp only [Pass.run, hfind, hedit]
    exact henough rest (by omega)

theorem Ends.unique {out' : List α} (h : P.Ends text pos out) (h' : P.Ends text pos out') :
    out = out' := by
  obtain ⟨enough, henough⟩ := h.run
  obtain ⟨enough', henough'⟩ := h'.run
  have hfirst := henough (enough + enough') (by omega)
  rw [henough' (enough + enough') (by omega)] at hfirst
  exact (Option.some.inj hfirst).symm

/-- A pass comes to an end if something becomes smaller in every round. -/
theorem exists_ends {I : List α → Nat → Prop} (size : List α → Nat → Nat)
    (hround : ∀ text pos p text' pos', I text pos → findFrom P.pattern text pos = some p →
      (P.edit text p).apply text p = (text', some pos') →
        I text' pos' ∧ size text' pos' < size text pos)
    (h : I text pos) : ∃ out, P.Ends text pos out := by
  generalize hn : size text pos = n
  induction n using Nat.strong_induction_on generalizing text pos with
  | _ n ih =>
    cases hfind : findFrom P.pattern text pos with
    | none => exact ⟨text, .done hfind⟩
    | some p =>
      cases hedit : (P.edit text p).apply text p with
      | mk text' next =>
        cases next with
        | none => exact ⟨text', .stop hfind hedit⟩
        | some pos' =>
          obtain ⟨hkept, hless⟩ := hround text pos p text' pos' h hfind hedit
          obtain ⟨out, hout⟩ := ih (size text' pos') (hn ▸ hless) hkept rfl
          exact ⟨out, .next hfind hedit hout⟩

/-- A pass all of whose edits make progress comes to an end. -/
theorem exists_ends_of_progress (hne : P.pattern ≠ [])
    (hprogress : ∀ text p, OccursAt P.pattern text p → (P.edit text p).Progress text)
    (text : List α) (pos : Nat) : ∃ out, P.Ends text pos out := by
  refine exists_ends (I := fun _ _ => True) (fun text pos => text.length - pos) ?_ trivial
  intro text pos p text' pos' _ hfind hedit
  refine ⟨trivial, ?_⟩
  obtain ⟨hpos, hinside⟩ := findFrom_bounds hfind hne
  have hlength : 0 < P.pattern.length := List.length_pos_iff.mpr hne
  have hmoves := hprogress text p (findFrom_eq_some_iff.mp hfind).2.2.1
  obtain ⟨hkind, rfl, rfl⟩ | ⟨count, hkind, rfl, rfl⟩ | ⟨hkind, rfl, rfl⟩ |
    ⟨start, count, patch, advance, hkind, rfl, rfl⟩ := TextEdit.apply_next hedit
  · omega
  · rw [hkind] at hmoves
    simp only [TextEdit.Progress] at hmoves
    simp only [List.length_append, List.length_take, List.length_drop]
    omega
  · rw [hkind] at hmoves
    exact hmoves.elim
  · rw [hkind] at hmoves
    simp only [TextEdit.Progress] at hmoves
    simp only [List.length_append, List.length_take, List.length_drop]
    omega

/-- What holds at the start and is kept in every round, where the places visited meet a
condition, holds at the end. -/
theorem Ends.invariant {I C : List α → Nat → Prop} {Q : List α → Prop}
    (hend : P.Ends text pos out) (hvisits : ∀ there q, P.Visits text pos there q → C there q)
    (h : I text pos)
    (hdone : ∀ text pos, I text pos → findFrom P.pattern text pos = none → Q text)
    (hstop : ∀ text pos p text', I text pos → findFrom P.pattern text pos = some p → C text p →
      (P.edit text p).apply text p = (text', none) → Q text')
    (hnext : ∀ text pos p text' pos', I text pos → findFrom P.pattern text pos = some p →
      C text p → (P.edit text p).apply text p = (text', some pos') → I text' pos') : Q out := by
  induction hend with
  | done hfind => exact hdone _ _ h hfind
  | stop hfind hedit => exact hstop _ _ _ _ h hfind (hvisits _ _ (.here hfind)) hedit
  | next hfind hedit hrest ih =>
    refine ih (fun there q hvisit => hvisits there q (.later hfind hedit hvisit)) ?_
    exact hnext _ _ _ _ _ h hfind (hvisits _ _ (.here hfind)) hedit

/-! ### One pass after the other -/

/-- All of them, computed. -/
def runAll (passes : List (Pass α)) (fuel : Nat) (text : List α) : Option (List α) :=
  passes.foldlM (fun text P => P.run fuel text 0) text

/-- All of them come to an end. -/
def EndsAll : List (Pass α) → List α → List α → Prop
  | [], text, out => out = text
  | P :: rest, text, out => ∃ mid, P.Ends text 0 mid ∧ EndsAll rest mid out

theorem endsAll_of_runAll {passes : List (Pass α)} {fuel : Nat}
    (h : runAll passes fuel text = some out) : EndsAll passes text out := by
  induction passes generalizing text with
  | nil => exact (Option.some.inj h).symm
  | cons P rest ih =>
    obtain ⟨mid, hmid, hrest⟩ := Option.bind_eq_some_iff.mp h
    exact ⟨mid, ends_of_run hmid, ih hrest⟩

theorem EndsAll.runAll {passes : List (Pass α)} (h : EndsAll passes text out) :
    ∃ enough, ∀ fuel, enough ≤ fuel → Pass.runAll passes fuel text = some out := by
  induction passes generalizing text with
  | nil =>
    rw [show out = text from h]
    exact ⟨0, fun _ _ => rfl⟩
  | cons P rest ih =>
    obtain ⟨mid, hmid, hrest⟩ := h
    obtain ⟨enough, henough⟩ := hmid.run
    obtain ⟨enough', henough'⟩ := ih hrest
    refine ⟨enough + enough', fun fuel hfuel => ?_⟩
    refine Option.bind_eq_some_iff.mpr ⟨mid, henough fuel (by omega), ?_⟩
    exact henough' fuel (by omega)

theorem endsAll_append {first second : List (Pass α)} :
    EndsAll (first ++ second) text out ↔
      ∃ mid, EndsAll first text mid ∧ EndsAll second mid out := by
  induction first generalizing text with
  | nil =>
    constructor
    · intro h
      exact ⟨text, rfl, h⟩
    · rintro ⟨mid, rfl, h⟩
      exact h
  | cons P rest ih =>
    constructor
    · rintro ⟨next, hnext, hends⟩
      obtain ⟨mid, hrest, hsecond⟩ := ih.mp hends
      exact ⟨mid, ⟨next, hnext, hrest⟩, hsecond⟩
    · rintro ⟨mid, ⟨next, hnext, hrest⟩, hsecond⟩
      exact ⟨next, hnext, ih.mpr ⟨mid, hrest, hsecond⟩⟩

theorem exists_endsAll {passes : List (Pass α)}
    (h : ∀ P ∈ passes, ∀ text, ∃ out, P.Ends text 0 out) (text : List α) :
    ∃ out, EndsAll passes text out := by
  induction passes generalizing text with
  | nil => exact ⟨text, rfl⟩
  | cons P rest ih =>
    obtain ⟨mid, hmid⟩ := h P List.mem_cons_self text
    obtain ⟨out, hout⟩ := ih (fun Q hQ => h Q (List.mem_cons_of_mem _ hQ)) mid
    exact ⟨out, mid, hmid, hout⟩

theorem EndsAll.unique {passes : List (Pass α)} {out' : List α} (h : EndsAll passes text out)
    (h' : EndsAll passes text out') : out = out' := by
  induction passes generalizing text with
  | nil => exact Eq.trans h (Eq.symm h')
  | cons P rest ih =>
    obtain ⟨mid, hmid, hrest⟩ := h
    obtain ⟨mid', hmid', hrest'⟩ := h'
    obtain rfl := hmid.unique hmid'
    exact ih hrest hrest'

end Pass

/-! ## Exposed tags -/

section Exposed

omit [DecidableEq α]

variable {mark : α} {tag text : List α} {p q i : Nat}

/-- The tag stands there and a mark follows. -/
def Exposed (mark : α) (tag text : List α) (i : Nat) : Prop :=
  OccursAt tag text i ∧ mark ∈ text.drop i

/-- The tag is exposed nowhere in front of the position. -/
def CleanBefore (mark : α) (tag text : List α) (pos : Nat) : Prop :=
  ∀ i, i < pos → ¬ Exposed mark tag text i

/-- The tag is exposed nowhere. -/
def Clean (mark : α) (tag text : List α) : Prop := ∀ i, ¬ Exposed mark tag text i

/-- The first text ends in a beginning of the tag and the second goes on with the rest of
it, and has a mark. -/
def Joins (mark : α) (tag front back : List α) : Prop :=
  ∃ u v, u ≠ [] ∧ v ≠ [] ∧ tag = u ++ v ∧ u <:+ front ∧ v <+: back ∧ mark ∈ back

/-- A text that the tag can neither run into nor begin in, and without marks. -/
structure Foreign (mark : α) (tag patch : List α) : Prop where
  entry : ∀ first ∈ patch.head?, first ∉ tag
  start : ∀ first ∈ tag.head?, first ∉ patch
  unmarked : mark ∉ patch
  nonempty : patch ≠ []

/-- An occurrence lies in front of a seam, behind it, or across it. -/
theorem OccursAt.append_cases {front back : List α} (h : OccursAt tag (front ++ back) i) :
    (i < front.length ∧ OccursAt tag front i) ∨
      (front.length ≤ i ∧ OccursAt tag back (i - front.length)) ∨
      (i < front.length ∧ ∃ v, v ≠ [] ∧ tag = front.drop i ++ v ∧ v <+: back) := by
  unfold OccursAt at h ⊢
  rcases Nat.lt_or_ge i front.length with hlt | hge
  · rw [List.drop_append_of_le_length (Nat.le_of_lt hlt)] at h
    obtain hin | hacross := List.prefix_or_prefix_of_prefix h (List.prefix_append _ _)
    · exact .inl ⟨hlt, hin⟩
    · obtain ⟨v, rfl⟩ := hacross
      by_cases hv : v = []
      · subst hv
        rw [List.append_nil]
        exact .inl ⟨hlt, List.prefix_refl _⟩
      · exact .inr (.inr ⟨hlt, v, hv, rfl, (List.prefix_append_right_inj _).mp h⟩)
  · rw [List.drop_append, List.drop_eq_nil_of_le hge, List.nil_append] at h
    exact .inr (.inl ⟨hge, h⟩)

/-- What is exposed in the beginning of a text, by a mark there or behind a span, is exposed
in the text. -/
theorem exposed_of_front (hi : i < (text.take p).length) (hpq : p ≤ q)
    (hoccurs : OccursAt tag (text.take p) i)
    (hmark : mark ∈ (text.take p).drop i ∨ mark ∈ text.drop q) : Exposed mark tag text i := by
  have hip : i < p := by
    rw [List.length_take] at hi
    omega
  unfold OccursAt at hoccurs
  rw [List.drop_take] at hoccurs hmark
  refine ⟨hoccurs.trans (List.take_prefix _ _), ?_⟩
  rcases hmark with hmark | hmark
  · exact List.mem_of_mem_take hmark
  · have hdrop : text.drop q = (text.drop i).drop (q - i) := by
      rw [List.drop_drop, Nat.add_sub_cancel' (by omega)]
    rw [hdrop] at hmark
    exact List.mem_of_mem_drop hmark

theorem exposed_of_drop (h : Exposed mark tag (text.drop q) i) :
    Exposed mark tag text (q + i) := by
  unfold Exposed OccursAt at h ⊢
  rwa [List.drop_drop] at h

/-- Behind an erased span the text is as it was. -/
theorem drop_splice {j : Nat} (hp : p ≤ text.length) (hj : p ≤ j) :
    (text.take p ++ text.drop q).drop j = text.drop (q + (j - p)) := by
  have hlength : (text.take p).length = p := List.length_take_of_le hp
  rw [List.drop_append, hlength, List.drop_eq_nil_of_le (by omega), List.nil_append,
    List.drop_drop]

/-- Erasing a span exposes what was exposed before, or what it joins. -/
theorem exposed_erase (hpq : p ≤ q) (htag : mark ∉ tag)
    (h : Exposed mark tag (text.take p ++ text.drop q) i) :
    (i < p ∧ Exposed mark tag text i) ∨
      ((text.take p).length ≤ i ∧
        Exposed mark tag text (q + (i - (text.take p).length))) ∨
      Joins mark tag (text.take p) (text.drop q) := by
  obtain ⟨hoccurs, hmark⟩ := h
  obtain ⟨hlt, hin⟩ | ⟨hge, hbehind⟩ | ⟨hlt, v, hv, rfl, hback⟩ := hoccurs.append_cases
  · rw [List.drop_append_of_le_length (Nat.le_of_lt hlt), List.mem_append] at hmark
    refine .inl ⟨?_, exposed_of_front hlt hpq hin hmark⟩
    rw [List.length_take] at hlt
    omega
  · rw [List.drop_append, List.drop_eq_nil_of_le hge, List.nil_append] at hmark
    exact .inr (.inl ⟨hge, exposed_of_drop ⟨hbehind, hmark⟩⟩)
  · rw [List.drop_append_of_le_length (Nat.le_of_lt hlt), List.mem_append] at hmark
    have hback' : mark ∈ text.drop q :=
      hmark.resolve_left fun hfront => htag (List.mem_append_left _ hfront)
    refine .inr (.inr ⟨(text.take p).drop i, v, ?_, hv, rfl, List.drop_suffix _ _, hback, hback'⟩)
    exact fun hnil => absurd (List.drop_eq_nil_iff.mp hnil) (Nat.not_le.mpr hlt)

/-- Putting in a foreign text exposes nothing. -/
theorem exposed_replace {patch : List α} (hpq : p ≤ q) (hforeign : Foreign mark tag patch)
    (htag : tag ≠ []) (h : Exposed mark tag (text.take p ++ (patch ++ text.drop q)) i) :
    ∃ j, Exposed mark tag text j := by
  obtain ⟨hoccurs, hmark⟩ := h
  obtain ⟨hlt, hin⟩ | ⟨hge, hbehind⟩ | ⟨hlt, v, hv, rfl, hback⟩ := hoccurs.append_cases
  · rw [List.drop_append_of_le_length (Nat.le_of_lt hlt), List.mem_append, List.mem_append]
      at hmark
    have hmark' := hmark.imp_right fun hmark => hmark.resolve_left hforeign.unmarked
    exact ⟨i, exposed_of_front hlt hpq hin hmark'⟩
  · rw [List.drop_append, List.drop_eq_nil_of_le hge, List.nil_append] at hmark
    obtain ⟨first, rest, rfl⟩ := List.exists_cons_of_ne_nil htag
    -- it cannot begin in the patch
    have hstart : first ∉ patch := hforeign.start first rfl
    obtain ⟨_, hin⟩ | ⟨hge', hbehind'⟩ | ⟨hlt, v, _, hacross, _⟩ := hbehind.append_cases
    · exact absurd (List.mem_of_mem_drop (hin.subset List.mem_cons_self)) hstart
    · rw [List.drop_append, List.drop_eq_nil_of_le hge', List.nil_append] at hmark
      exact ⟨_, exposed_of_drop ⟨hbehind', hmark⟩⟩
    · obtain ⟨x, rest', hdrop⟩ := List.exists_cons_of_ne_nil
        fun hnil => absurd (List.drop_eq_nil_iff.mp hnil) (Nat.not_le.mpr hlt)
      rw [hdrop, List.cons_append, List.cons.injEq] at hacross
      refine absurd (List.mem_of_mem_drop (i := i - (text.take p).length) ?_) hstart
      rw [hdrop, hacross.1]
      exact List.mem_cons_self
  · -- it cannot run into the patch
    obtain ⟨first, rest, rfl⟩ := List.exists_cons_of_ne_nil hv
    obtain ⟨x, patch', rfl⟩ := List.exists_cons_of_ne_nil hforeign.nonempty
    rw [List.cons_append, List.cons_prefix_cons] at hback
    refine absurd ?_ (hforeign.entry x rfl)
    rw [← hback.1]
    exact List.mem_append_right _ List.mem_cons_self

end Exposed

/-! ## Passes and exposed tags -/

namespace Pass

variable {P : Pass α} {mark : α} {tag text out : List α}

/-- Erasing in these places joins no tag. -/
def JoinsNone (P : Pass α) (mark : α) (tag there : List α) (q : Nat) : Prop :=
  ∀ count, P.edit there q = .erase count →
    ¬ Joins mark tag (there.take q) (there.drop (q + count))

/-- Whatever the pass puts in is foreign to the tag. -/
def PatchesForeign (P : Pass α) (mark : α) (tag : List α) : Prop :=
  ∀ there q start count patch advance,
    P.edit there q = .replace start count patch advance → Foreign mark tag patch

/-- A pass that joins no tag leaves a clean text clean. -/
theorem Ends.clean (hend : P.Ends text 0 out) (hne : tag ≠ []) (htag : mark ∉ tag)
    (hpatch : P.PatchesForeign mark tag)
    (hjoins : ∀ there q, P.Visits text 0 there q → P.JoinsNone mark tag there q)
    (h : Clean mark tag text) : Clean mark tag out := by
  refine hend.invariant (I := fun text _ => Clean mark tag text) hjoins h (fun _ _ h _ => h) ?_ ?_
  · intro text pos p text' h _ _ hedit i hexposed
    obtain ⟨_, rfl⟩ := TextEdit.apply_stop hedit
    have hlt : i < (text.take p).length := by
      have hlength := hexposed.1.length_le hne
      have hpos : 0 < tag.length := List.length_pos_iff.mpr hne
      omega
    exact h i (exposed_of_front hlt (Nat.le_refl p) hexposed.1 (.inl hexposed.2))
  · intro text pos p text' pos' h _ hnone hedit i hexposed
    obtain ⟨_, rfl, _⟩ | ⟨count, hkind, rfl, _⟩ | ⟨_, rfl, _⟩ |
      ⟨start, count, patch, advance, hkind, rfl, _⟩ := TextEdit.apply_next hedit
    · exact h i hexposed
    · obtain ⟨_, hbefore⟩ | ⟨_, hbefore⟩ | hjoined :=
        exposed_erase (Nat.le_add_right p count) htag hexposed
      · exact h i hbefore
      · exact h _ hbefore
      · exact hnone count hkind hjoined
    · exact h i hexposed
    · obtain ⟨j, hbefore⟩ := exposed_replace (Nat.le_add_right start count)
        (hpatch text p start count patch advance hkind) hne hexposed
      exact h j hbefore

/-- Up to the next occurrence nothing is exposed. -/
theorem cleanBefore_found {pos p : Nat} (h : CleanBefore mark P.pattern text pos)
    (hfind : findFrom P.pattern text pos = some p) : CleanBefore mark P.pattern text p := by
  obtain ⟨_, _, _, hfirst⟩ := findFrom_eq_some_iff.mp hfind
  intro i hi hexposed
  rcases Nat.lt_or_ge i pos with hlt | hge
  · exact h i hlt hexposed
  · exact hfirst i hge hi hexposed.1

/-- A pass that looks for the tag leaves a clean text, if it joins none and skips none that
is exposed. -/
theorem Ends.clean_pattern (hend : P.Ends text 0 out) (hne : P.pattern ≠ [])
    (htag : mark ∉ P.pattern)
    (hpatch : ∀ there q start count patch advance,
      P.edit there q ≠ .replace start count patch advance)
    (hskips : ∀ there q, P.Visits text 0 there q → P.edit there q = .skip → mark ∉ there.drop q)
    (hjoins : ∀ there q, P.Visits text 0 there q → P.JoinsNone mark P.pattern there q) :
    Clean mark P.pattern out := by
  have hvisits : ∀ there q, P.Visits text 0 there q →
      (P.edit there q = .skip → mark ∉ there.drop q) ∧ P.JoinsNone mark P.pattern there q :=
    fun there q hvisit => ⟨hskips there q hvisit, hjoins there q hvisit⟩
  refine hend.invariant (I := CleanBefore mark P.pattern) hvisits
    (fun i hi => absurd hi (Nat.not_lt_zero i)) ?_ ?_ ?_
  -- nothing is found from here on, and nothing was exposed before
  · intro text pos h hfind i hexposed
    rcases Nat.lt_or_ge i pos with hlt | hge
    · exact h i hlt hexposed
    · exact (findFrom_eq_none_iff hne).mp hfind i hge hexposed.1
  -- the text is cut at the find: a tag across the cut would have been found earlier
  · intro text pos p text' h hfind _ hedit i hexposed
    obtain ⟨_, rfl⟩ := TextEdit.apply_stop hedit
    have hlength := hexposed.1.length_le hne
    have hpos : 0 < P.pattern.length := List.length_pos_iff.mpr hne
    rw [List.length_take] at hlength
    refine cleanBefore_found h hfind i (by omega) ?_
    refine exposed_of_front ?_ (Nat.le_refl p) hexposed.1 (.inl hexposed.2)
    rw [List.length_take]
    omega
  -- the loop goes on: a skipped find hides the mark, an erased one joins no tag
  · rintro text pos p text' pos' h hfind ⟨hskip, hnone⟩ hedit i hi hexposed
    have hbefore := cleanBefore_found h hfind
    have hinside := (findFrom_bounds hfind hne).2
    obtain ⟨hkind, rfl, rfl⟩ | ⟨count, hkind, rfl, rfl⟩ | ⟨_, rfl, rfl⟩ |
      ⟨start, count, patch, advance, hkind, _⟩ := TextEdit.apply_next hedit
    · rcases Nat.lt_or_ge i p with hlt | hge
      · exact hbefore i hlt hexposed
      · obtain rfl : i = p := by omega
        exact hskip hkind hexposed.2
    · obtain ⟨_, hfront⟩ | ⟨hge, _⟩ | hjoined :=
        exposed_erase (Nat.le_add_right _ count) htag hexposed
      · exact hbefore i hi hfront
      · rw [List.length_take] at hge
        omega
      · exact hnone count hkind hjoined
    · exact hbefore i hi hexposed
    · exact absurd hkind (hpatch _ _ _ _ _ _)

end Pass

end Cashew.Lib
