import Mathlib

/-!
# A relation stored on both sides

Records on the left each list what they are related to on the right, and the
other way round; a record may be absent on either side. `Agree` says that the
two lists of a present pair match, `Backed` that what a left record lists is
present on the right.

`Edit` has the ways in which a program changes such a pair of tables. An edit of
agreeing, backed tables leaves them agreeing exactly when it is `Sound`
(`agree_apply_iff`): what goes wrong is that a record is made or emptied on one
side while the other side still lists it.
-/

namespace Cashew.Lib

variable {α β : Type} [DecidableEq α] [DecidableEq β]

/-- Both sides of a relation between `α` and `β`. -/
@[ext]
structure TwoSided (α β : Type) where
  left : α → Option (Finset β)
  right : β → Option (Finset α)

/-- A change of the tables. -/
inductive Edit (α β : Type) where
  | keep
  | resetLeft (a : α)
  | touchLeft (a : α)
  | dropLeft (gone : α → Bool)
  | resetRight (b : β)
  | link (a : α) (b : β)
  | unlink (a : α) (b : β)

namespace TwoSided

/-- The two sides agree on every pair of present records. -/
def Agree (t : TwoSided α β) : Prop :=
  ∀ a sa b sb, t.left a = some sa → t.right b = some sb → (b ∈ sa ↔ a ∈ sb)

/-- What a left record lists is present on the right. -/
def Backed (t : TwoSided α β) : Prop :=
  ∀ a sa b, t.left a = some sa → b ∈ sa → (t.right b).isSome = true

/-- Some right record, other than those for `except`, lists `a`. -/
def ListedRight (t : TwoSided α β) (a : α) (except : β → Prop) : Prop :=
  ∃ b sb, t.right b = some sb ∧ a ∈ sb ∧ ¬ except b

/-- Some left record lists `b`. -/
def ListedLeft (t : TwoSided α β) (b : β) : Prop :=
  ∃ a sa, t.left a = some sa ∧ b ∈ sa

end TwoSided

namespace Edit

open TwoSided

/-- The tables after an edit. -/
def apply : Edit α β → TwoSided α β → TwoSided α β
  | .keep, t => t
  -- the record is made anew, or made
  | .resetLeft a, t => { t with left := Function.update t.left a (some ∅) }
  -- the record is made if it is not there
  | .touchLeft a, t => { t with left := Function.update t.left a (some ((t.left a).getD ∅)) }
  | .dropLeft gone, t => { t with left := fun a => if gone a then none else t.left a }
  | .resetRight b, t => { t with right := Function.update t.right b (some ∅) }
  | .link a b, t =>
    { left := Function.update t.left a (some (insert b ((t.left a).getD ∅)))
      right := Function.update t.right b (some (insert a ((t.right b).getD ∅))) }
  -- only where the records are there
  | .unlink a b, t =>
    { left := Function.update t.left a ((t.left a).map (·.erase b))
      right := Function.update t.right b ((t.right b).map (·.erase a)) }

/-- No record is made or emptied that the other side lists. -/
def Sound : Edit α β → TwoSided α β → Prop
  | .keep, _ => True
  | .resetLeft a, t => ¬ t.ListedRight a fun _ => False
  | .touchLeft a, t => t.left a = none → ¬ t.ListedRight a fun _ => False
  | .dropLeft _, _ => True
  | .resetRight b, t => ¬ t.ListedLeft b
  | .link a b, t => t.left a = none → ¬ t.ListedRight a (· = b)
  | .unlink _ _, _ => True

end Edit

namespace TwoSided

variable {t : TwoSided α β}

/-! ## Agreement -/

theorem agree_resetLeft_iff (h : t.Agree) (a : α) :
    ((Edit.resetLeft a).apply t).Agree ↔ (Edit.resetLeft a : Edit α β).Sound t := by
  constructor
  · rintro hagree ⟨b, sb, hb, hmem, _⟩
    have hlists := hagree a ∅ b sb (by simp [Edit.apply]) hb
    simp [hmem] at hlists
  · intro hsound a' sa b sb ha hb
    by_cases heq : a' = a
    · subst heq
      simp only [Edit.apply, Function.update_self, Option.some.injEq] at ha
      subst ha
      refine iff_of_false (by simp) ?_
      intro hmem
      exact hsound ⟨b, sb, hb, hmem, id⟩
    · simp only [Edit.apply, Function.update_of_ne heq] at ha
      exact h a' sa b sb ha hb

/-- Touching a present record changes nothing, an absent one makes an empty one. -/
theorem apply_touchLeft (t : TwoSided α β) (a : α) :
    (Edit.touchLeft a).apply t =
      if (t.left a).isSome then t else (Edit.resetLeft a).apply t := by
  cases ha : t.left a with
  | none => simp [Edit.apply, ha]
  | some sa =>
    have hsame : Function.update t.left a (some sa) = t.left := by
      rw [← ha, Function.update_eq_self]
    simp [Edit.apply, ha, hsame]

theorem agree_touchLeft_iff (h : t.Agree) (a : α) :
    ((Edit.touchLeft a).apply t).Agree ↔ (Edit.touchLeft a : Edit α β).Sound t := by
  rw [apply_touchLeft]
  cases ha : t.left a with
  | none =>
    simp only [Option.isSome_none, Bool.false_eq_true, if_false]
    rw [agree_resetLeft_iff h]
    simp [Edit.Sound, ha]
  | some sa => simp [Edit.Sound, ha, h]

theorem agree_resetRight_iff (h : t.Agree) (b : β) :
    ((Edit.resetRight b).apply t).Agree ↔ (Edit.resetRight b : Edit α β).Sound t := by
  constructor
  · rintro hagree ⟨a, sa, ha, hmem⟩
    have hlists := hagree a sa b ∅ ha (by simp [Edit.apply])
    simp [hmem] at hlists
  · intro hsound a sa b' sb ha hb
    by_cases heq : b' = b
    · subst heq
      simp only [Edit.apply, Function.update_self, Option.some.injEq] at hb
      subst hb
      refine iff_of_false ?_ (by simp)
      intro hmem
      exact hsound ⟨a, sa, ha, hmem⟩
    · simp only [Edit.apply, Function.update_of_ne heq] at hb
      exact h a sa b' sb ha hb

theorem agree_dropLeft (h : t.Agree) (gone : α → Bool) :
    ((Edit.dropLeft gone).apply t).Agree := by
  intro a sa b sb ha hb
  simp only [Edit.apply] at ha
  split at ha
  · cases ha
  · exact h a sa b sb ha hb

theorem agree_unlink (h : t.Agree) (a : α) (b : β) : ((Edit.unlink a b).apply t).Agree := by
  intro a' sa b' sb ha hb
  by_cases hleft : a' = a <;> by_cases hright : b' = b
  · -- the pair itself is gone from both sides
    subst hleft
    subst hright
    simp only [Edit.apply, Function.update_self, Option.map_eq_some_iff] at ha hb
    obtain ⟨sa, _, rfl⟩ := ha
    obtain ⟨sb, _, rfl⟩ := hb
    simp
  · subst hleft
    simp only [Edit.apply, Function.update_self, Function.update_of_ne hright,
      Option.map_eq_some_iff] at ha hb
    obtain ⟨sa, hsa, rfl⟩ := ha
    simpa [hright] using h a' sa b' sb hsa hb
  · subst hright
    simp only [Edit.apply, Function.update_self, Function.update_of_ne hleft,
      Option.map_eq_some_iff] at ha hb
    obtain ⟨sb, hsb, rfl⟩ := hb
    simpa [hleft] using h a' sa b' sb ha hsb
  · simp only [Edit.apply, Function.update_of_ne hleft, Function.update_of_ne hright] at ha hb
    exact h a' sa b' sb ha hb

theorem agree_link_iff (h : t.Agree) (hbacked : t.Backed) (a : α) (b : β) :
    ((Edit.link a b).apply t).Agree ↔ (Edit.link a b : Edit α β).Sound t := by
  constructor
  · rintro hagree habsent ⟨b', sb, hb, hmem, hother⟩
    have hlists := hagree a {b} b' sb (by simp [Edit.apply, habsent])
      (by simpa [Edit.apply, Function.update_of_ne hother] using hb)
    simp [hmem, hother] at hlists
  · intro hsound a' sa b' sb ha hb
    by_cases hleft : a' = a <;> by_cases hright : b' = b
    · subst hleft
      subst hright
      simp only [Edit.apply, Function.update_self, Option.some.injEq] at ha hb
      subst ha
      subst hb
      simp
    · subst hleft
      simp only [Edit.apply, Function.update_self, Function.update_of_ne hright,
        Option.some.injEq] at ha hb
      subst ha
      cases habsent : t.left a' with
      | none =>
        refine iff_of_false (by simp [hright]) ?_
        intro hmem
        exact hsound habsent ⟨b', sb, hb, hmem, hright⟩
      | some before => simpa [hright] using h a' before b' sb habsent hb
    · subst hright
      simp only [Edit.apply, Function.update_self, Function.update_of_ne hleft,
        Option.some.injEq] at ha hb
      subst hb
      cases habsent : t.right b' with
      | none =>
        -- nobody lists a record that is not there
        refine iff_of_false ?_ (by simp [hleft])
        intro hmem
        have hpresent := hbacked a' sa b' ha hmem
        simp [habsent] at hpresent
      | some before => simpa [hleft] using h a' sa b' before ha habsent
    · simp only [Edit.apply, Function.update_of_ne hleft, Function.update_of_ne hright] at ha hb
      exact h a' sa b' sb ha hb

/-- **An edit keeps the two sides agreeing exactly when it is sound.** -/
theorem agree_apply_iff (h : t.Agree) (hbacked : t.Backed) (edit : Edit α β) :
    (edit.apply t).Agree ↔ edit.Sound t := by
  cases edit with
  | keep => exact iff_of_true h trivial
  | resetLeft a => exact agree_resetLeft_iff h a
  | touchLeft a => exact agree_touchLeft_iff h a
  | dropLeft gone => exact iff_of_true (agree_dropLeft h gone) trivial
  | resetRight b => exact agree_resetRight_iff h b
  | link a b => exact agree_link_iff h hbacked a b
  | unlink a b => exact iff_of_true (agree_unlink h a b) trivial

/-! ## Backing -/

/-- Right records are never dropped. -/
theorem isSome_right_apply (edit : Edit α β) {b : β} (h : (t.right b).isSome = true) :
    ((edit.apply t).right b).isSome = true := by
  cases edit with
  | resetRight b' =>
    by_cases heq : b = b'
    · simp [Edit.apply, heq]
    · simpa [Edit.apply, Function.update_of_ne heq] using h
  | link a b' =>
    by_cases heq : b = b'
    · simp [Edit.apply, heq]
    · simpa [Edit.apply, Function.update_of_ne heq] using h
  | unlink a b' =>
    by_cases heq : b = b'
    · subst heq
      simpa [Edit.apply] using h
    · simpa [Edit.apply, Function.update_of_ne heq] using h
  | _ => exact h

/-- What a left record lists after an edit it listed before, or was just linked to. -/
theorem mem_left_apply (edit : Edit α β) {a : α} {sa : Finset β} {b : β}
    (ha : (edit.apply t).left a = some sa) (hmem : b ∈ sa) :
    (∃ before, t.left a = some before ∧ b ∈ before) ∨ edit = .link a b := by
  cases edit with
  | keep => exact .inl ⟨sa, ha, hmem⟩
  | resetRight b' => exact .inl ⟨sa, ha, hmem⟩
  | resetLeft a' =>
    by_cases heq : a = a'
    · subst heq
      simp only [Edit.apply, Function.update_self, Option.some.injEq] at ha
      simp [← ha] at hmem
    · exact .inl ⟨sa, by simpa [Edit.apply, Function.update_of_ne heq] using ha, hmem⟩
  -- an element that gets a record gets an empty one
  | touchLeft a' =>
    by_cases heq : a = a'
    · subst heq
      simp only [Edit.apply, Function.update_self, Option.some.injEq] at ha
      cases hbefore : t.left a with
      | none => simp [← ha, hbefore] at hmem
      | some before => exact .inl ⟨before, rfl, by simpa [← ha, hbefore] using hmem⟩
    · exact .inl ⟨sa, by simpa [Edit.apply, Function.update_of_ne heq] using ha, hmem⟩
  | dropLeft gone =>
    simp only [Edit.apply] at ha
    split at ha
    · cases ha
    · exact .inl ⟨sa, ha, hmem⟩
  -- here alone something new is listed
  | link a' b' =>
    by_cases heq : a = a'
    · subst heq
      simp only [Edit.apply, Function.update_self, Option.some.injEq] at ha
      subst ha
      rcases Finset.mem_insert.mp hmem with rfl | hold
      · exact .inr rfl
      · cases hbefore : t.left a with
        | none => simp [hbefore] at hold
        | some before => exact .inl ⟨before, rfl, by simpa [hbefore] using hold⟩
    · exact .inl ⟨sa, by simpa [Edit.apply, Function.update_of_ne heq] using ha, hmem⟩
  | unlink a' b' =>
    by_cases heq : a = a'
    · subst heq
      simp only [Edit.apply, Function.update_self, Option.map_eq_some_iff] at ha
      obtain ⟨before, hbefore, rfl⟩ := ha
      exact .inl ⟨before, hbefore, Finset.mem_of_mem_erase hmem⟩
    · exact .inl ⟨sa, by simpa [Edit.apply, Function.update_of_ne heq] using ha, hmem⟩

theorem Backed.apply (h : t.Backed) (edit : Edit α β) : (edit.apply t).Backed := by
  intro a sa b ha hmem
  rcases mem_left_apply edit ha hmem with ⟨before, hbefore, hin⟩ | rfl
  · exact isSome_right_apply edit (h a before b hbefore hin)
  · simp [Edit.apply]

end TwoSided

end Cashew.Lib
