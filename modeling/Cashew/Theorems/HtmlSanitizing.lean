import Cashew.Gateway.HtmlSanitizer

/-!
# What sanitizing leaves

The first five kinds of loops are to remove every tag of five kinds that is followed by a
`>`. One of them does not come to an end where an iframe has no `>` behind it
(`iframes_ends_iff`); the others always do. A tag is left in the text where the first loop
passes over it behind a letter or digit, or where a later erasure joins the two halves of one
whose loop has gone by. `sanitize_sound` says that nothing else goes wrong.
-/

namespace Cashew.Theorems.HtmlSanitizing

open Cashew Cashew.Lib HtmlSanitizer

/-- The mark that closes a tag. -/
def gt : UInt8 := 62

/-- The tags to remove. -/
def tags : List Bytes :=
  [lit "<script", lit "<iframe", lit "<object", lit "<embed", lit "<applet"]

/-- It comes to an end, and leaves no tag with a `>` behind it. -/
def Sanitized (html : Bytes) : Prop :=
  ∃ fuel out, sanitizeHtml fuel html = some out ∧ ∀ tag ∈ tags, Clean gt tag out

/-! ## Coming to an end -/

theorem scripts_ends (text : Bytes) : ∃ out, scripts.Ends text 0 out := by
  refine Pass.exists_ends_of_progress (by decide) (fun text p _ => ?_) text 0
  simp only [scripts]
  split_ifs
  · split
    · exact Nat.succ_pos _
    · trivial
  · trivial

theorem dangerousTag_ends {tag : String} (hne : lit tag ≠ []) (text : Bytes) :
    ∃ out, (dangerousTag tag).Ends text 0 out := by
  refine Pass.exists_ends_of_progress hne (fun text p _ => ?_) text 0
  simp only [dangerousTag]
  split
  · exact Nat.succ_pos _
  · trivial

theorem eventAttr_ends {attr : String} (hne : lit attr ≠ []) (text : Bytes) :
    ∃ out, (eventAttr attr).Ends text 0 out := by
  refine Pass.exists_ends_of_progress hne (fun text p _ => ?_) text 0
  simp only [eventAttr]
  split_ifs
  · trivial
  · split
    · trivial
    · split_ifs
      · split
        · trivial
        · split
          · trivial
          · exact Nat.succ_pos _
      · trivial

theorem styles_ends (text : Bytes) : ∃ out, styles.Ends text 0 out := by
  refine Pass.exists_ends_of_progress (by decide) (fun text p _ => ?_) text 0
  simp only [styles]
  split
  · trivial
  · split
    · trivial
    · split_ifs
      · exact Nat.succ_pos _
      · trivial

/-- The quotes found around a place that is no quote lie on its two sides. -/
theorem emptyQuotes_progress {text : Bytes} {pos advance : Nat} {first : UInt8}
    (hfirst : text[pos]? = some first) (hquote : first ≠ 34) :
    ((emptyQuotes text pos advance).getD .skip).Progress text := by
  unfold emptyQuotes
  split
  · rename_i attrStart attrEnd hstart hend
    have hbefore : attrStart ≤ pos ∧ text[attrStart]? = some 34 := by
      have hmem := List.mem_of_find?_eq_some hstart
      have hfound := List.find?_some hstart
      rw [List.mem_reverse, List.mem_range] at hmem
      exact ⟨Nat.lt_succ_iff.mp hmem, of_decide_eq_true hfound⟩
    have hquote34 : lit "\"" = [34] := by decide
    rw [hquote34] at hend
    obtain ⟨hafter, hinside⟩ := findFrom_bounds hend (List.cons_ne_nil _ _)
    have hend34 := occursAt_singleton.mp (findFrom_eq_some_iff.mp hend).2.2.1
    have hlt : attrStart ≠ pos := by
      rintro rfl
      rw [hfirst] at hbefore
      exact hquote (Option.some.inj hbefore.2)
    have hgt : attrEnd ≠ pos := by
      rintro rfl
      rw [hfirst] at hend34
      exact hquote (Option.some.inj hend34)
    have hpatch : (lit "\"\"").length = 2 := by decide
    rw [List.length_singleton] at hinside
    simp only [Option.getD_some, TextEdit.Progress, hpatch]
    omega
  · trivial

/-- What stands where a pattern was found. -/
theorem getElem?_of_occursAt {pattern text : Bytes} {p : Nat} {first : UInt8} {rest : Bytes}
    (h : OccursAt pattern text p) (hpattern : pattern = first :: rest) :
    text[p]? = some first := by
  subst hpattern
  obtain ⟨tail, htail⟩ := h
  rw [← List.head?_drop, ← htail]
  rfl

theorem javascriptUrls_ends (text : Bytes) : ∃ out, javascriptUrls.Ends text 0 out := by
  refine Pass.exists_ends_of_progress (by decide) (fun text p hoccurs => ?_) text 0
  have hpattern : javascriptUrls.pattern = 106 :: lit "avascript:" := by decide
  have hfirst : text[p]? = some 106 := getElem?_of_occursAt hoccurs hpattern
  exact emptyQuotes_progress hfirst (by decide)

theorem dataUrls_ends (text : Bytes) : ∃ out, dataUrls.Ends text 0 out := by
  refine Pass.exists_ends_of_progress (by decide) (fun text p hoccurs => ?_) text 0
  have hpattern : dataUrls.pattern = 100 :: lit "ata:" := by decide
  have hfirst : text[p]? = some 100 := getElem?_of_occursAt hoccurs hpattern
  unfold dataUrls
  dsimp only
  generalize (if 20 < p then p - 20 else 0) = checkStart
  split
  · exact emptyQuotes_progress hfirst (by decide)
  · trivial

/-- Behind a character found from `pos` on there is one of it less than from `pos` on. -/
theorem count_behind_lt {text : Bytes} {pos p : Nat} {c : UInt8} (hpos : pos ≤ p)
    (hhere : text[p]? = some c) : (text.drop (p + 1)).count c < (text.drop pos).count c := by
  have hsplit : text.drop p = c :: text.drop (p + 1) := by
    obtain ⟨hlt, hget⟩ := List.getElem?_eq_some_iff.mp hhere
    rw [List.drop_eq_getElem_cons hlt, hget]
  have hle : (text.drop p).count c ≤ (text.drop pos).count c := by
    rw [← Nat.add_sub_cancel' hpos, ← List.drop_drop]
    exact (List.drop_sublist _ _).count_le _
  rw [hsplit, List.count_cons_self] at hle
  exact hle

/-- A patch without a character, put in further on, leaves as many of it behind a place. -/
theorem count_drop_insert {text patch : Bytes} {c : UInt8} {n close : Nat} (hn : n ≤ close)
    (hclose : close ≤ text.length) (hpatch : patch.count c = 0) :
    ((text.take close ++ (patch ++ text.drop close)).drop n).count c = (text.drop n).count c := by
  have hinside : n ≤ (text.take close).length := by
    rw [List.length_take]
    omega
  have hwhole : (text.take close).drop n ++ text.drop close = text.drop n := by
    rw [← List.drop_append_of_le_length hinside, List.take_append_drop]
  rw [List.drop_append_of_le_length hinside, List.count_append, List.count_append, hpatch,
    Nat.zero_add, ← List.count_append, hwhole]

/-- The last loop puts in nothing that it searches for, so the `<` behind it become fewer. -/
theorem sandbox_ends (text : Bytes) : ∃ out, sandbox.Ends text 0 out := by
  have hpattern : lit "<iframe" = 60 :: lit "iframe" := by decide
  have hgt : lit ">" = [gt] := by decide
  have hpatch : (lit " sandbox=\"\"").count 60 = 0 := by decide
  refine Pass.exists_ends (I := fun _ _ => True) (fun text pos => (text.drop pos).count 60) ?_
    trivial
  intro text pos p text' pos' _ hfind hedit
  refine ⟨trivial, ?_⟩
  obtain ⟨hpos, _, hoccurs, _⟩ := findFrom_eq_some_iff.mp hfind
  have hhere : text[p]? = some 60 := getElem?_of_occursAt hoccurs hpattern
  have hfewer := count_behind_lt hpos hhere
  unfold sandbox at hedit
  dsimp only at hedit
  split at hedit
  · cases hedit
    exact hfewer
  · rename_i close hclose
    rw [hgt] at hclose
    obtain ⟨hle, hinside⟩ := findFrom_bounds hclose (List.cons_ne_nil _ _)
    have hmark := occursAt_singleton.mp (findFrom_eq_some_iff.mp hclose).2.2.1
    -- the place found holds a `<`, so the `>` lies strictly behind it
    have hlt : p < close := by
      refine Nat.lt_of_le_of_ne hle ?_
      rintro rfl
      rw [hhere] at hmark
      exact absurd (Option.some.inj hmark) (by decide)
    split at hedit
    · cases hedit
      have hclose : close ≤ text.length := Nat.le_of_add_right_le hinside
      exact (count_drop_insert hlt hclose hpatch).trans_lt hfewer
    · cases hedit
      exact hfewer

/-! ## The loop that may not -/

/-- What it erases ends with a `>`. -/
theorem iframes_erase {text : Bytes} {p count : Nat} (h : iframes.edit text p = .erase count) :
    0 < count ∧ text[p + count - 1]? = some gt := by
  have hclosing : lit "</iframe>" = lit "</iframe" ++ [gt] := by decide
  have hlength : (lit "</iframe").length = 8 := by decide
  have hgt : lit ">" = [gt] := by decide
  unfold iframes at h
  dsimp only at h
  split at h
  · rename_i close hclose
    cases h
    obtain ⟨hle, _, hoccurs, _⟩ := findFrom_eq_some_iff.mp hclose
    refine ⟨Nat.succ_pos _, ?_⟩
    obtain ⟨tail, htail⟩ := hoccurs
    have hplace : p + (close - p + 9) - 1 = close + 8 := by omega
    rw [hplace, ← List.getElem?_drop, ← htail, hclosing, List.append_assoc,
      List.getElem?_append_right (by omega), hlength]
    rfl
  · split at h
    · rename_i bracket hbracket
      cases h
      rw [hgt] at hbracket
      obtain ⟨hle, _, hoccurs, _⟩ := findFrom_eq_some_iff.mp hbracket
      refine ⟨Nat.succ_pos _, ?_⟩
      have hplace : p + (bracket - p + 1) - 1 = bracket := by omega
      rw [hplace]
      exact occursAt_singleton.mp hoccurs
    · cases h

/-- It erases, or goes on where it is because no `>` follows. -/
theorem iframes_edit (text : Bytes) (p : Nat) :
    (∃ count, iframes.edit text p = .erase count) ∨
      (iframes.edit text p = .stay ∧ gt ∉ text.drop p) := by
  have hgt : lit ">" = [gt] := by decide
  unfold iframes
  dsimp only
  split
  · exact .inl ⟨_, rfl⟩
  · split
    · exact .inl ⟨_, rfl⟩
    · rename_i hnone
      rw [hgt] at hnone
      exact .inr ⟨rfl, findFrom_char_eq_none_iff.mp hnone⟩

/-- A round of it takes a span that ends with a `>` out of the text, or leaves everything as it
was; either way it does not move. -/
theorem iframes_round {text text' : Bytes} {p : Nat} {next : Option Nat}
    (h : (iframes.edit text p).apply text p = (text', next)) :
    (∃ count, 0 < count ∧ text[p + count - 1]? = some gt ∧
        text' = text.take p ++ text.drop (p + count) ∧ next = some p) ∨
      (gt ∉ text.drop p ∧ text' = text ∧ next = some p) := by
  obtain ⟨count, herase⟩ | ⟨hstay, hopen⟩ := iframes_edit text p
  · obtain ⟨hcount, hlast⟩ := iframes_erase herase
    rw [herase] at h
    cases h
    exact .inl ⟨count, hcount, hlast, rfl, rfl⟩
  · rw [hstay] at h
    cases h
    exact .inr ⟨hopen, rfl, rfl⟩

/-- From a position on, no iframe lacks a `>` behind it. -/
def Closed (text : Bytes) (pos : Nat) : Prop :=
  ∀ i, pos ≤ i → OccursAt (lit "<iframe") text i → gt ∈ text.drop i

/-- Erasing a span that ends with a `>` leaves the iframes behind it as they were. -/
theorem closed_erase_iff {text : Bytes} {p count : Nat} (hp : p ≤ text.length) (hcount : 0 < count)
    (hlast : text[p + count - 1]? = some gt) :
    Closed (text.take p ++ text.drop (p + count)) p ↔ Closed text p := by
  have hbehind : ∀ i, i < p + count → gt ∈ text.drop i := by
    intro i hi
    refine List.mem_iff_getElem?.mpr ⟨p + count - 1 - i, ?_⟩
    rw [List.getElem?_drop, Nat.add_sub_cancel' (by omega)]
    exact hlast
  constructor
  · intro hclosed i hi hoccurs
    rcases Nat.lt_or_ge i (p + count) with hlt | hge
    · exact hbehind i hlt
    · have hmoved := hclosed (i - count) (by omega)
      have hback : p + count + (i - count - p) = i := by omega
      unfold OccursAt at hmoved
      rw [drop_splice hp (by omega), hback] at hmoved
      exact hmoved hoccurs
  · intro hclosed i hi hoccurs
    unfold OccursAt at hoccurs
    rw [drop_splice hp hi] at hoccurs ⊢
    exact hclosed _ (by omega) hoccurs

/-- Searching on from the next iframe passes over none. -/
theorem closed_found_iff {text : Bytes} {pos p : Nat}
    (hfind : findFrom (lit "<iframe") text pos = some p) : Closed text p ↔ Closed text pos := by
  obtain ⟨hpos, _, _, hfirst⟩ := findFrom_eq_some_iff.mp hfind
  constructor
  · intro hclosed i hi hoccurs
    rcases Nat.lt_or_ge i p with hlt | hge
    · exact absurd hoccurs (hfirst i hi hlt)
    · exact hclosed i hge hoccurs
  · intro hclosed i hi hoccurs
    exact hclosed i (Nat.le_trans hpos hi) hoccurs

/-- The second loop comes to an end just where every iframe has a `>` behind it. -/
theorem iframes_ends_iff (text : Bytes) : (∃ out, iframes.Ends text 0 out) ↔ Closed text 0 := by
  have hne : lit "<iframe" ≠ [] := by decide
  constructor
  · rintro ⟨out, hend⟩
    generalize 0 = pos at hend
    -- backwards along the run: erasing up to a `>` keeps what is behind closed
    induction hend with
    | done hfind =>
      intro i hi hoccurs
      exact absurd hoccurs ((findFrom_eq_none_iff hne).mp hfind i hi)
    | @stop text text' pos p _ hedit =>
      obtain ⟨_, _, _, _, hnext⟩ | ⟨_, _, hnext⟩ := iframes_round hedit
      · cases hnext
      · cases hnext
    | @next text text' out pos p pos' hfind hedit _ ih =>
      rw [← closed_found_iff hfind]
      have hp := (findFrom_eq_some_iff.mp hfind).2.1
      obtain ⟨count, hcount, hlast, rfl, hnext⟩ | ⟨_, rfl, hnext⟩ := iframes_round hedit
      · cases hnext
        exact (closed_erase_iff hp hcount hlast).mp ih
      · cases hnext
        exact ih
  · intro hclosed
    -- each round erases something, so the length of the text falls
    refine Pass.exists_ends (I := Closed) (fun text _ => text.length) ?_ hclosed
    intro text pos p text' pos' hclosed hfind hedit
    rw [← closed_found_iff hfind] at hclosed
    obtain ⟨_, hp, hoccurs, _⟩ := findFrom_eq_some_iff.mp hfind
    obtain ⟨count, hcount, hlast, rfl, hnext⟩ | ⟨hopen, _, _⟩ := iframes_round hedit
    · cases hnext
      refine ⟨(closed_erase_iff hp hcount hlast).mpr hclosed, ?_⟩
      have hinside := (List.getElem?_eq_some_iff.mp hlast).1
      rw [List.length_append, List.length_take, List.length_drop]
      omega
    · exact absurd (hclosed p (Nat.le_refl p) hoccurs) hopen

/-- What the first loop leaves has an iframe with no `>` behind it. -/
def Stuck (html : Bytes) : Prop := ∃ text, scripts.Ends html 0 text ∧ ¬ Closed text 0

/-- All the loops behind the first two come to an end. -/
theorem rest_ends (text : Bytes) : ∃ out, Pass.EndsAll (passes.drop 2) text out := by
  refine Pass.exists_endsAll ?_ text
  intro P hP text
  have hrest : passes.drop 2 = dangerousTags.map dangerousTag ++ eventAttrs.map eventAttr ++
      [javascriptUrls, dataUrls, styles, sandbox] := rfl
  rw [hrest, List.mem_append, List.mem_append] at hP
  obtain (hP | hP) | hP := hP
  · obtain ⟨tag, htag, rfl⟩ := List.mem_map.mp hP
    have hnonempty : ∀ tag ∈ dangerousTags, lit tag ≠ [] := by decide
    exact dangerousTag_ends (hnonempty tag htag) text
  · obtain ⟨attr, hattr, rfl⟩ := List.mem_map.mp hP
    have hnonempty : ∀ attr ∈ eventAttrs, lit attr ≠ [] := by decide
    exact eventAttr_ends (hnonempty attr hattr) text
  · simp only [List.mem_cons, List.not_mem_nil, or_false] at hP
    obtain rfl | rfl | rfl | rfl := hP
    · exact javascriptUrls_ends text
    · exact dataUrls_ends text
    · exact styles_ends text
    · exact sandbox_ends text

theorem sanitizeHtml_ends_iff {html out : Bytes} :
    (∃ fuel, sanitizeHtml fuel html = some out) ↔ Pass.EndsAll passes html out := by
  constructor
  · rintro ⟨fuel, hrun⟩
    exact Pass.endsAll_of_runAll hrun
  · intro hends
    obtain ⟨enough, hrun⟩ := hends.runAll
    exact ⟨enough, hrun enough (Nat.le_refl _)⟩

theorem ends_iff_not_stuck (html : Bytes) :
    (∃ out, Pass.EndsAll passes html out) ↔ ¬ Stuck html := by
  constructor
  · rintro ⟨out, mid, hmid, mid', hmid', _⟩ ⟨text, htext, hopen⟩
    obtain rfl := htext.unique hmid
    exact hopen ((iframes_ends_iff text).mp ⟨mid', hmid'⟩)
  · intro hfree
    obtain ⟨mid, hmid⟩ := scripts_ends html
    have hclosed : Closed mid 0 := by
      by_contra hopen
      exact hfree ⟨mid, hmid, hopen⟩
    obtain ⟨mid', hmid'⟩ := (iframes_ends_iff mid).mpr hclosed
    obtain ⟨out, hout⟩ := rest_ends mid'
    exact ⟨out, mid, hmid, mid', hmid', hout⟩

/-! ## The tags that are left -/

/-- A round of a loop that neither passes over a tag with a `>` behind it, nor joins the halves
of one whose loop is this or an earlier one. -/
structure Harmless (k : Nat) (P : Pass UInt8) (there : Bytes) (q : Nat) : Prop where
  skips : k = 0 → behind there q isAlnum = true → gt ∉ there.drop q
  joins : ∀ tag ∈ tags.take (k + 1), P.JoinsNone gt tag there q

/-- Every round of every loop is harmless. -/
def Undisturbed (html : Bytes) : Prop :=
  ∀ k P mid, passes[k]? = some P → Pass.EndsAll (passes.take k) html mid →
    ∀ there q, P.Visits mid 0 there q → Harmless k P there q

/-- The loops put in only these two texts. -/
theorem replace_patch {P : Pass UInt8} (hP : P ∈ passes) {there patch : Bytes}
    {q start count advance : Nat} (h : P.edit there q = .replace start count patch advance) :
    patch = lit "\"\"" ∨ patch = lit " sandbox=\"\"" := by
  have hquotes : ∀ advance',
      (emptyQuotes there q advance').getD .skip = .replace start count patch advance →
        patch = lit "\"\"" := by
    intro advance' hedit
    unfold emptyQuotes at hedit
    split at hedit
    · cases hedit
      rfl
    · cases hedit
  simp only [passes, List.mem_append, List.mem_map, List.mem_cons, List.not_mem_nil, or_false] at hP
  obtain (((rfl | rfl) | ⟨tag, _, rfl⟩) | ⟨attr, _, rfl⟩) | rfl | rfl | rfl | rfl := hP
  · simp only [scripts] at h
    grind
  · simp only [iframes] at h
    grind
  · simp only [dangerousTag] at h
    grind
  · simp only [eventAttr] at h
    grind
  · exact .inl (hquotes 0 h)
  · simp only [dataUrls] at h
    grind
  · simp only [styles] at h
    grind
  · simp only [sandbox] at h
    grind

/-- Neither of them has anything of a tag. -/
theorem patches_foreign {P : Pass UInt8} (hP : P ∈ passes) {tag : Bytes} (htag : tag ∈ tags) :
    P.PatchesForeign gt tag := by
  have hforeign : ∀ patch ∈ [lit "\"\"", lit " sandbox=\"\""], ∀ tag ∈ tags,
      (∀ first ∈ patch.head?, first ∉ tag) ∧ (∀ first ∈ tag.head?, first ∉ patch) ∧
        gt ∉ patch ∧ patch ≠ [] := by
    decide +kernel
  intro there q start count patch advance hedit
  have hpatch : patch ∈ [lit "\"\"", lit " sandbox=\"\""] := by
    obtain rfl | rfl := replace_patch hP hedit
    · exact List.mem_cons_self
    · exact List.mem_cons_of_mem _ List.mem_cons_self
  obtain ⟨hentry, hstart, hunmarked, hnonempty⟩ := hforeign patch hpatch tag htag
  exact ⟨hentry, hstart, hunmarked, hnonempty⟩

theorem tags_fine : ∀ tag ∈ tags, tag ≠ [] ∧ gt ∉ tag := by
  decide

/-- The loops of the five tags. -/
theorem own_pass_cases {k : Nat} {tag : Bytes} {P : Pass UInt8} (htag : tags[k]? = some tag)
    (hP : passes[k]? = some P) :
    (k = 0 ∧ P = scripts ∧ tag = lit "<script") ∨ (P = iframes ∧ tag = lit "<iframe") ∨
      ∃ name, P = dangerousTag name ∧ tag = lit name := by
  have hpasses : passes.take 5 = [scripts, iframes, dangerousTag "<object",
      dangerousTag "<embed", dangerousTag "<applet"] := rfl
  have hlt : k < 5 := (List.getElem?_eq_some_iff.mp htag).1
  rw [← List.getElem?_take_of_lt hlt, hpasses] at hP
  unfold tags at htag
  obtain _ | _ | _ | _ | _ | n := k
  · simp only [List.getElem?_cons_zero, Option.some.injEq] at hP htag
    exact .inl ⟨rfl, hP.symm, htag.symm⟩
  · simp only [List.getElem?_cons_succ, List.getElem?_cons_zero, Option.some.injEq] at hP htag
    exact .inr (.inl ⟨hP.symm, htag.symm⟩)
  · simp only [List.getElem?_cons_succ, List.getElem?_cons_zero, Option.some.injEq] at hP htag
    exact .inr (.inr ⟨_, hP.symm, htag.symm⟩)
  · simp only [List.getElem?_cons_succ, List.getElem?_cons_zero, Option.some.injEq] at hP htag
    exact .inr (.inr ⟨_, hP.symm, htag.symm⟩)
  · simp only [List.getElem?_cons_succ, List.getElem?_cons_zero, Option.some.injEq] at hP htag
    exact .inr (.inr ⟨_, hP.symm, htag.symm⟩)
  · omega

/-- Such a loop only ever erases, and apart from the first passes over no tag with a `>` behind
it. -/
theorem own_pass {k : Nat} {tag : Bytes} {P : Pass UInt8} (htag : tags[k]? = some tag)
    (hP : passes[k]? = some P) :
    P.pattern = tag ∧
      (∀ there q start count patch advance, P.edit there q ≠ .replace start count patch advance) ∧
      ∀ there q, P.edit there q = .skip →
        (k = 0 ∧ behind there q isAlnum = true) ∨ gt ∉ there.drop q := by
  -- the first two tags have loops of their own, the others share one
  obtain ⟨rfl, rfl, rfl⟩ | ⟨rfl, rfl⟩ | ⟨name, rfl, rfl⟩ := own_pass_cases htag hP
  · refine ⟨rfl, fun there q start count patch advance hedit => ?_, fun there q hedit => ?_⟩
    · simp only [scripts] at hedit
      grind
    · simp only [scripts] at hedit
      refine .inl ⟨rfl, ?_⟩
      grind
  · refine ⟨rfl, fun there q start count patch advance hedit => ?_, fun there q hedit => ?_⟩
    · obtain ⟨_, herase⟩ | ⟨hstay, _⟩ := iframes_edit there q
      · rw [herase] at hedit
        cases hedit
      · rw [hstay] at hedit
        cases hedit
    · obtain ⟨_, herase⟩ | ⟨hstay, _⟩ := iframes_edit there q
      · rw [herase] at hedit
        cases hedit
      · rw [hstay] at hedit
        cases hedit
  · have hgt : lit ">" = [gt] := by decide
    refine ⟨rfl, fun there q start count patch advance hedit => ?_, fun there q hedit => ?_⟩
    · simp only [dangerousTag] at hedit
      split at hedit <;> cases hedit
    · simp only [dangerousTag] at hedit
      split at hedit
      · cases hedit
      · rename_i hnone
        rw [hgt] at hnone
        exact .inr (findFrom_char_eq_none_iff.mp hnone)

/-- After so many loops the tags of those are clean. -/
theorem clean_after {html : Bytes} (hfine : Undisturbed html) {k : Nat} {mid : Bytes}
    (hmid : Pass.EndsAll (passes.take k) html mid) : ∀ tag ∈ tags.take k, Clean gt tag mid := by
  induction k generalizing mid with
  | zero =>
    intro tag htag
    cases htag
  | succ k ih =>
    intro tag htag
    have hmem : tag ∈ tags := List.mem_of_mem_take htag
    obtain ⟨hne, hunmarked⟩ := tags_fine tag hmem
    cases hP : passes[k]? with
    | none =>
      -- all the loops are over
      have hlength : passes.length ≤ k := List.getElem?_eq_none_iff.mp hP
      have hfive : tags.length ≤ passes.length := by decide
      rw [List.take_of_length_le (by omega)] at htag hmid
      rw [List.take_of_length_le hlength, List.take_of_length_le (by omega)] at ih
      exact ih hmid tag htag
    | some P =>
      rw [List.take_add_one, hP, Option.toList_some] at hmid
      obtain ⟨before, hbefore, after, hend, hafter⟩ := Pass.endsAll_append.mp hmid
      obtain rfl : mid = after := hafter
      have hrounds := hfine k P before hP hbefore
      have hjoins : ∀ there q, P.Visits before 0 there q → P.JoinsNone gt tag there q :=
        fun there q hvisit => (hrounds there q hvisit).joins tag htag
      rw [List.take_add_one, List.mem_append] at htag
      obtain hold | hown := htag
      · have hforeign := patches_foreign (List.mem_of_getElem? hP) hmem
        exact hend.clean hne hunmarked hforeign hjoins (ih hbefore tag hold)
      · obtain ⟨rfl, hreplace, hskip⟩ := own_pass (Option.mem_toList.mp hown) hP
        refine hend.clean_pattern hne hunmarked hreplace (fun there q hvisit hedit => ?_) hjoins
        obtain ⟨hfirst, halnum⟩ | hmark := hskip there q hedit
        · exact (hrounds there q hvisit).skips hfirst halnum
        · exact hmark

/-- It comes to an end unless an iframe has no `>` behind it, and what it then leaves is clean
if every round was harmless. -/
theorem sanitize_sound (html : Bytes) :
    ((∃ fuel out, sanitizeHtml fuel html = some out) ↔ ¬ Stuck html) ∧
      (¬ Stuck html → Undisturbed html → Sanitized html) := by
  constructor
  · rw [← ends_iff_not_stuck, exists_comm]
    exact exists_congr fun out => sanitizeHtml_ends_iff
  · intro hfree hfine
    obtain ⟨out, hout⟩ := (ends_iff_not_stuck html).mpr hfree
    obtain ⟨fuel, hrun⟩ := sanitizeHtml_ends_iff.mpr hout
    refine ⟨fuel, out, hrun, ?_⟩
    exact clean_after (k := passes.length) hfine (by rwa [List.take_length])

/-- A tag that is left spoils it. -/
theorem not_sanitized_of_run {html out tag : Bytes} {fuel i : Nat}
    (hrun : sanitizeHtml fuel html = some out) (htag : tag ∈ tags)
    (hoccurs : OccursAt tag out i) (hmark : gt ∈ out.drop i) : ¬ Sanitized html := by
  rintro ⟨fuel', out', hrun', hclean⟩
  have hends := sanitizeHtml_ends_iff.mp ⟨fuel, hrun⟩
  obtain rfl := hends.unique (sanitizeHtml_ends_iff.mp ⟨fuel', hrun'⟩)
  exact hclean tag htag i ⟨hoccurs, hmark⟩

/-- An iframe without a `>`, a script behind a letter, and a script in the middle of another:
the first is never done, and the other two leave `<script>` in the text. -/
theorem three_not_sanitized :
    ¬ Sanitized (lit "<iframe") ∧ ¬ Sanitized (lit "a<script>") ∧
      ¬ Sanitized (lit "<<script></script>script>") := by
  refine ⟨?_, ?_, ?_⟩
  · rintro ⟨fuel, out, hrun, _⟩
    refine (ends_iff_not_stuck _).mp ⟨out, sanitizeHtml_ends_iff.mp ⟨fuel, hrun⟩⟩ ?_
    refine ⟨lit "<iframe", .done (by decide), fun hclosed => ?_⟩
    exact absurd (hclosed 0 (Nat.le_refl 0) (by decide)) (by decide)
  · have hrun : sanitizeHtml 2 (lit "a<script>") = some (lit "a<script>") := by decide
    have hoccurs : OccursAt (lit "<script") (lit "a<script>") 1 := by decide
    exact not_sanitized_of_run hrun List.mem_cons_self hoccurs (by decide)
  · have hrun : sanitizeHtml 2 (lit "<<script></script>script>") = some (lit "<script>") := by
      decide
    have hoccurs : OccursAt (lit "<script") (lit "<script>") 0 := by decide
    exact not_sanitized_of_run hrun List.mem_cons_self hoccurs (by decide)

/-- Behind a mark no tag can go on. -/
theorem not_joins_of_getLast? {tag front back : Bytes} (htag : gt ∉ tag)
    (hlast : front.getLast? = some gt) : ¬ Joins gt tag front back := by
  rintro ⟨u, v, hu, _, rfl, ⟨w, rfl⟩, _⟩
  rw [List.getLast?_append_of_ne_nil _ hu] at hlast
  exact htag (List.mem_append_left v (List.mem_of_getLast? hlast))

/-- Loops that find nothing change nothing. -/
theorem endsAll_quiet {quiet : List (Pass UInt8)} {text out : Bytes}
    (hquiet : ∀ P ∈ quiet, findFrom P.pattern text 0 = none) (h : Pass.EndsAll quiet text out) :
    out = text := by
  induction quiet with
  | nil => exact h
  | cons P rest ih =>
    obtain ⟨mid, hmid, hrest⟩ := h
    obtain rfl := hmid.unique (.done (hquiet P List.mem_cons_self))
    exact ih (fun P hP => hquiet P (List.mem_cons_of_mem _ hP)) hrest

/-- A text whose only script stands between two tags. -/
def boldScript : Bytes := lit "<b><script>x</script></b>"

/-- The first loop comes to one place in it. -/
theorem boldScript_visits {there : Bytes} {q : Nat} (h : scripts.Visits boldScript 0 there q) :
    there = boldScript ∧ q = 3 := by
  have hplace : findFrom scripts.pattern boldScript 0 = some 3 := by decide
  have hresult : (scripts.edit boldScript 3).apply boldScript 3 = (lit "<b></b>", some 3) := by
    decide
  have hquiet : findFrom scripts.pattern (lit "<b></b>") 3 = none := by decide
  cases h with
  | here hfind =>
    rw [hplace] at hfind
    exact ⟨rfl, (Option.some.inj hfind).symm⟩
  | later hfind hedit hrest =>
    rw [hplace] at hfind
    obtain rfl := Option.some.inj hfind
    rw [hresult] at hedit
    cases hedit
    cases hrest with
    | here hfind => exact absurd (hquiet.symm.trans hfind) (by simp)
    | later hfind _ _ => exact absurd (hquiet.symm.trans hfind) (by simp)

theorem boldScript_undisturbed : Undisturbed boldScript := by
  intro k P mid hP hmid there q hvisit
  cases k with
  | zero =>
    obtain rfl : scripts = P := Option.some.inj hP
    obtain rfl : mid = boldScript := hmid
    obtain ⟨rfl, rfl⟩ := boldScript_visits hvisit
    refine ⟨fun _ halnum => absurd halnum (by decide), fun tag htag count _ => ?_⟩
    exact not_joins_of_getLast? (tags_fine tag (List.mem_of_mem_take htag)).2 (by decide)
  | succ k =>
    have hquiet : ∀ P ∈ passes, findFrom P.pattern (lit "<b></b>") 0 = none := by decide
    have hrun : scripts.run 2 boldScript 0 = some (lit "<b></b>") := by decide
    obtain ⟨first, hfirst, hrest⟩ := hmid
    obtain rfl := hfirst.unique (Pass.ends_of_run hrun)
    have hmem : P ∈ passes := List.mem_of_getElem? hP
    obtain rfl := endsAll_quiet
      (fun P hP => hquiet P (List.mem_cons_of_mem _ (List.mem_of_mem_take hP))) hrest
    cases hvisit with
    | here hfind => exact absurd ((hquiet P hmem).symm.trans hfind) (by simp)
    | later hfind _ _ => exact absurd ((hquiet P hmem).symm.trans hfind) (by simp)

theorem boldScript_sanitized :
    ¬ Stuck boldScript ∧ Undisturbed boldScript ∧ Sanitized boldScript := by
  have hfree : ¬ Stuck boldScript := by
    refine (sanitize_sound boldScript).1.mp ⟨2, lit "<b></b>", ?_⟩
    decide
  exact ⟨hfree, boldScript_undisturbed,
    (sanitize_sound boldScript).2 hfree boldScript_undisturbed⟩

end Cashew.Theorems.HtmlSanitizing
