import Mathlib

/-!
# Worklists

A loop over a queue: the item at the front is visited, which ends the loop with a result or
changes a state and pushes items at the back; an empty queue ends it too.

* `run` is the loop for a number of rounds, and `Yields` says that it ends with a result;
  `Yields.of_invariant` is the rule for it: an invariant with a measure that falls, or
  levels that rise to a bound (`Yields.of_levels`), and `Yields.map` carries a result over
  to a worklist whose items stand for those of another;
* `discover` — the inner loop that marks the neighbours that are new and pushes them, and
  `foldl_eq_discover`, which finds it in a loop over edges;
* `Steps` — walks with the number of their steps;
* `collecting` and `measuring` — breadth-first search for what can be reached
  (`collecting_yields`), and for the number of steps to a goal (`measuring_yields`).
-/

namespace Cashew.Lib

/-- A loop over a queue of items `α` with a state `σ` and results `ρ`. -/
structure Worklist (σ α ρ : Type) where
  visit : σ → α → ρ ⊕ (σ × List α)
  finish : σ → ρ

namespace Worklist

variable {σ α β ρ τ : Type} (w : Worklist σ α ρ)

/-- So many rounds of the loop. -/
def run : Nat → σ → List α → Option ρ
  | 0, _, _ => none
  | _ + 1, s, [] => some (w.finish s)
  | rounds + 1, s, a :: rest =>
    match w.visit s a with
    | .inl result => some result
    | .inr (s', more) => run rounds s' (rest ++ more)

/-- The loop ends with the result: every number of rounds from some on gives it. -/
def Yields (s : σ) (queue : List α) (result : ρ) : Prop :=
  ∃ rounds, ∀ fuel ≥ rounds, w.run fuel s queue = some result

/-- Two results that every number of rounds from some on gives are one. -/
theorem eq_of_rounds {f : Nat → Option ρ} {r r' : ρ}
    (h : ∃ rounds, ∀ fuel ≥ rounds, f fuel = some r)
    (h' : ∃ rounds, ∀ fuel ≥ rounds, f fuel = some r') : r = r' := by
  obtain ⟨rounds, hrounds⟩ := h
  obtain ⟨rounds', hrounds'⟩ := h'
  have hboth := hrounds (rounds + rounds') (Nat.le_add_right _ _)
  rw [hrounds' (rounds + rounds') (Nat.le_add_left _ _)] at hboth
  exact (Option.some.inj hboth).symm

variable {w}

namespace Yields

theorem finish (s : σ) : w.Yields s [] (w.finish s) := by
  refine ⟨1, fun fuel hfuel => ?_⟩
  obtain ⟨k, rfl⟩ := Nat.exists_eq_add_of_le' hfuel
  rfl

theorem result {s : σ} {a : α} {result : ρ} (h : w.visit s a = .inl result) (rest : List α) :
    w.Yields s (a :: rest) result := by
  refine ⟨1, fun fuel hfuel => ?_⟩
  obtain ⟨k, rfl⟩ := Nat.exists_eq_add_of_le' hfuel
  rw [run, h]

theorem visit {s s' : σ} {a : α} {more : List α} (h : w.visit s a = .inr (s', more))
    {rest : List α} {result : ρ} (hlater : w.Yields s' (rest ++ more) result) :
    w.Yields s (a :: rest) result := by
  obtain ⟨rounds, hrounds⟩ := hlater
  refine ⟨rounds + 1, fun fuel hfuel => ?_⟩
  obtain ⟨k, rfl⟩ := Nat.exists_eq_add_of_le' (Nat.le_trans (Nat.le_add_left 1 rounds) hfuel)
  rw [run, h]
  exact hrounds k (by omega)

/-- What every visit keeps, with a measure that it makes smaller, ends in a result. -/
theorem of_invariant (I : σ → List α → Prop) (measure : σ → List α → Nat) (Post : ρ → Prop)
    (hresult : ∀ s a rest r, I s (a :: rest) → w.visit s a = .inl r → Post r)
    (hvisit : ∀ s a rest s' more, I s (a :: rest) → w.visit s a = .inr (s', more) →
      I s' (rest ++ more) ∧ measure s' (rest ++ more) < measure s (a :: rest))
    (hfinish : ∀ s, I s [] → Post (w.finish s)) {s : σ} {queue : List α} (h : I s queue) :
    ∃ r, w.Yields s queue r ∧ Post r := by
  induction hsize : measure s queue using Nat.strong_induction_on generalizing s queue with
  | _ n ih =>
    cases queue with
    | nil => exact ⟨_, finish s, hfinish s h⟩
    | cons a rest =>
      cases hcase : w.visit s a with
      | inl r => exact ⟨r, result hcase rest, hresult s a rest r h hcase⟩
      | inr next =>
        obtain ⟨s', more⟩ := next
        obtain ⟨hnext, hless⟩ := hvisit s a rest s' more h hcase
        obtain ⟨r, hyields, hpost⟩ := ih _ (hsize ▸ hless) hnext rfl
        exact ⟨r, hyields.visit hcase, hpost⟩

/-- So does a loop in which what an item pushes is bounded in number, and lies on higher
levels that have a bound. -/
theorem of_levels (I : σ → List α → Prop) (level : α → Nat) (top width : Nat) (Post : ρ → Prop)
    (hresult : ∀ s a rest r, I s (a :: rest) → w.visit s a = .inl r → Post r)
    (hvisit : ∀ s a rest s' more, I s (a :: rest) → w.visit s a = .inr (s', more) →
      I s' (rest ++ more) ∧ more.length ≤ width ∧ ∀ b ∈ more, level a < level b ∧ level b ≤ top)
    (hfinish : ∀ s, I s [] → Post (w.finish s)) {s : σ} {queue : List α} (h : I s queue) :
    ∃ r, w.Yields s queue r ∧ Post r := by
  -- an item weighs more than all it can push: the weight is a power by its level
  refine of_invariant I (fun _ queue => (queue.map fun a => (width + 1) ^ (top - level a)).sum) Post
    hresult (fun s a rest s' more hI hcase => ?_) hfinish h
  obtain ⟨hnext, hwidth, hlevels⟩ := hvisit s a rest s' more hI hcase
  refine ⟨hnext, ?_⟩
  rw [List.map_append, List.sum_append, List.map_cons, List.sum_cons, Nat.add_comm]
  refine Nat.add_lt_add_right ?_ _
  cases more with
  | nil => exact Nat.pow_pos (Nat.succ_pos width)
  | cons b others =>
    obtain ⟨k, hk⟩ : ∃ k, top - level a = k + 1 := by
      have hb := hlevels b List.mem_cons_self
      exact ⟨top - level a - 1, by omega⟩
    have hpaid : ∀ n ∈ (b :: others).map fun a => (width + 1) ^ (top - level a),
        n ≤ (width + 1) ^ k := by
      intro n hn
      obtain ⟨c, hc, rfl⟩ := List.mem_map.mp hn
      have hc := hlevels c hc
      exact Nat.pow_le_pow_right (Nat.succ_pos width) (by omega)
    have hsum := List.sum_le_card_nsmul _ _ hpaid
    rw [List.length_map, smul_eq_mul] at hsum
    calc ((b :: others).map fun a => (width + 1) ^ (top - level a)).sum
      _ ≤ (b :: others).length * (width + 1) ^ k := hsum
      _ ≤ width * (width + 1) ^ k := Nat.mul_le_mul_right _ hwidth
      _ < (width + 1) * (width + 1) ^ k :=
        Nat.mul_lt_mul_of_pos_right (Nat.lt_succ_self width) (Nat.pow_pos (Nat.succ_pos width))
      _ = (width + 1) ^ (top - level a) := by rw [hk, Nat.pow_succ, Nat.mul_comm]

/-- A worklist whose items and results stand for those of another does what it does. -/
theorem map {v : Worklist σ β τ} (f : α → β) (g : ρ → τ)
    (hvisit : ∀ s a, v.visit s (f a) = (w.visit s a).map g fun next => (next.1, next.2.map f))
    (hfinish : ∀ s, v.finish s = g (w.finish s)) {s : σ} {queue : List α} {result : ρ}
    (h : w.Yields s queue result) : v.Yields s (queue.map f) (g result) := by
  have hrun : ∀ fuel s queue, v.run fuel s (queue.map f) = (w.run fuel s queue).map g := by
    intro fuel
    induction fuel with
    | zero => exact fun _ _ => rfl
    | succ fuel ih =>
      intro s queue
      cases queue with
      | nil => exact congrArg some (hfinish s)
      | cons a rest =>
        rw [List.map_cons, run, run, hvisit]
        cases w.visit s a with
        | inl r => rfl
        | inr next =>
          show v.run fuel next.1 (rest.map f ++ next.2.map f) = _
          rw [← List.map_append]
          exact ih _ _
  obtain ⟨rounds, hrounds⟩ := h
  exact ⟨rounds, fun fuel hfuel => by rw [hrun, hrounds fuel hfuel]; rfl⟩

end Yields

end Worklist

/-! ## Neighbours that are new -/

section Discover

variable {α : Type} [DecidableEq α]

/-- The loop over neighbours: those that are not marked are marked and pushed. -/
def discover (seen : Finset α) : List α → Finset α × List α
  | [] => (seen, [])
  | a :: rest =>
    if a ∈ seen then discover seen rest
    else ((discover (insert a seen) rest).1, a :: (discover (insert a seen) rest).2)

theorem mem_discover_fst {seen : Finset α} {neighbours : List α} {b : α} :
    b ∈ (discover seen neighbours).1 ↔ b ∈ seen ∨ b ∈ neighbours := by
  fun_induction discover seen neighbours with
  | case1 => simp
  | case2 seen a rest hseen ih =>
    rw [ih, List.mem_cons]
    constructor
    · exact Or.imp_right .inr
    · rintro (hb | rfl | hb)
      exacts [.inl hb, .inl hseen, .inr hb]
  | case3 seen a rest hnew ih =>
    rw [ih, Finset.mem_insert, List.mem_cons, or_assoc, or_left_comm]

theorem mem_discover_snd {seen : Finset α} {neighbours : List α} {b : α} :
    b ∈ (discover seen neighbours).2 ↔ b ∉ seen ∧ b ∈ neighbours := by
  fun_induction discover seen neighbours with
  | case1 => simp
  | case2 seen a rest hseen ih =>
    rw [ih, List.mem_cons]
    refine and_congr_right fun hb => ⟨.inr, ?_⟩
    rintro (rfl | h)
    · exact absurd hseen hb
    · exact h
  | case3 seen a rest hnew ih =>
    rw [List.mem_cons, List.mem_cons, ih, Finset.mem_insert]
    constructor
    · rintro (rfl | ⟨hb, hrest⟩)
      · exact ⟨hnew, .inl rfl⟩
      · exact ⟨fun hseen => hb (.inr hseen), .inr hrest⟩
    · rintro ⟨hb, rfl | hrest⟩
      · exact .inl rfl
      · by_cases heq : b = a
        · exact .inl heq
        · exact .inr ⟨fun h => h.elim heq hb, hrest⟩

/-- As many are pushed as are marked. -/
theorem card_discover (seen : Finset α) (neighbours : List α) :
    (discover seen neighbours).1.card = seen.card + (discover seen neighbours).2.length := by
  fun_induction discover seen neighbours with
  | case1 => rfl
  | case2 seen a rest hseen ih => exact ih
  | case3 seen a rest hnew ih =>
    rw [Finset.card_insert_of_notMem hnew] at ih
    rw [ih, List.length_cons]
    omega

/-- What is left of a finite set of nodes pays for the items that are pushed. -/
theorem discover_pays {nodes : Finset α} {seen : Finset α} {neighbours : List α} (queued : Nat)
    (hseen : seen ⊆ nodes) (hneighbours : ∀ b ∈ neighbours, b ∈ nodes) :
    (discover seen neighbours).1 ⊆ nodes ∧
      2 * (nodes.card - (discover seen neighbours).1.card) +
          (queued + (discover seen neighbours).2.length) <
        2 * (nodes.card - seen.card) + (queued + 1) := by
  have hsubset : (discover seen neighbours).1 ⊆ nodes := by
    intro b hb
    exact (mem_discover_fst.mp hb).elim (fun h => hseen h) (hneighbours b)
  have hcard := Finset.card_le_card hsubset
  have hnew := card_discover seen neighbours
  exact ⟨hsubset, by omega⟩

/-- A loop that marks and pushes what is new among the items that pass a test. -/
theorem foldl_eq_discover {β γ : Type} {step : Finset α × List γ → β → Finset α × List γ}
    (test : β → Prop) [DecidablePred test] (key : β → α) (item : α → γ)
    (hstep : ∀ found b, step found b =
      if test b ∧ key b ∉ found.1 then (insert (key b) found.1, found.2 ++ [item (key b)])
      else found)
    (items : List β) (seen : Finset α) (pushed : List γ) :
    items.foldl step (seen, pushed) =
      ((discover seen ((items.filter test).map key)).1,
        pushed ++ (discover seen ((items.filter test).map key)).2.map item) := by
  induction items generalizing seen pushed with
  | nil => simp [discover]
  | cons b rest ih =>
    rw [List.foldl_cons, hstep]
    by_cases htest : test b
    · rw [List.filter_cons_of_pos (by simpa using htest), List.map_cons, discover]
      by_cases hseen : key b ∈ seen
      · rw [if_neg (fun h => h.2 hseen), if_pos hseen]
        exact ih seen pushed
      · rw [if_pos ⟨htest, hseen⟩, if_neg hseen, ih, List.map_cons, List.append_assoc]
        rfl
    · rw [List.filter_cons_of_neg (by simpa using htest), if_neg (fun h => htest h.1)]
      exact ih seen pushed

end Discover

/-! ## Walks -/

/-- A walk of so many steps. -/
inductive Steps {α : Type} (next : α → α → Prop) (a : α) : Nat → α → Prop where
  | start : Steps next a 0 a
  | snoc {n : Nat} {b c : α} : Steps next a n b → next b c → Steps next a (n + 1) c

/-! ## Breadth-first search -/

section Search

variable {α : Type} [DecidableEq α] (next : α → List α)

/-- The step of a walk. -/
def Follows (a b : α) : Prop := b ∈ next a

/-- A search for everything that can be reached. -/
def collecting : Worklist (Finset α) α (Finset α) where
  visit seen a := .inr ((discover seen (next a)).1, (discover seen (next a)).2)
  finish seen := seen

/-- A search for a goal that counts the steps to it. -/
def measuring (goal : α) : Worklist (Finset α) (α × Nat) (Option Nat) where
  visit seen item :=
    if item.1 = goal then .inl (some item.2)
    else
      .inr ((discover seen (next item.1)).1,
        (discover seen (next item.1)).2.map fun b => (b, item.2 + 1))
  finish _ := none

variable {next} {start goal : α} {nodes : Finset α}

/-- What is marked can be reached, and is in the queue or has its neighbours marked. -/
structure Collected (next : α → List α) (nodes : Finset α) (start : α) (seen : Finset α)
    (queue : List α) : Prop where
  inside : seen ⊆ nodes
  start_mem : start ∈ seen
  reached : ∀ a ∈ seen, Relation.ReflTransGen (Follows next) start a
  queued : ∀ a ∈ queue, a ∈ seen
  closed : ∀ a ∈ seen, a ∈ queue ∨ ∀ b ∈ next a, b ∈ seen

theorem Collected.visit (hnodes : ∀ a, ∀ b ∈ next a, b ∈ nodes) {seen : Finset α} {a : α}
    {rest : List α} (h : Collected next nodes start seen (a :: rest)) :
    Collected next nodes start (discover seen (next a)).1
      (rest ++ (discover seen (next a)).2) := by
  constructor
  · exact (discover_pays 0 h.inside (hnodes a)).1
  · exact mem_discover_fst.mpr (.inl h.start_mem)
  · intro b hb
    rcases mem_discover_fst.mp hb with hb | hb
    · exact h.reached b hb
    · exact (h.reached a (h.queued a List.mem_cons_self)).tail hb
  · intro b hb
    refine mem_discover_fst.mpr ?_
    rcases List.mem_append.mp hb with hb | hb
    · exact .inl (h.queued b (List.mem_cons_of_mem a hb))
    · exact .inr (mem_discover_snd.mp hb).2
  · intro b hb
    by_cases hseen : b ∈ seen
    · rcases h.closed b hseen with hqueued | hclosed
      · rcases List.mem_cons.mp hqueued with rfl | hrest
        · exact .inr fun c hc => mem_discover_fst.mpr (.inr hc)
        · exact .inl (List.mem_append_left _ hrest)
      · exact .inr fun c hc => mem_discover_fst.mpr (.inl (hclosed c hc))
    · have hnew := (mem_discover_fst.mp hb).resolve_left hseen
      exact .inl (List.mem_append_right _ (mem_discover_snd.mpr ⟨hseen, hnew⟩))

/-- The search for what can be reached ends with just that. -/
theorem collecting_yields (hstart : start ∈ nodes) (hnodes : ∀ a, ∀ b ∈ next a, b ∈ nodes) :
    ∃ found, (collecting next).Yields {start} [start] found ∧
      ∀ a, a ∈ found ↔ Relation.ReflTransGen (Follows next) start a := by
  refine Worklist.Yields.of_invariant (Collected next nodes start)
    (fun seen queue => 2 * (nodes.card - seen.card) + queue.length)
    (fun found => ∀ a, a ∈ found ↔ Relation.ReflTransGen (Follows next) start a) ?_ ?_ ?_ ?_
  · exact fun _ _ _ _ _ h => nomatch h
  · rintro seen a rest _ _ h ⟨rfl⟩
    refine ⟨h.visit hnodes, ?_⟩
    rw [List.length_append, List.length_cons]
    exact (discover_pays rest.length h.inside (hnodes a)).2
  · intro seen h a
    refine ⟨h.reached a, fun hreach => ?_⟩
    induction hreach with
    | refl => exact h.start_mem
    | tail _ hlast ih =>
      exact (h.closed _ ih).elim (fun hqueued => nomatch hqueued) fun hclosed => hclosed _ hlast
  · exact ⟨Finset.singleton_subset_iff.mpr hstart, Finset.mem_singleton_self _,
      fun a ha => Finset.mem_singleton.mp ha ▸ .refl,
      fun a ha => Finset.mem_singleton.mpr (List.mem_singleton.mp ha),
      fun a ha => .inl (List.mem_singleton.mpr (Finset.mem_singleton.mp ha))⟩

/-- The numbers of steps of the walks to a node. -/
def walkLengths (next : α → List α) (start a : α) : Set Nat := {n | Steps (Follows next) start n a}

/-- An item has the fewest steps there are to its node, the queue is in the order of the
steps, none more than one above another, and every marked node is queued, or has its
neighbours marked and is not the goal. -/
structure Measured (next : α → List α) (nodes : Finset α) (start goal : α) (seen : Finset α)
    (queue : List (α × Nat)) : Prop where
  inside : seen ⊆ nodes
  start_mem : start ∈ seen
  least : ∀ item ∈ queue, item.1 ∈ seen ∧ IsLeast (walkLengths next start item.1) item.2
  sorted : queue.Pairwise fun x y => x.2 ≤ y.2 ∧ y.2 ≤ x.2 + 1
  closed : ∀ a ∈ seen, (∃ n, (a, n) ∈ queue) ∨ a ≠ goal ∧ ∀ b ∈ next a, b ∈ seen

/-- A walk to a node that is not marked is longer than one to some item. -/
theorem Measured.exists_item {seen : Finset α} {queue : List (α × Nat)}
    (h : Measured next nodes start goal seen queue) {n : Nat} {b : α}
    (hwalk : Steps (Follows next) start n b) (hb : b ∉ seen) : ∃ item ∈ queue, item.2 + 1 ≤ n := by
  induction hwalk with
  | start => exact absurd h.start_mem hb
  | snoc hwalk hlast ih =>
    rename_i n a b
    by_cases ha : a ∈ seen
    · rcases h.closed a ha with ⟨m, hm⟩ | ⟨-, hclosed⟩
      · exact ⟨(a, m), hm, Nat.succ_le_succ ((h.least _ hm).2.2 hwalk)⟩
      · exact absurd (hclosed b hlast) hb
    · obtain ⟨item, hitem, hle⟩ := ih ha
      exact ⟨item, hitem, hle.trans (Nat.le_succ n)⟩

theorem Measured.visit (hnodes : ∀ a, ∀ b ∈ next a, b ∈ nodes) {seen : Finset α}
    {item : α × Nat} {rest : List (α × Nat)} (hgoal : item.1 ≠ goal)
    (h : Measured next nodes start goal seen (item :: rest)) :
    Measured next nodes start goal (discover seen (next item.1)).1
      (rest ++ (discover seen (next item.1)).2.map fun b => (b, item.2 + 1)) := by
  obtain ⟨hfirst, hrest⟩ := List.pairwise_cons.mp h.sorted
  constructor
  · exact (discover_pays 0 h.inside (hnodes item.1)).1
  · exact mem_discover_fst.mpr (.inl h.start_mem)
  · intro other hother
    rcases List.mem_append.mp hother with hold | hnew
    · obtain ⟨hseen, hleast⟩ := h.least other (List.mem_cons_of_mem item hold)
      exact ⟨mem_discover_fst.mpr (.inl hseen), hleast⟩
    · obtain ⟨b, hb, rfl⟩ := List.mem_map.mp hnew
      obtain ⟨hunseen, hnext⟩ := mem_discover_snd.mp hb
      refine ⟨mem_discover_fst.mpr (.inr hnext), ?_, ?_⟩
      · exact (h.least item List.mem_cons_self).2.1.snoc hnext
      · -- no item has fewer steps than the one at the front
        intro n hn
        obtain ⟨before, hbefore, hle⟩ := h.exists_item hn hunseen
        rcases List.mem_cons.mp hbefore with rfl | hbefore
        · exact hle
        · exact (Nat.succ_le_succ (hfirst before hbefore).1).trans hle
  -- behind the front an item has at most one step more, as the new ones have
  · refine List.pairwise_append.mpr ⟨hrest, ?_, ?_⟩
    · rw [List.pairwise_map]
      exact List.pairwise_of_forall fun _ _ => ⟨le_rfl, Nat.le_succ _⟩
    · intro x hx y hy
      obtain ⟨b, -, rfl⟩ := List.mem_map.mp hy
      exact ⟨(hfirst x hx).2, Nat.succ_le_succ (hfirst x hx).1⟩
  -- an element is still queued, or visited with all its neighbours seen
  · intro b hb
    by_cases hseen : b ∈ seen
    · rcases h.closed b hseen with ⟨n, hqueued⟩ | ⟨hne, hclosed⟩
      · rcases List.mem_cons.mp hqueued with rfl | hrest
        · exact .inr ⟨hgoal, fun c hc => mem_discover_fst.mpr (.inr hc)⟩
        · exact .inl ⟨n, List.mem_append_left _ hrest⟩
      · exact .inr ⟨hne, fun c hc => mem_discover_fst.mpr (.inl (hclosed c hc))⟩
    · have hnew := (mem_discover_fst.mp hb).resolve_left hseen
      exact .inl ⟨item.2 + 1, List.mem_append_right _
        (List.mem_map.mpr ⟨b, mem_discover_snd.mpr ⟨hseen, hnew⟩, rfl⟩)⟩

/-- What a search for a goal is to find. -/
def Distance (next : α → List α) (start goal : α) : Option Nat → Prop
  | some n => IsLeast (walkLengths next start goal) n
  | none => walkLengths next start goal = ∅

/-- The search for a goal ends with the fewest steps to it. -/
theorem measuring_yields (hstart : start ∈ nodes) (hnodes : ∀ a, ∀ b ∈ next a, b ∈ nodes) :
    ∃ distance, (measuring next goal).Yields {start} [(start, 0)] distance ∧
      Distance next start goal distance := by
  refine Worklist.Yields.of_invariant (Measured next nodes start goal)
    (fun seen queue => 2 * (nodes.card - seen.card) + queue.length)
    (Distance next start goal) ?_ ?_ ?_ ?_
  -- the answer is the length noted with the goal, and none is shorter
  · intro seen item rest r h hvisit
    unfold measuring at hvisit
    dsimp only at hvisit
    split at hvisit
    · rename_i hgoal
      cases hvisit
      rw [← hgoal]
      exact (h.least item List.mem_cons_self).2
    · cases hvisit
  -- a visited item pays for the new nodes it puts in the queue
  · intro seen item rest s' more h hvisit
    unfold measuring at hvisit
    dsimp only at hvisit
    split at hvisit
    · cases hvisit
    · rename_i hgoal
      cases hvisit
      refine ⟨h.visit hnodes hgoal, ?_⟩
      rw [List.length_append, List.length_map, List.length_cons]
      exact (discover_pays rest.length h.inside (hnodes item.1)).2
  -- with an empty queue the goal is not reachable
  · intro seen h
    refine Set.eq_empty_iff_forall_notMem.mpr fun n hn => ?_
    by_cases hgoal : goal ∈ seen
    · rcases h.closed goal hgoal with ⟨m, hm⟩ | ⟨hne, -⟩
      · cases hm
      · exact hne rfl
    · obtain ⟨item, hitem, -⟩ := h.exists_item hn hgoal
      cases hitem
  -- at the start
  · refine ⟨Finset.singleton_subset_iff.mpr hstart, Finset.mem_singleton_self _, ?_,
      List.pairwise_singleton _ _, ?_⟩
    · intro item hitem
      rw [List.mem_singleton.mp hitem]
      exact ⟨Finset.mem_singleton_self _, .start, fun _ _ => Nat.zero_le _⟩
    · intro a ha
      rw [Finset.mem_singleton.mp ha]
      exact .inl ⟨0, List.mem_singleton_self _⟩

end Search

end Cashew.Lib
