import Mathlib

/-!
# Trails

A loop over a queue that pushes, for the item at its front, one item for each of several
nodes walks over a graph; the items stand for trails, the lists of the nodes on the way to
them. When the nodes are pushed in their order, trails are taken by the number of their
nodes, and among those of one length in the order of the lists.

* `place` — where a trail comes in that order, which is well-founded
  (`wellFounded_place`), and how it goes on with one more node;
* `InOrder` — a queue of trails that is in order, also with what its items will push
  (`InOrder.push`);
* `Taken` — the trails whose turn is over.
-/

namespace Cashew.Lib

variable {α : Type} {a b : List α} {u v : α}

/-- The place of a trail: by the number of its nodes, then in the order of the lists. -/
def place (trail : List α) : ℕ ×ₗ List α := toLex (trail.length, trail)

theorem place_injective : Function.Injective (place (α := α)) := by
  intro a b h
  exact congrArg (fun p => (ofLex p).2) h

variable [LinearOrder α]

theorem place_lt_iff :
    place a < place b ↔ a.length < b.length ∨ a.length = b.length ∧ a < b :=
  Prod.Lex.toLex_lt_toLex

theorem length_le_of_place_le (h : place a ≤ place b) : a.length ≤ b.length := by
  rcases h.lt_or_eq with hlt | heq
  · exact (place_lt_iff.mp hlt).elim Nat.le_of_lt fun hsame => hsame.1.le
  · rw [place_injective heq]

theorem place_nil_le (a : List α) : place [] ≤ place a := by
  rw [← not_lt, place_lt_iff]
  rintro (hlen | ⟨hlen, hlt⟩)
  · exact absurd hlen (Nat.not_lt_zero _)
  · exact List.not_lt_nil a hlt

theorem place_lt_concat (a : List α) (u : α) : place a < place (a ++ [u]) := by
  rw [place_lt_iff, List.length_append, List.length_singleton]
  exact .inl (Nat.lt_succ_self _)

/-- Lists of one length go on in the order they are in. -/
theorem append_singleton_lt (hlen : a.length = b.length) (h : a < b) (u v : α) :
    a ++ [u] < b ++ [v] := by
  induction a generalizing b with
  | nil =>
    cases b with
    | nil => exact absurd h (lt_irrefl _)
    | cons y b => cases hlen
  | cons x a ih =>
    cases b with
    | nil => cases hlen
    | cons y b =>
      rw [List.cons_append, List.cons_append, List.cons_lt_cons_iff]
      rcases List.cons_lt_cons_iff.mp h with hxy | ⟨rfl, hab⟩
      · exact .inl hxy
      · exact .inr ⟨rfl, ih (Nat.succ.inj hlen) hab⟩

theorem place_concat_lt (h : place a < place b) (u v : α) :
    place (a ++ [u]) < place (b ++ [v]) := by
  rw [place_lt_iff] at h ⊢
  simp only [List.length_append, List.length_singleton]
  rcases h with hlen | ⟨hlen, hlt⟩
  · exact .inl (Nat.succ_lt_succ hlen)
  · exact .inr ⟨congrArg (· + 1) hlen, append_singleton_lt hlen hlt u v⟩

theorem place_concat_lt_concat (a : List α) (h : u < v) :
    place (a ++ [u]) < place (a ++ [v]) := by
  rw [place_lt_iff]
  refine .inr ⟨by simp, List.append_left_lt ?_⟩
  exact List.cons_lt_cons_iff.mpr (.inl h)

/-- No sequence of trails goes down in this order for ever, so that something can be defined
for a trail from what it is for the trails before it. -/
theorem wellFounded_place [WellFoundedLT α] :
    WellFounded fun a b : List α => place a < place b := by
  refine Subrelation.wf (r := List.Shortlex (· < ·)) (fun {a b} h => ?_)
    (List.Shortlex.wf wellFounded_lt)
  rw [List.shortlex_def]
  exact place_lt_iff.mp h

theorem finite_before [Finite α] (a : List α) : {b : List α | place b < place a}.Finite :=
  (List.finite_length_le α a.length).subset fun _ h => length_le_of_place_le h.le

/-- The trails of a queue are in order, and come before what any of them will push. -/
structure InOrder (queue : List (List α)) : Prop where
  sorted : queue.Pairwise fun a b => place a < place b
  near : ∀ a ∈ queue, ∀ b ∈ queue, ∀ v, place a < place (b ++ [v])

theorem inOrder_singleton (a : List α) : InOrder [a] := by
  refine ⟨List.pairwise_singleton _ _, fun b hb c hc v => ?_⟩
  rw [List.mem_singleton.mp hb, List.mem_singleton.mp hc]
  exact place_lt_concat a v

namespace InOrder

variable {rest : List (List α)}

theorem front_le (h : InOrder (a :: rest)) (hb : b ∈ a :: rest) : place a ≤ place b := by
  rcases List.mem_cons.mp hb with rfl | hrest
  · exact le_rfl
  · exact ((List.pairwise_cons.mp h.sorted).1 b hrest).le

/-- What is pushed for the front in the order of the nodes keeps the queue in order. -/
theorem push (h : InOrder (a :: rest)) {nodes : List α} (hnodes : nodes.Pairwise (· < ·)) :
    InOrder (rest ++ nodes.map fun v => a ++ [v]) := by
  obtain ⟨hfront, hrest⟩ := List.pairwise_cons.mp h.sorted
  constructor
  · refine List.pairwise_append.mpr ⟨hrest, ?_, ?_⟩
    · exact List.pairwise_map.mpr (hnodes.imp fun huv => place_concat_lt_concat a huv)
    · intro b hb c hc
      obtain ⟨v, -, rfl⟩ := List.mem_map.mp hc
      exact h.near b (List.mem_cons_of_mem a hb) a List.mem_cons_self v
  · intro b hb c hc v
    rcases List.mem_append.mp hb with hb | hb <;> rcases List.mem_append.mp hc with hc | hc
    · exact h.near b (List.mem_cons_of_mem a hb) c (List.mem_cons_of_mem a hc) v
    · obtain ⟨u, -, rfl⟩ := List.mem_map.mp hc
      exact (h.near b (List.mem_cons_of_mem a hb) a List.mem_cons_self u).trans
        (place_lt_concat _ v)
    · obtain ⟨u, -, rfl⟩ := List.mem_map.mp hb
      exact place_concat_lt (hfront c hc) u v
    · obtain ⟨u, -, rfl⟩ := List.mem_map.mp hb
      obtain ⟨w, -, rfl⟩ := List.mem_map.mp hc
      exact place_concat_lt (place_lt_concat a w) u v

end InOrder

/-- The trail comes before everything in the queue. -/
def Taken (queue : List (List α)) (trail : List α) : Prop :=
  ∀ a ∈ queue, place trail < place a

namespace Taken

variable {queue rest : List (List α)} {front : List α}

/-- What comes before the front has been taken. -/
theorem of_lt_front (hqueue : InOrder (front :: rest)) (h : place a < place front) :
    Taken (front :: rest) a :=
  fun _ hb => h.trans_le (hqueue.front_le hb)

theorem not_mem (h : Taken queue a) (hb : b ∈ queue) : ¬ place b ≤ place a :=
  not_le.mpr (h b hb)

theorem of_le (h : Taken queue b) (hle : place a ≤ place b) : Taken queue a :=
  fun c hc => hle.trans_lt (h c hc)

/-- What was taken before the front, and the front, are taken when it has been visited. -/
theorem push (hqueue : InOrder (front :: rest)) (h : place a ≤ place front) (nodes : List α) :
    Taken (rest ++ nodes.map fun v => front ++ [v]) a := by
  intro b hb
  refine h.trans_lt ?_
  rcases List.mem_append.mp hb with hb | hb
  · exact (List.pairwise_cons.mp hqueue.sorted).1 b hb
  · obtain ⟨v, -, rfl⟩ := List.mem_map.mp hb
    exact place_lt_concat front v

end Taken

end Cashew.Lib
