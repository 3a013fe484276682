import Mathlib

/-!
# Code that takes locks

The code of one thread over a shared state, as a monad. The locks are mutexes that are not
recursive: a thread that takes one which it holds already waits for ever (`stuck`). A guard
holds its lock to the end of its scope, however that is left, so that the locks held at a
place are those of the scopes around it. The rules say when a piece of code is stuck, from
when its parts are.

Of threads that run side by side only the sequence matters in which each takes and drops
locks. A thread that wants a lock which is held waits, for ever if the holder is itself. If
there is a rank, bounded over all locks, such that every thread takes locks of growing rank
only, no state that can be reached is stuck (`Ranked.progress`), and from every one of them
the threads, if they are finitely many, can all come to their end (`Ranked.can_finish`). Two
threads of which each holds what the other one wants stay so, and nobody gets one of their
locks again (`Crossed.still_wanted`).
-/

namespace Cashew.Lib

/-- How a piece of code ends, if it does. -/
inductive ThreadOutcome (L σ α : Type) where
  | returned (result : α) (state : σ)
  | threw (state : σ)
  | stuck (lock : L)

/-- A piece of code, given the locks held around it. -/
def Guarded (L σ α : Type) : Type := List L → σ → ThreadOutcome L σ α

namespace Guarded

variable {L σ α β : Type}

def returns (result : α) : Guarded L σ α := fun _ s => .returned result s

def andThen (first : Guarded L σ α) (next : α → Guarded L σ β) : Guarded L σ β := fun held s =>
  match first held s with
  | .returned result s' => next result held s'
  | .threw s' => .threw s'
  | .stuck lock => .stuck lock

instance : Monad (Guarded L σ) where
  pure := returns
  bind := andThen

/-- The state. -/
def get : Guarded L σ σ := fun _ s => .returned s s

/-- The state changed. -/
def modify (change : σ → σ) : Guarded L σ Unit := fun _ s => .returned () (change s)

/-- A result, or an exception where there is none. -/
def ofOption : Option α → Guarded L σ α
  | some result => returns result
  | none => fun _ s => .threw s

/-- With an exception caught. -/
def catching (body handler : Guarded L σ α) : Guarded L σ α := fun held s =>
  match body held s with
  | .threw s' => handler held s'
  | outcome => outcome

/-- `std::lock_guard` around the code. -/
def withLock [DecidableEq L] (lock : L) (body : Guarded L σ α) : Guarded L σ α := fun held s =>
  if lock ∈ held then .stuck lock else body (lock :: held) s

/-- It waits for ever for a lock. -/
def Stuck (code : Guarded L σ α) (held : List L) (s : σ) : Prop := ∃ lock, code held s = .stuck lock

/-- It returns with a result. -/
def Returns (code : Guarded L σ α) (held : List L) (s : σ) : Prop :=
  ∃ result s', code held s = .returned result s'

section Rules

variable {held : List L} {s : σ}

theorem bind_of_returned {first : Guarded L σ α} {next : α → Guarded L σ β} {result : α} {s' : σ}
    (h : first held s = .returned result s') : (first >>= next) held s = next result held s' := by
  show andThen first next held s = _
  unfold andThen
  rw [h]

theorem stuck_bind_of_stuck {first : Guarded L σ α} {next : α → Guarded L σ β}
    (h : Stuck first held s) : Stuck (first >>= next) held s := by
  obtain ⟨lock, hlock⟩ := h
  refine ⟨lock, ?_⟩
  show andThen first next held s = _
  unfold andThen
  rw [hlock]

theorem stuck_bind_of_returned {first : Guarded L σ α} {next : α → Guarded L σ β} {result : α}
    {s' : σ} (h : first held s = .returned result s') :
    Stuck (first >>= next) held s ↔ Stuck (next result) held s' := by
  unfold Stuck
  rw [bind_of_returned h]

theorem stuck_get_bind {next : σ → Guarded L σ β} :
    Stuck (get >>= next) held s ↔ Stuck (next s) held s := stuck_bind_of_returned rfl

theorem stuck_modify_bind {change : σ → σ} {next : Unit → Guarded L σ β} :
    Stuck (modify change >>= next) held s ↔ Stuck (next ()) held (change s) :=
  stuck_bind_of_returned rfl

/-- A lock is never got by who holds it. -/
theorem stuck_withLock_iff [DecidableEq L] {lock : L} {body : Guarded L σ α} :
    Stuck (withLock lock body) held s ↔ lock ∈ held ∨ Stuck body (lock :: held) s := by
  unfold Stuck withLock
  by_cases hheld : lock ∈ held
  · simp [hheld]
  · simp [hheld]

theorem returns_get_bind {next : σ → Guarded L σ β} :
    Returns (get >>= next) held s ↔ Returns (next s) held s := by
  unfold Returns
  rw [show (get >>= next) held s = next s held s from bind_of_returned rfl]

theorem returns_withLock_iff [DecidableEq L] {lock : L} {body : Guarded L σ α} :
    Returns (withLock lock body) held s ↔ lock ∉ held ∧ Returns body (lock :: held) s := by
  unfold Returns withLock
  by_cases hheld : lock ∈ held
  · simp [hheld]
  · simp [hheld]

theorem not_stuck_of_returned {code : Guarded L σ α} {result : α} {s' : σ}
    (h : code held s = .returned result s') : ¬ Stuck code held s := by
  rintro ⟨lock, hlock⟩
  rw [h] at hlock
  cases hlock

/-- Code followed by code that is never stuck is stuck where it is itself. -/
theorem stuck_bind_iff {first : Guarded L σ α} {next : α → Guarded L σ β}
    (hnext : ∀ result s', ¬ Stuck (next result) held s') :
    Stuck (first >>= next) held s ↔ Stuck first held s := by
  refine ⟨fun h => ?_, stuck_bind_of_stuck⟩
  cases hfirst : first held s with
  | returned result s' =>
    unfold Stuck at h
    rw [bind_of_returned hfirst] at h
    exact absurd h (hnext result s')
  | threw s' =>
    obtain ⟨lock, hlock⟩ := h
    change andThen first next held s = _ at hlock
    unfold andThen at hlock
    rw [hfirst] at hlock
    cases hlock
  | stuck lock => exact ⟨lock, hfirst⟩

/-- A handler that is never stuck changes nothing. -/
theorem stuck_catching_iff {body handler : Guarded L σ α}
    (hhandler : ∀ s', ¬ Stuck handler held s') :
    Stuck (catching body handler) held s ↔ Stuck body held s := by
  unfold Stuck catching
  cases hbody : body held s with
  | returned result s' => exact Iff.rfl
  | threw s' =>
    refine iff_of_false (hhandler s') ?_
    rintro ⟨lock, hlock⟩
    cases hlock
  | stuck lock => exact Iff.rfl

theorem not_stuck_returns (result : α) : ¬ Stuck (returns result) held s :=
  not_stuck_of_returned rfl

theorem not_stuck_ofOption (result : Option α) : ¬ Stuck (ofOption result) held s := by
  rintro ⟨lock, hlock⟩
  cases result with
  | none => cases hlock
  | some result => cases hlock

end Rules

end Guarded

/-! ## Threads that take locks in an order -/

namespace LockOrder

/-- Taking a lock, or dropping it. -/
inductive LockOp (L : Type) where
  | take (lock : L)
  | drop (lock : L)
  deriving DecidableEq

/-- Code under a `lock_guard`. -/
def scope {L : Type} (lock : L) (body : List (LockOp L)) : List (LockOp L) :=
  .take lock :: body ++ [.drop lock]

/-- A thread: what it has still to do, and the locks it holds. -/
structure Thread (L : Type) where
  code : List (LockOp L)
  held : List L := []

variable {τ L : Type} [DecidableEq τ] [DecidableEq L]

/-- Nobody holds the lock. -/
def Free (threads : τ → Thread L) (lock : L) : Prop := ∀ t, lock ∉ (threads t).held

/-- One thread takes a lock that is free, or drops one. -/
inductive Step : (τ → Thread L) → (τ → Thread L) → Prop
  | take {threads : τ → Thread L} {t : τ} {lock : L} {rest : List (LockOp L)} :
      (threads t).code = .take lock :: rest → Free threads lock →
      Step threads (Function.update threads t ⟨rest, lock :: (threads t).held⟩)
  | drop {threads : τ → Thread L} {t : τ} {lock : L} {rest : List (LockOp L)} :
      (threads t).code = .drop lock :: rest →
      Step threads (Function.update threads t ⟨rest, (threads t).held.erase lock⟩)

/-- Steps one after another. -/
abbrev Steps : (τ → Thread L) → (τ → Thread L) → Prop := Relation.ReflTransGen Step

/-- Every thread has come to its end. -/
def Finished (threads : τ → Thread L) : Prop := ∀ t, (threads t).code = []

/-! ## Code that keeps the order -/

section Order

variable (rank : L → Nat)

/-- The code takes locks of growing rank only, drops what it holds, and holds nothing in
the end. -/
def Ordered : List L → List (LockOp L) → Prop
  | held, [] => held = []
  | held, .take lock :: rest =>
    (∀ other ∈ held, rank other < rank lock) ∧ Ordered (lock :: held) rest
  | held, .drop lock :: rest => lock ∈ held ∧ Ordered (held.erase lock) rest

variable {rank}

/-- Code fits between locks of smaller rank: it can be run with them held, and leaves
them held. -/
def Fits (rank : L → Nat) (held : List L) (code : List (LockOp L)) : Prop :=
  ∀ rest, Ordered rank held rest → Ordered rank held (code ++ rest)

theorem Fits.nil (held : List L) : Fits rank held [] := fun _ h => h

theorem Fits.append {held : List L} {front back : List (LockOp L)} (hfront : Fits rank held front)
    (hback : Fits rank held back) : Fits rank held (front ++ back) := by
  intro rest hrest
  rw [List.append_assoc]
  exact hfront _ (hback rest hrest)

theorem Fits.flatMap {α : Type} {held : List L} {items : List α} {code : α → List (LockOp L)}
    (h : ∀ item ∈ items, Fits rank held (code item)) : Fits rank held (items.flatMap code) := by
  induction items with
  | nil => exact .nil held
  | cons item rest ih =>
    exact (h item List.mem_cons_self).append
      (ih fun other hother => h other (List.mem_cons_of_mem item hother))

/-- A guard fits where its lock ranks above those held, and what is under it fits. -/
theorem Fits.scope {held : List L} {lock : L} {body : List (LockOp L)}
    (hrank : ∀ other ∈ held, rank other < rank lock) (hbody : Fits rank (lock :: held) body) :
    Fits rank held (scope lock body) := by
  intro rest hrest
  show (∀ other ∈ held, rank other < rank lock) ∧
    Ordered rank (lock :: held) (body ++ [.drop lock] ++ rest)
  rw [List.append_assoc]
  refine ⟨hrank, hbody _ ⟨List.mem_cons_self, ?_⟩⟩
  rwa [List.erase_cons_head]

/-- Code that fits without any lock held is ordered. -/
theorem Fits.ordered {code : List (LockOp L)} (h : Fits rank [] code) : Ordered rank [] code := by
  have hcode := h [] rfl
  rwa [List.append_nil] at hcode

end Order

/-! ## Progress -/

/-- Every thread keeps the order, and no two threads hold one lock. -/
structure Ranked (rank : L → Nat) (threads : τ → Thread L) : Prop where
  ordered : ∀ t, Ordered rank (threads t).held (threads t).code
  apart : ∀ t t' lock, lock ∈ (threads t).held → lock ∈ (threads t').held → t = t'
  nodup : ∀ t, (threads t).held.Nodup

variable {rank : L → Nat}

omit [DecidableEq τ] in
/-- Threads at their start. -/
theorem Ranked.start {threads : τ → Thread L} (hheld : ∀ t, (threads t).held = [])
    (hcode : ∀ t, Ordered rank [] (threads t).code) : Ranked rank threads where
  ordered t := by
    rw [hheld]
    exact hcode t
  apart t t' lock hlock := by
    rw [hheld] at hlock
    cases hlock
  nodup t := by
    rw [hheld]
    exact List.nodup_nil

theorem Ranked.step {threads threads' : τ → Thread L} (h : Ranked rank threads)
    (hstep : Step threads threads') : Ranked rank threads' := by
  cases hstep with
  | @take t lock rest hcode hfree =>
    have hordered := h.ordered t
    rw [hcode] at hordered
    -- a lock of another thread is held there now and was held there before
    have hother : ∀ {t' other}, t' ≠ t → other ∈ (threads t').held → other ≠ lock := by
      rintro t' other _ hmem rfl
      exact hfree t' hmem
    refine ⟨?_, ?_, ?_⟩
    · intro t'
      by_cases ht : t' = t
      · subst ht
        rw [Function.update_self]
        exact hordered.2
      · rw [Function.update_of_ne ht]
        exact h.ordered t'
    · intro t₁ t₂ other h₁ h₂
      by_cases ht₁ : t₁ = t
      · by_cases ht₂ : t₂ = t
        · rw [ht₁, ht₂]
        · subst ht₁
          rw [Function.update_self] at h₁
          rw [Function.update_of_ne ht₂] at h₂
          rcases List.mem_cons.mp h₁ with hnew | hold
          · exact absurd hnew (hother ht₂ h₂)
          · exact h.apart _ _ other hold h₂
      · rw [Function.update_of_ne ht₁] at h₁
        by_cases ht₂ : t₂ = t
        · subst ht₂
          rw [Function.update_self] at h₂
          rcases List.mem_cons.mp h₂ with hnew | hold
          · exact absurd hnew (hother ht₁ h₁)
          · exact h.apart _ _ other h₁ hold
        · rw [Function.update_of_ne ht₂] at h₂
          exact h.apart _ _ other h₁ h₂
    · intro t'
      by_cases ht : t' = t
      · subst ht
        rw [Function.update_self]
        exact List.nodup_cons.mpr ⟨hfree t', h.nodup t'⟩
      · rw [Function.update_of_ne ht]
        exact h.nodup t'
  | @drop t lock rest hcode =>
    have hordered := h.ordered t
    rw [hcode] at hordered
    have hheld : ∀ t' other,
        other ∈ (Function.update threads t ⟨rest, (threads t).held.erase lock⟩ t').held →
          other ∈ (threads t').held := by
      intro t' other hmem
      by_cases ht : t' = t
      · subst ht
        rw [Function.update_self] at hmem
        exact List.mem_of_mem_erase hmem
      · rwa [Function.update_of_ne ht] at hmem
    refine ⟨?_, fun t₁ t₂ other h₁ h₂ => ?_, ?_⟩
    · intro t'
      by_cases ht : t' = t
      · subst ht
        rw [Function.update_self]
        exact hordered.2
      · rw [Function.update_of_ne ht]
        exact h.ordered t'
    · exact h.apart t₁ t₂ other (hheld t₁ other h₁) (hheld t₂ other h₂)
    · intro t'
      by_cases ht : t' = t
      · subst ht
        rw [Function.update_self]
        exact (h.nodup t').erase lock
      · rw [Function.update_of_ne ht]
        exact h.nodup t'

theorem Ranked.steps {threads threads' : τ → Thread L} (h : Ranked rank threads)
    (hsteps : Steps threads threads') : Ranked rank threads' := by
  induction hsteps with
  | refl => exact h
  | tail _ hstep ih => exact ih.step hstep

/-- A thread that holds a lock can drop one, or wants one of a greater rank. -/
theorem Ranked.holder {threads : τ → Thread L} (h : Ranked rank threads) {t : τ} {lock : L}
    (hheld : lock ∈ (threads t).held) :
    (∃ threads', Step threads threads') ∨
      ∃ other rest, (threads t).code = .take other :: rest ∧ rank lock < rank other := by
  have hordered := h.ordered t
  cases hcode : (threads t).code with
  | nil =>
    rw [hcode, Ordered] at hordered
    rw [hordered] at hheld
    cases hheld
  | cons op rest =>
    cases op with
    | drop other => exact .inl ⟨_, .drop hcode⟩
    | take other =>
      rw [hcode] at hordered
      exact .inr ⟨other, rest, rfl, hordered.1 lock hheld⟩

/-- A thread that wants a lock can take it, or another one can go on. The induction is on
how far the rank of the lock is from the bound. -/
theorem Ranked.progress_of_take {threads : τ → Thread L} (h : Ranked rank threads) {bound : Nat}
    (hbound : ∀ lock, rank lock ≤ bound) (distance : Nat) :
    ∀ {t : τ} {lock : L} {rest : List (LockOp L)}, (threads t).code = .take lock :: rest →
      bound - rank lock ≤ distance → ∃ threads', Step threads threads' := by
  induction distance with
  | zero =>
    intro t lock rest hcode hle
    by_cases hfree : Free threads lock
    · exact ⟨_, .take hcode hfree⟩
    · unfold Free at hfree
      push Not at hfree
      obtain ⟨t', hheld⟩ := hfree
      rcases h.holder hheld with hstep | ⟨other, _, _, hlt⟩
      · exact hstep
      · have hother := hbound other
        omega
  | succ distance ih =>
    intro t lock rest hcode hle
    by_cases hfree : Free threads lock
    · exact ⟨_, .take hcode hfree⟩
    · unfold Free at hfree
      push Not at hfree
      obtain ⟨t', hheld⟩ := hfree
      rcases h.holder hheld with hstep | ⟨other, _, hcode', hlt⟩
      · exact hstep
      · have hother := hbound other
        exact ih hcode' (by omega)

/-- **No deadlock.** As long as some thread has not come to its end, some thread can go
on. -/
theorem Ranked.progress {threads : τ → Thread L} (h : Ranked rank threads) {bound : Nat}
    (hbound : ∀ lock, rank lock ≤ bound) (hunfinished : ¬ Finished threads) :
    ∃ threads', Step threads threads' := by
  unfold Finished at hunfinished
  push Not at hunfinished
  obtain ⟨t, ht⟩ := hunfinished
  cases hcode : (threads t).code with
  | nil => exact absurd hcode ht
  | cons op rest =>
    cases op with
    | take lock => exact h.progress_of_take hbound bound hcode (Nat.sub_le _ _)
    | drop lock => exact ⟨_, .drop hcode⟩

/-! ## Threads that wait for each other -/

/-- Two threads, and a lock of each that the other one wants. -/
structure Crossed (threads : τ → Thread L) (t t' : τ) (lock lock' : L) : Prop where
  held : lock ∈ (threads t).held
  held' : lock' ∈ (threads t').held
  wants : ∃ rest, (threads t).code = .take lock' :: rest
  wants' : ∃ rest, (threads t').code = .take lock :: rest

section Crossed

variable {threads threads' : τ → Thread L} {t t' : τ} {lock lock' : L}

/-- What a step does: it is the first operation of one thread's code. -/
theorem Step.exists_update (h : Step threads threads') :
    ∃ t op rest held, (threads t).code = op :: rest ∧
      threads' = Function.update threads t ⟨rest, held⟩ ∧
      ∀ lock, op = .take lock → Free threads lock := by
  cases h with
  | @take t lock rest hcode hfree =>
    refine ⟨t, .take lock, rest, _, hcode, rfl, ?_⟩
    intro other hop
    cases hop
    exact hfree
  | @drop t lock rest hcode => exact ⟨t, .drop lock, rest, _, hcode, rfl, fun _ hop => nomatch hop⟩

omit [DecidableEq τ] [DecidableEq L] in
theorem Crossed.not_free (h : Crossed threads t t' lock lock') :
    ¬ Free threads lock ∧ ¬ Free threads lock' :=
  ⟨fun hfree => hfree t h.held, fun hfree => hfree t' h.held'⟩

theorem Crossed.step (h : Crossed threads t t' lock lock') (hstep : Step threads threads') :
    Crossed threads' t t' lock lock' := by
  obtain ⟨t₀, op, rest, held, hcode, rfl, hfree⟩ := hstep.exists_update
  have ht : t ≠ t₀ := by
    intro heq
    obtain ⟨_, hwants⟩ := h.wants
    rw [heq, hcode] at hwants
    exact h.not_free.2 (hfree lock' (List.cons.inj hwants).1)
  have ht' : t' ≠ t₀ := by
    intro heq
    obtain ⟨_, hwants⟩ := h.wants'
    rw [heq, hcode] at hwants
    exact h.not_free.1 (hfree lock (List.cons.inj hwants).1)
  refine ⟨?_, ?_, ?_, ?_⟩
  · rw [Function.update_of_ne ht]
    exact h.held
  · rw [Function.update_of_ne ht']
    exact h.held'
  · rw [Function.update_of_ne ht]
    exact h.wants
  · rw [Function.update_of_ne ht']
    exact h.wants'

/-- One step leaves the wish for a lock that is not free. -/
theorem Step.still_wanted (hstep : Step threads threads') {wanted : L}
    (hfree : ¬ Free threads wanted) {t : τ} (hmem : .take wanted ∈ (threads t).code) :
    .take wanted ∈ (threads' t).code := by
  obtain ⟨t₀, op, rest, held, hcode, rfl, htaken⟩ := hstep.exists_update
  by_cases ht : t = t₀
  · rw [ht, hcode] at hmem
    rw [ht, Function.update_self]
    rcases List.mem_cons.mp hmem with hop | hrest
    · exact absurd (htaken wanted hop.symm) hfree
    · exact hrest
  · rwa [Function.update_of_ne ht]

/-- **For ever**: who wants a lock of the two still wants it later. -/
theorem Crossed.still_wanted (h : Crossed threads t t' lock lock')
    (hsteps : Steps threads threads') {wanted : L} (hwanted : wanted = lock ∨ wanted = lock')
    {other : τ} (hmem : .take wanted ∈ (threads other).code) :
    .take wanted ∈ (threads' other).code := by
  have hcrossed : Crossed threads' t t' lock lock' ∧ .take wanted ∈ (threads' other).code := by
    induction hsteps with
    | refl => exact ⟨h, hmem⟩
    | tail _ hstep ih =>
      refine ⟨ih.1.step hstep, hstep.still_wanted ?_ ih.2⟩
      rcases hwanted with heq | heq
      · rw [heq]
        exact ih.1.not_free.1
      · rw [heq]
        exact ih.1.not_free.2
  exact hcrossed.2

/-- A guard around nothing, of a lock that is free, is passed. -/
theorem Steps.scope_nil {threads : τ → Thread L} {t : τ} {lock : L} {rest : List (LockOp L)}
    (hcode : (threads t).code = scope lock [] ++ rest) (hfree : Free threads lock) :
    Steps threads (Function.update threads t ⟨rest, (threads t).held⟩) := by
  let inside := Function.update threads t ⟨.drop lock :: rest, lock :: (threads t).held⟩
  have hinside : inside t = ⟨.drop lock :: rest, lock :: (threads t).held⟩ :=
    Function.update_self ..
  have htake : Step threads inside := .take hcode hfree
  have hdrop : Step inside (Function.update inside t ⟨rest, (inside t).held.erase lock⟩) :=
    .drop (by rw [hinside])
  rw [hinside, Function.update_idem, List.erase_cons_head] at hdrop
  exact .head htake (.single hdrop)

omit [DecidableEq L] in
/-- What a thread has still to do says nothing of what it holds. -/
theorem free_update_code {threads : τ → Thread L} {t : τ} {rest : List (LockOp L)} {lock : L} :
    Free (Function.update threads t ⟨rest, (threads t).held⟩) lock ↔ Free threads lock := by
  refine forall_congr' fun t' => ?_
  by_cases ht : t' = t
  · rw [ht, Function.update_self]
  · rw [Function.update_of_ne ht]

/-- Guards around nothing, one after another. -/
theorem Steps.scopes (locks : List L) :
    ∀ {threads : τ → Thread L} {t : τ} {rest : List (LockOp L)},
      (threads t).code = locks.flatMap (scope · []) ++ rest →
      (∀ lock ∈ locks, Free threads lock) →
      Steps threads (Function.update threads t ⟨rest, (threads t).held⟩) := by
  induction locks with
  | nil =>
    intro threads t rest hcode _
    have hself : (⟨rest, (threads t).held⟩ : Thread L) = threads t := by
      cases hthread : threads t
      rw [hthread] at hcode
      simp only [List.flatMap_nil, List.nil_append] at hcode
      rw [hcode]
    rw [hself, Function.update_eq_self]
  | cons lock locks ih =>
    intro threads t rest hcode hfree
    rw [List.flatMap_cons, List.append_assoc] at hcode
    have hfirst := Steps.scope_nil hcode (hfree lock List.mem_cons_self)
    refine hfirst.trans ?_
    let next := Function.update threads t ⟨locks.flatMap (scope · []) ++ rest, (threads t).held⟩
    have hnext : next t = ⟨locks.flatMap (scope · []) ++ rest, (threads t).held⟩ :=
      Function.update_self ..
    have hothers : Steps next (Function.update next t ⟨rest, (next t).held⟩) :=
      ih (by rw [hnext]) fun other hother =>
        free_update_code.mpr (hfree other (List.mem_cons_of_mem _ hother))
    rwa [hnext, Function.update_idem] at hothers

end Crossed

/-! ## The end -/

section Finite

variable [Fintype τ]

/-- What all threads have still to do. -/
def remaining (threads : τ → Thread L) : Nat := ∑ t, (threads t).code.length

omit [DecidableEq L] in
theorem remaining_update {threads : τ → Thread L} {t : τ} {op : LockOp L}
    {rest : List (LockOp L)} (hcode : (threads t).code = op :: rest) (held : List L) :
    remaining (Function.update threads t ⟨rest, held⟩) < remaining threads := by
  refine Finset.sum_lt_sum (fun t' _ => ?_) ⟨t, Finset.mem_univ t, ?_⟩
  · by_cases ht : t' = t
    · subst ht
      rw [Function.update_self, hcode]
      exact Nat.le_succ _
    · rw [Function.update_of_ne ht]
  · rw [Function.update_self, hcode]
    exact Nat.lt_succ_self _

theorem Step.remaining_lt {threads threads' : τ → Thread L} (h : Step threads threads') :
    remaining threads' < remaining threads := by
  cases h with
  | take hcode _ => exact remaining_update hcode _
  | drop hcode => exact remaining_update hcode _

/-- **All can finish**, from wherever they are. -/
theorem Ranked.can_finish {threads : τ → Thread L} (h : Ranked rank threads) {bound : Nat}
    (hbound : ∀ lock, rank lock ≤ bound) :
    ∃ threads', Steps threads threads' ∧ Finished threads' := by
  generalize hn : remaining threads = n
  induction n using Nat.strong_induction_on generalizing threads with
  | h n ih =>
    by_cases hfinished : Finished threads
    · exact ⟨threads, .refl, hfinished⟩
    · obtain ⟨next, hstep⟩ := h.progress hbound hfinished
      have hlt := hstep.remaining_lt
      obtain ⟨last, hsteps, hend⟩ := ih (remaining next) (hn ▸ hlt) (h.step hstep) rfl
      exact ⟨last, .head hstep hsteps, hend⟩

end Finite

end LockOrder

end Cashew.Lib
