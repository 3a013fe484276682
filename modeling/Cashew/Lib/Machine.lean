import Mathlib

/-!
# Machines driven by inputs

A component of a program as a state machine: every call is an input, a step
yields the next state and what the environment observes of the call. `run`
drives a machine through a list of inputs, and the rules below carry a step
lemma to a whole run:

* `run_append`, `run_append_outputs` — a run in two parts, and `exists_entry`, which
  finds the step since when a property has held;
* `run_invariant` — what every step preserves holds at the end of every run,
  and `run_invariant_on` the same for runs on a restricted set of inputs;
* `run_outputs` — what holds of every step's outputs under an invariant holds of
  the outputs of every run;
* `run_shown` — what only a step that shows it brings about has been shown, and
  `exists_step_of_mem_run`, which finds the step that shows an output;
* `StepsMeet` — a condition on each step's input in the state it meets, and
  `run_outputs_iff`, which lifts "this step's outputs are good exactly when the
  condition holds" to runs;
* `Always` — a property of every state on the way, and `always_iff`, which lifts
  "this step keeps the property exactly when the condition holds" to runs;
* `run_flag_iff` — a flag that a step raises exactly when it breaks the
  condition is up at the end exactly when some step did;
* `logged` — the machine that keeps what it has shown, and `run_log_iff`, which
  lifts "this step extends a good log to a good one exactly when the condition
  holds" to runs;
* `EachStep` — a relation between the inputs so far, the state and the next input at
  every step, and `eachStep_congr`, which lifts an equivalence of two of them to runs;
* `countSteps` — how many steps pass a test, and `exists_pair_of_countSteps`,
  which finds two of them in order;
* `run_potential` — outputs that are paid for out of a potential;
* `Settles` — a step that closes only live keys, and each of them for good, and
  `run_closes_nodup`: along a run no key is closed twice.
-/

namespace Cashew.Lib

/-- A deterministic machine with states `σ`, inputs `ι` and outputs `ω`. -/
structure Machine (σ ι ω : Type) where
  step : σ → ι → σ × List ω

namespace Machine

variable {σ ι ω : Type} (m : Machine σ ι ω)

/-- The state reached and the outputs seen along a list of inputs. -/
def run : σ → List ι → σ × List ω
  | s, [] => (s, [])
  | s, i :: rest =>
    ((run (m.step s i).1 rest).1, (m.step s i).2 ++ (run (m.step s i).1 rest).2)

/-- Some run leads from `s` to `t`. -/
def Reaches (s t : σ) : Prop := ∃ inputs, (m.run s inputs).1 = t

theorem run_append (s : σ) (front back : List ι) :
    (m.run s (front ++ back)).1 = (m.run (m.run s front).1 back).1 := by
  induction front generalizing s with
  | nil => rfl
  | cons i rest ih => exact ih (m.step s i).1

/-- The outputs of a run in two parts. -/
theorem run_append_outputs (s : σ) (front back : List ι) :
    (m.run s (front ++ back)).2 = (m.run s front).2 ++ (m.run (m.run s front).1 back).2 := by
  induction front generalizing s with
  | nil => rfl
  | cons i rest ih =>
    show (m.step s i).2 ++ (m.run (m.step s i).1 (rest ++ back)).2 = _
    rw [ih, ← List.append_assoc]
    rfl

/-- A property that holds at the end and not at the start was entered at some
step and has held ever since. -/
theorem exists_entry {A : σ → Prop} {s : σ} {inputs : List ι} (hstart : ¬ A s)
    (hend : A (m.run s inputs).1) :
    ∃ front i back, inputs = front ++ i :: back ∧ ¬ A (m.run s front).1 ∧
      ∀ done, done <+: back → A (m.run s (front ++ i :: done)).1 := by
  induction inputs using List.reverseRecOn with
  | nil => exact absurd hend hstart
  | append_singleton rest i ih =>
    by_cases hrest : A (m.run s rest).1
    · -- the property held before the last step already
      obtain ⟨front, j, back, rfl, hnot, hsince⟩ := ih hrest
      refine ⟨front, j, back ++ [i], by simp, hnot, ?_⟩
      intro done hdone
      rcases List.prefix_concat_iff.mp hdone with heq | hpre
      · simpa [heq] using hend
      · exact hsince done hpre
    · refine ⟨rest, i, [], rfl, hrest, ?_⟩
      intro done hdone
      rw [List.prefix_nil.mp hdone]
      exact hend

/-- What every step on an allowed input preserves, every run on allowed inputs
preserves. -/
theorem run_invariant_on {P : σ → Prop} {Q : ι → Prop}
    (hstep : ∀ s i, Q i → P s → P (m.step s i).1) {s : σ} (h : P s) (inputs : List ι)
    (hinputs : ∀ i ∈ inputs, Q i) : P (m.run s inputs).1 := by
  induction inputs generalizing s with
  | nil => exact h
  | cons i rest ih =>
    have hnext : P (m.step s i).1 := hstep s i (hinputs i List.mem_cons_self) h
    exact ih hnext fun j hj => hinputs j (List.mem_cons_of_mem i hj)

/-- What every step preserves, every run preserves. -/
theorem run_invariant {P : σ → Prop} (hstep : ∀ s i, P s → P (m.step s i).1)
    {s : σ} (h : P s) (inputs : List ι) : P (m.run s inputs).1 :=
  m.run_invariant_on (Q := fun _ => True) (fun s i _ => hstep s i) h inputs fun _ _ => trivial

/-- What an invariant gives for the outputs of a step holds for the outputs of
every run. -/
theorem run_outputs {P : σ → Prop} {Q : ω → Prop} (hstep : ∀ s i, P s → P (m.step s i).1)
    (hout : ∀ s i, P s → ∀ o ∈ (m.step s i).2, Q o) {s : σ} (h : P s) (inputs : List ι) :
    ∀ o ∈ (m.run s inputs).2, Q o := by
  induction inputs generalizing s with
  | nil =>
    intro o ho
    cases ho
  | cons i rest ih =>
    intro o ho
    rcases List.mem_append.mp ho with hnow | hlater
    · exact hout s i h o hnow
    · exact ih (hstep s i h) o hlater

/-- What only a step that shows it brings about is there at the end only if it was
there before or has been shown. -/
theorem run_shown {α : Type} {L : σ → α → Prop} {S : α → ω → Prop}
    (hstep : ∀ s i a, L (m.step s i).1 a → L s a ∨ ∃ o ∈ (m.step s i).2, S a o) {s : σ}
    {inputs : List ι} {a : α} (h : L (m.run s inputs).1 a) :
    L s a ∨ ∃ o ∈ (m.run s inputs).2, S a o := by
  induction inputs generalizing s with
  | nil => exact .inl h
  | cons i rest ih =>
    rcases ih h with hnext | ⟨o, ho, hshows⟩
    · rcases hstep s i a hnext with hnow | ⟨o, ho, hshows⟩
      · exact .inl hnow
      · exact .inr ⟨o, List.mem_append_left _ ho, hshows⟩
    · exact .inr ⟨o, List.mem_append_right _ ho, hshows⟩

/-- What a run shows is shown at some step of it. -/
theorem exists_step_of_mem_run {s : σ} {inputs : List ι} {o : ω} (h : o ∈ (m.run s inputs).2) :
    ∃ front i back, inputs = front ++ i :: back ∧ o ∈ (m.step (m.run s front).1 i).2 := by
  induction inputs generalizing s with
  | nil => cases h
  | cons i rest ih =>
    rcases List.mem_append.mp h with hnow | hlater
    · exact ⟨[], i, rest, rfl, hnow⟩
    · obtain ⟨front, j, back, rfl, hj⟩ := ih hlater
      exact ⟨i :: front, j, back, rfl, hj⟩

/-- Every input of the run meets the condition in the state it is given to. -/
def StepsMeet (C : σ → ι → Prop) : σ → List ι → Prop
  | _, [] => True
  | s, i :: rest => C s i ∧ StepsMeet C (m.step s i).1 rest

instance StepsMeet.decidable {C : σ → ι → Prop} [∀ s i, Decidable (C s i)] :
    ∀ s inputs, Decidable (m.StepsMeet C s inputs)
  | _, [] => instDecidableTrue
  | s, i :: rest =>
    haveI : Decidable (m.StepsMeet C (m.step s i).1 rest) := StepsMeet.decidable _ rest
    inferInstanceAs (Decidable (C s i ∧ m.StepsMeet C (m.step s i).1 rest))

/-- A condition on inputs alone is a condition on the list of inputs. -/
theorem stepsMeet_inputs (Q : ι → Prop) (s : σ) (inputs : List ι) :
    m.StepsMeet (fun _ i => Q i) s inputs ↔ ∀ i ∈ inputs, Q i := by
  induction inputs generalizing s with
  | nil => simp [StepsMeet]
  | cons i rest ih => simp [StepsMeet, ih]

/-- Two conditions on every step are one. -/
theorem StepsMeet.and {m : Machine σ ι ω} {C D : σ → ι → Prop} {s : σ} {inputs : List ι}
    (hC : m.StepsMeet C s inputs) (hD : m.StepsMeet D s inputs) :
    m.StepsMeet (fun s i => C s i ∧ D s i) s inputs := by
  induction inputs generalizing s with
  | nil => trivial
  | cons i rest ih => exact ⟨⟨hC.1, hD.1⟩, ih hC.2 hD.2⟩

/-- Conditions that agree on every step agree on runs. -/
theorem stepsMeet_congr {C D : σ → ι → Prop} (h : ∀ s i, C s i ↔ D s i) (s : σ)
    (inputs : List ι) : m.StepsMeet C s inputs ↔ m.StepsMeet D s inputs := by
  induction inputs generalizing s with
  | nil => exact Iff.rfl
  | cons i rest ih => exact and_congr (h s i) (ih _)

/-- The steps of a run in two parts. -/
theorem stepsMeet_append {C : σ → ι → Prop} {s : σ} {front back : List ι} :
    m.StepsMeet C s (front ++ back) ↔
      m.StepsMeet C s front ∧ m.StepsMeet C (m.run s front).1 back := by
  induction front generalizing s with
  | nil => exact (iff_of_eq (true_and _)).symm
  | cons i rest ih => exact (and_congr_right fun _ => ih).trans and_assoc.symm

/-- The second part of a run whose steps all meet the condition. -/
theorem StepsMeet.of_append {m : Machine σ ι ω} {C : σ → ι → Prop} {s : σ} {front back : List ι}
    (h : m.StepsMeet C s (front ++ back)) : m.StepsMeet C (m.run s front).1 back :=
  (m.stepsMeet_append.mp h).2

/-- Every step meets the condition: each after the inputs before it. -/
theorem stepsMeet_iff_forall {C : σ → ι → Prop} {s : σ} {inputs : List ι} :
    m.StepsMeet C s inputs ↔
      ∀ front i back, inputs = front ++ i :: back → C (m.run s front).1 i := by
  constructor
  · rintro h front i back rfl
    exact h.of_append.1
  · intro h
    induction inputs generalizing s with
    | nil => trivial
    | cons i rest ih =>
      refine ⟨h [] i rest rfl, ih fun front j back hsplit => ?_⟩
      exact h (i :: front) j back (by rw [hsplit, List.cons_append])

/-- What every step that meets the condition preserves, every run whose steps all
meet it preserves. -/
theorem StepsMeet.invariant {m : Machine σ ι ω} {P : σ → Prop} {C : σ → ι → Prop}
    (hstep : ∀ s i, P s → C s i → P (m.step s i).1) {s : σ} {inputs : List ι}
    (hmeet : m.StepsMeet C s inputs) (h : P s) : P (m.run s inputs).1 := by
  induction inputs generalizing s with
  | nil => exact h
  | cons i rest ih => exact ih hmeet.2 (hstep s i h hmeet.1)

/-- A condition that decides, step by step and under an invariant, whether the
outputs are good decides it for whole runs. -/
theorem run_outputs_iff {P : σ → Prop} {C : σ → ι → Prop} {Q : ω → Prop}
    (hstep : ∀ s i, P s → P (m.step s i).1)
    (hout : ∀ s i, P s → ((∀ o ∈ (m.step s i).2, Q o) ↔ C s i))
    {s : σ} (h : P s) (inputs : List ι) :
    (∀ o ∈ (m.run s inputs).2, Q o) ↔ m.StepsMeet C s inputs := by
  induction inputs generalizing s with
  | nil => simp [run, StepsMeet]
  | cons i rest ih =>
    simp only [run, StepsMeet, List.mem_append]
    rw [← hout s i h, ← ih (hstep s i h)]
    constructor
    · intro hall
      exact ⟨fun o ho => hall o (.inl ho), fun o ho => hall o (.inr ho)⟩
    · rintro ⟨hnow, hlater⟩ o (ho | ho)
      · exact hnow o ho
      · exact hlater o ho

/-- The property holds in every state of the run, the first one included. -/
def Always (Q : σ → Prop) : σ → List ι → Prop
  | s, [] => Q s
  | s, i :: rest => Q s ∧ Always Q (m.step s i).1 rest

instance Always.decidable {Q : σ → Prop} [DecidablePred Q] :
    ∀ s inputs, Decidable (m.Always Q s inputs)
  | s, [] => inferInstanceAs (Decidable (Q s))
  | s, i :: rest =>
    haveI : Decidable (m.Always Q (m.step s i).1 rest) := Always.decidable _ rest
    inferInstanceAs (Decidable (Q s ∧ m.Always Q (m.step s i).1 rest))

theorem Always.head {m : Machine σ ι ω} {Q : σ → Prop} {s : σ} {inputs : List ι}
    (h : m.Always Q s inputs) : Q s := by
  cases inputs with
  | nil => exact h
  | cons i rest => exact h.1

/-- What every step that meets the condition preserves holds all along a run whose
steps all meet it. -/
theorem StepsMeet.always {m : Machine σ ι ω} {P : σ → Prop} {C : σ → ι → Prop}
    (hstep : ∀ s i, P s → C s i → P (m.step s i).1) {s : σ} {inputs : List ι}
    (hmeet : m.StepsMeet C s inputs) (h : P s) : m.Always P s inputs := by
  induction inputs generalizing s with
  | nil => exact h
  | cons i rest ih => exact ⟨h, ih hmeet.2 (hstep s i h hmeet.1)⟩

theorem Always.imp {m : Machine σ ι ω} {P Q : σ → Prop} (himp : ∀ s, P s → Q s) {s : σ}
    {inputs : List ι} (h : m.Always P s inputs) : m.Always Q s inputs := by
  induction inputs generalizing s with
  | nil => exact himp s h
  | cons i rest ih => exact ⟨himp s h.1, ih h.2⟩

/-- What every step into a state with `Q` preserves holds all along a run whose
states all have `Q`. -/
theorem Always.invariant {m : Machine σ ι ω} {P Q : σ → Prop}
    (hstep : ∀ s i, P s → Q (m.step s i).1 → P (m.step s i).1) {s : σ} {inputs : List ι}
    (hall : m.Always Q s inputs) (h : P s) : m.Always P s inputs := by
  induction inputs generalizing s with
  | nil => exact h
  | cons i rest ih => exact ⟨h, ih hall.2 (hstep s i h hall.2.head)⟩

/-- A condition that decides, step by step and under an invariant, whether a
property is kept decides whether it holds all along. -/
theorem always_iff {P Q : σ → Prop} {C : σ → ι → Prop} (hstep : ∀ s i, P s → P (m.step s i).1)
    (hkeep : ∀ s i, P s → Q s → (Q (m.step s i).1 ↔ C s i)) {s : σ} (hP : P s) (hQ : Q s)
    (inputs : List ι) : m.Always Q s inputs ↔ m.StepsMeet C s inputs := by
  induction inputs generalizing s with
  | nil => exact iff_of_true hQ trivial
  | cons i rest ih =>
    show Q s ∧ m.Always Q (m.step s i).1 rest ↔ C s i ∧ m.StepsMeet C (m.step s i).1 rest
    constructor
    · rintro ⟨_, hrest⟩
      exact ⟨(hkeep s i hP hQ).mp hrest.head, (ih (hstep s i hP) hrest.head).mp hrest⟩
    · rintro ⟨hnow, hlater⟩
      have hnext : Q (m.step s i).1 := (hkeep s i hP hQ).mpr hnow
      exact ⟨hQ, (ih (hstep s i hP) hnext).mpr hlater⟩

/-- A flag that a step raises exactly when it breaks the condition, and that no
step lowers, is up at the end exactly when it was up before or some step broke
the condition. -/
theorem run_flag_iff {P F : σ → Prop} {T C : σ → ι → Prop}
    (hstep : ∀ s i, P s → T s i → P (m.step s i).1)
    (hflag : ∀ s i, P s → T s i → (F (m.step s i).1 ↔ F s ∨ ¬ C s i)) {s : σ} (hP : P s)
    {inputs : List ι} (hmeet : m.StepsMeet T s inputs) :
    F (m.run s inputs).1 ↔ F s ∨ ¬ m.StepsMeet C s inputs := by
  induction inputs generalizing s with
  | nil => simp [run, StepsMeet]
  | cons i rest ih =>
    have hrest := ih (hstep s i hP hmeet.1) hmeet.2
    rw [hflag s i hP hmeet.1] at hrest
    show F (m.run (m.step s i).1 rest).1 ↔ F s ∨ ¬ (C s i ∧ m.StepsMeet C (m.step s i).1 rest)
    rw [hrest, not_and_or, or_assoc]

/-- The machine with the outputs seen so far beside its state. -/
def logged : Machine (σ × List ω) ι ω where
  step s i := (((m.step s.1 i).1, s.2 ++ (m.step s.1 i).2), (m.step s.1 i).2)

/-- A condition that decides, step by step, whether a good log stays good decides
it for the log of a whole run. -/
theorem run_log_iff {Good : List ω → Prop} {C : σ × List ω → ι → Prop}
    (hpart : ∀ log more, Good (log ++ more) → Good log)
    (hstep : ∀ s log i, Good log → (Good (log ++ (m.step s i).2) ↔ C (s, log) i))
    {s : σ} {log : List ω} (hlog : Good log) (inputs : List ι) :
    Good (log ++ (m.run s inputs).2) ↔ m.logged.StepsMeet C (s, log) inputs := by
  induction inputs generalizing s log with
  | nil => exact iff_of_true (by simpa [run] using hlog) trivial
  | cons i rest ih =>
    rw [run, ← List.append_assoc]
    show _ ↔ C (s, log) i ∧ m.logged.StepsMeet C ((m.step s i).1, log ++ (m.step s i).2) rest
    constructor
    · intro hall
      have hnow := hpart _ _ hall
      exact ⟨(hstep s log i hlog).mp hnow, (ih hnow).mp hall⟩
    · rintro ⟨hnow, hlater⟩
      exact (ih ((hstep s log i hlog).mpr hnow)).mpr hlater

/-- Every step of the run is as the relation says of the inputs before it, the state
it meets and its input. -/
def EachStep (R : List ι → σ → ι → Prop) (s : σ) (inputs : List ι) : Prop :=
  ∀ front i back, inputs = front ++ i :: back → R front (m.run s front).1 i

/-- What ties the state to the inputs so far, every step extending both, holds at the
end of every run. -/
theorem run_past_invariant {J : List ι → σ → Prop} {s : σ} (hstart : J [] s)
    (hstep : ∀ past s i, J past s → J (past ++ [i]) (m.step s i).1) (inputs : List ι) :
    J inputs (m.run s inputs).1 := by
  induction inputs using List.reverseRecOn with
  | nil => exact hstart
  | append_singleton past i ih =>
    rw [run_append]
    exact hstep past _ i ih

/-- Relations that agree where the tie holds agree on whole runs. -/
theorem eachStep_congr {J : List ι → σ → Prop} {R T : List ι → σ → ι → Prop} {s : σ}
    (hstart : J [] s) (hstep : ∀ past s i, J past s → J (past ++ [i]) (m.step s i).1)
    (hagree : ∀ past s i, J past s → (R past s i ↔ T past s i)) (inputs : List ι) :
    m.EachStep R s inputs ↔ m.EachStep T s inputs := by
  have htie := m.run_past_invariant hstart hstep
  constructor
  · intro h front i back hsplit
    exact (hagree front _ i (htie front)).mp (h front i back hsplit)
  · intro h front i back hsplit
    exact (hagree front _ i (htie front)).mpr (h front i back hsplit)

/-- The number of steps of a run at which a test holds. -/
def countSteps (T : σ → ι → Bool) : σ → List ι → Nat
  | _, [] => 0
  | s, i :: rest => (T s i).toNat + countSteps T (m.step s i).1 rest

theorem countSteps_le_length (T : σ → ι → Bool) (s : σ) (inputs : List ι) :
    m.countSteps T s inputs ≤ inputs.length := by
  induction inputs generalizing s with
  | nil => exact le_refl 0
  | cons i rest ih =>
    have hrest := ih (m.step s i).1
    have hnow := (T s i).toNat_le
    simp only [countSteps, List.length_cons]
    omega

/-- A test that holds at some step holds at a place in the run. -/
theorem exists_of_countSteps_pos {T : σ → ι → Bool} {s : σ} {inputs : List ι}
    (h : 0 < m.countSteps T s inputs) :
    ∃ front i back, inputs = front ++ i :: back ∧ T (m.run s front).1 i = true := by
  induction inputs generalizing s with
  | nil => cases h
  | cons i rest ih =>
    by_cases hnow : T s i = true
    · exact ⟨[], i, rest, rfl, hnow⟩
    · have hlater : 0 < m.countSteps T (m.step s i).1 rest := by
        simpa [countSteps, hnow] using h
      obtain ⟨front, j, back, rfl, hj⟩ := ih hlater
      exact ⟨i :: front, j, back, rfl, hj⟩

/-- A test that holds at two steps holds at an earlier and a later one. -/
theorem exists_pair_of_countSteps {T : σ → ι → Bool} {s : σ} {inputs : List ι}
    (h : 1 < m.countSteps T s inputs) :
    ∃ front i mid j back, inputs = front ++ i :: (mid ++ j :: back) ∧
      T (m.run s front).1 i = true ∧ T (m.run s (front ++ i :: mid)).1 j = true := by
  induction inputs generalizing s with
  | nil => cases h
  | cons i rest ih =>
    by_cases hnow : T s i = true
    · have hlater : 0 < m.countSteps T (m.step s i).1 rest := by
        simpa [countSteps, hnow] using h
      obtain ⟨mid, j, back, rfl, hj⟩ := m.exists_of_countSteps_pos hlater
      exact ⟨[], i, mid, j, back, rfl, hnow, hj⟩
    · have hlater : 1 < m.countSteps T (m.step s i).1 rest := by
        simpa [countSteps, hnow] using h
      obtain ⟨front, a, mid, b, back, rfl, ha, hb⟩ := ih hlater
      exact ⟨i :: front, a, mid, b, back, rfl, ha, hb⟩

/-- If every step pays for its outputs out of a potential, the potential at the
start bounds the outputs of the whole run. -/
theorem run_potential {P : σ → Prop} (cost : σ → Nat) (hstep : ∀ s i, P s → P (m.step s i).1)
    (hcost : ∀ s i, P s → (m.step s i).2.length + cost (m.step s i).1 ≤ cost s) {s : σ} (h : P s)
    (inputs : List ι) : (m.run s inputs).2.length + cost (m.run s inputs).1 ≤ cost s := by
  induction inputs generalizing s with
  | nil => exact Nat.le_of_eq (Nat.zero_add _)
  | cons i rest ih =>
    have hnow := hcost s i h
    have hlater := ih (hstep s i h)
    rw [run, List.length_append]
    dsimp only
    omega

/-! ## Keys that are opened and closed -/

/-- A step with these outputs closes keys that are live before it and not after
it, each once, and what is live after it was live before or is opened by it. -/
structure Settles {κ : Type} (opens closes : ω → Option κ) (live live' : κ → Prop)
    (outputs : List ω) : Prop where
  nodup : (outputs.filterMap closes).Nodup
  closed : ∀ k ∈ outputs.filterMap closes, live k ∧ ¬ live' k
  opened : ∀ k, live' k → live k ∨ k ∈ outputs.filterMap opens

/-- If every step settles and no key is opened twice, no key is closed twice, and
only keys are closed that were live or opened. -/
theorem run_closes_nodup {κ : Type} {opens closes : ω → Option κ} (live : σ → κ → Prop)
    (hstep : ∀ s i, Settles opens closes (live s) (live (m.step s i).1) (m.step s i).2)
    {s : σ} {inputs : List ι} (hopens : ((m.run s inputs).2.filterMap opens).Nodup)
    (hfresh : ∀ k ∈ (m.run s inputs).2.filterMap opens, ¬ live s k) :
    ((m.run s inputs).2.filterMap closes).Nodup ∧
      ∀ k ∈ (m.run s inputs).2.filterMap closes,
        live s k ∨ k ∈ (m.run s inputs).2.filterMap opens := by
  induction inputs generalizing s with
  | nil => exact ⟨List.nodup_nil, fun k hk => nomatch hk⟩
  | cons i rest ih =>
    have hnow := hstep s i
    rw [run, List.filterMap_append] at hopens hfresh ⊢
    rw [List.filterMap_append]
    obtain ⟨_, hlater, hapart⟩ := List.nodup_append.mp hopens
    -- a key opened later is not live now, or it would have been opened twice
    have hfresh' : ∀ k ∈ (m.run (m.step s i).1 rest).2.filterMap opens,
        ¬ live (m.step s i).1 k := by
      intro k hk hlive
      rcases hnow.opened k hlive with hbefore | hopened
      · exact hfresh k (List.mem_append_right _ hk) hbefore
      · exact hapart k hopened k hk rfl
    obtain ⟨hnodup, hfrom⟩ := ih hlater hfresh'
    refine ⟨List.nodup_append.mpr ⟨hnow.nodup, hnodup, ?_⟩, ?_⟩
    · -- a key closed now is not live any more and cannot be opened again
      rintro k hk _ hk' rfl
      rcases hfrom k hk' with hlive | hopened
      · exact (hnow.closed k hk).2 hlive
      · exact hfresh k (List.mem_append_right _ hopened) (hnow.closed k hk).1
    · intro k hk
      rcases List.mem_append.mp hk with hk | hk
      · exact .inl (hnow.closed k hk).1
      · rcases hfrom k hk with hlive | hopened
        · exact (hnow.opened k hlive).imp_right (List.mem_append_left _)
        · exact .inr (List.mem_append_right _ hopened)

end Machine

end Cashew.Lib
