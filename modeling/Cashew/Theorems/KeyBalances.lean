import Cashew.Ledger.State

/-!
# Key balances and the events they come from

A node's balance of a key type is to be what its own `KEY_ISSUED` and `KEY_REVOKED`
events add up to. `apply_node_joined` stores a fresh record over the one that is there,
balances included, and `apply_key_issued` adds in 32 bits: `balances_exact_iff` says that
nothing else makes the two differ.
-/

namespace Cashew.Theorems.KeyBalances

open Cashew Cashew.Lib

variable {s : StateManager} {n : NodeID} {T : Wire KeyType} {e : LedgerEvent}

/-! ## The property -/

/-- What an event says about a node's keys of one type. -/
inductive KeyChange where
  | issued (count : UInt32)
  | revoked (count : UInt32)
  | unrelated
  deriving DecidableEq

/-- Only a node's own events about keys of the type count. -/
def keyChange (n : NodeID) (T : Wire KeyType) (e : LedgerEvent) : KeyChange :=
  match (KeyIssuanceData.fromBytes e.data).toOption with
  | none => .unrelated
  | some d =>
    if e.sourceNode = n ∧ d.keyType = T then
      if e.eventType = .listed .keyIssued then .issued d.count
      else if e.eventType = .listed .keyRevoked then .revoked d.count
      else .unrelated
    else .unrelated

/-- The balance after a change, between zero and the largest that 32 bits can hold. -/
def KeyChange.apply (balance : Nat) : KeyChange → Nat
  | issued count => min (balance + count.toNat) (2 ^ 32 - 1)
  | revoked count => balance - count.toNat
  | unrelated => balance

/-- What the events add up to. -/
def expectedBalance (n : NodeID) (T : Wire KeyType) (events : List LedgerEvent) : Nat :=
  events.foldl (fun balance e => (keyChange n T e).apply balance) 0

/-- The state holds what the events add up to. -/
def Exact (n : NodeID) (T : Wire KeyType) (events : List LedgerEvent) : Prop :=
  ((StateManager.rebuildState events).getNodeKeyBalance n T).toNat = expectedBalance n T events

/-- The node joins only while it has no keys of the type, and is issued none that it
has no room for. -/
structure Undisturbed (n : NodeID) (T : Wire KeyType) (before : List LedgerEvent)
    (e : LedgerEvent) : Prop where
  joins : e.eventType = .listed .nodeJoined → e.sourceNode = n → expectedBalance n T before = 0
  fits : ∀ count, keyChange n T e = .issued count →
    expectedBalance n T before + count.toNat < 2 ^ 32

/-! ## What an event does to a balance -/

/-- The balances of every node that has a record. -/
def balances (s : StateManager) : NodeID → Option (OrdMap (Wire KeyType) UInt32) :=
  s.nodes.view (·.keyBalances)

theorem getNodeKeyBalance_eq :
    s.getNodeKeyBalance n T = (((balances s n).getD .empty).find? T).getD 0 := by
  unfold StateManager.getNodeKeyBalance balances OrdMap.view
  cases s.nodes.find? n with
  | none => rfl
  | some node => rfl

/-- A record that is made, or changed elsewhere, has the balances it had. -/
theorem balance_of_touched {s' : StateManager} {id : NodeID}
    (h : balances s' = Function.update (balances s) id (some ((balances s id).getD .empty))) :
    s'.getNodeKeyBalance n T = s.getNodeKeyBalance n T := by
  rw [getNodeKeyBalance_eq, getNodeKeyBalance_eq, h, Function.update_apply]
  split
  · rename_i hid
    rw [hid]
    rfl
  · rfl

theorem balance_of_same {s' : StateManager} (h : balances s' = balances s) :
    s'.getNodeKeyBalance n T = s.getNodeKeyBalance n T := by
  rw [getNodeKeyBalance_eq, getNodeKeyBalance_eq, h]

theorem balance_updateNode {id : NodeID} {f : NodeState → NodeState}
    (hf : ∀ node, (f node).keyBalances = node.keyBalances) :
    (s.updateNode id f).getNodeKeyBalance n T = s.getNodeKeyBalance n T :=
  balance_of_touched (OrdMap.view_upsert (h := fun keys => keys) s.nodes id hf {})

/-- A handler that changes one balance of one node. -/
theorem balance_updateKeys {id : NodeID} {type : Wire KeyType} {g : UInt32 → UInt32} :
    (s.updateNode id fun node =>
        { node with keyBalances := node.keyBalances.upsert type 0 g }).getNodeKeyBalance n T =
      if id = n ∧ type = T then g (s.getNodeKeyBalance n T) else s.getNodeKeyBalance n T := by
  have hview : balances (s.updateNode id fun node =>
      { node with keyBalances := node.keyBalances.upsert type 0 g }) =
        Function.update (balances s) id
          (some (((balances s id).getD .empty).upsert type 0 g)) :=
    OrdMap.view_upsert (g := NodeState.keyBalances) (h := (OrdMap.upsert · type 0 g)) s.nodes id
      (fun _ => rfl) {}
  rw [getNodeKeyBalance_eq, getNodeKeyBalance_eq, hview, Function.update_apply]
  by_cases hid : n = id
  · subst hid
    rw [if_pos rfl, Option.getD_some, OrdMap.find?_upsert]
    by_cases htype : type = T
    · simp [htype]
    · simp [htype]
  · rw [if_neg hid, if_neg fun h => hid h.1.symm]

/-- Events of other kinds leave all balances alone. -/
theorem balance_applyEvent_other (hjoined : e.eventType ≠ .listed .nodeJoined)
    (hissued : e.eventType ≠ .listed .keyIssued) (hrevoked : e.eventType ≠ .listed .keyRevoked) :
    (s.applyEvent e).getNodeKeyBalance n T = s.getNodeKeyBalance n T := by
  unfold StateManager.applyEvent
  cases htype : e.eventType with
  | unlisted code hcode => rfl
  | listed type =>
    cases type with
    | nodeJoined => exact absurd htype hjoined
    | keyIssued => exact absurd htype hissued
    | keyRevoked => exact absurd htype hrevoked
    | nodeLeft =>
      exact balance_of_same (OrdMap.view_modify_of_same s.nodes e.sourceNode fun _ => rfl)
    | networkCreated =>
      dsimp only
      unfold StateManager.applyNetworkCreated
      split <;> rfl
    -- membership, hosting and reputation change other fields of a node's state
    | networkMemberAdded =>
      dsimp only
      unfold StateManager.applyNetworkMemberAdded
      split
      · rfl
      · exact balance_updateNode fun _ => rfl
    | networkMemberRemoved =>
      dsimp only
      unfold StateManager.applyNetworkMemberRemoved
      split
      · rfl
      · exact balance_of_same (OrdMap.view_modify_of_same s.nodes _ fun _ => rfl)
    | thingReplicated =>
      dsimp only
      unfold StateManager.applyThingReplicated
      split
      · rfl
      · exact balance_updateNode fun _ => rfl
    | thingRemoved =>
      dsimp only
      unfold StateManager.applyThingRemoved
      split
      · rfl
      · split
        · rfl
        · exact balance_of_same (OrdMap.view_modify_of_same s.nodes _ fun _ => rfl)
    | reputationUpdated =>
      dsimp only
      unfold StateManager.applyReputationUpdated
      split
      · rfl
      · exact balance_updateNode fun _ => rfl
    | powSolutionSubmitted => exact balance_updateNode fun _ => rfl
    | postakeContribution => exact balance_updateNode fun _ => rfl
    | _ => rfl

/-- The three kinds of events that do not. -/
theorem balance_applyNodeJoined :
    (s.applyNodeJoined e).getNodeKeyBalance n T =
      if e.sourceNode = n then 0 else s.getNodeKeyBalance n T := by
  have hview : balances (s.applyNodeJoined e) =
      Function.update (balances s) e.sourceNode (some .empty) := OrdMap.view_insert ..
  rw [getNodeKeyBalance_eq, getNodeKeyBalance_eq, hview, Function.update_apply]
  by_cases hnode : n = e.sourceNode
  · simp [hnode]
  · simp [hnode, Ne.symm hnode]

theorem balance_applyKeyIssued (htype : e.eventType = .listed .keyIssued) :
    (s.applyKeyIssued e).getNodeKeyBalance n T =
      match keyChange n T e with
      | .issued count => s.getNodeKeyBalance n T + count
      | _ => s.getNodeKeyBalance n T := by
  unfold StateManager.applyKeyIssued keyChange
  cases (KeyIssuanceData.fromBytes e.data).toOption with
  | none => rfl
  | some d =>
    dsimp only
    rw [balance_updateKeys]
    by_cases hown : e.sourceNode = n ∧ d.keyType = T
    · simp [hown, htype]
    · simp [hown]

theorem balance_applyKeyRevoked (htype : e.eventType = .listed .keyRevoked) :
    (s.applyKeyRevoked e).getNodeKeyBalance n T =
      match keyChange n T e with
      | .revoked count =>
        if count < s.getNodeKeyBalance n T then s.getNodeKeyBalance n T - count else 0
      | _ => s.getNodeKeyBalance n T := by
  unfold StateManager.applyKeyRevoked keyChange
  cases (KeyIssuanceData.fromBytes e.data).toOption with
  | none => rfl
  | some d =>
    dsimp only
    rw [balance_updateKeys]
    by_cases hown : e.sourceNode = n ∧ d.keyType = T
    · simp [hown, htype]
    · simp [hown]

/-! ## Runs -/

theorem expectedBalance_concat (before : List LedgerEvent) :
    expectedBalance n T (before ++ [e]) = (keyChange n T e).apply (expectedBalance n T before) := by
  unfold expectedBalance
  rw [List.foldl_append]
  rfl

theorem keyChange_ne_issued (h : e.eventType ≠ .listed .keyIssued) (count : UInt32) :
    keyChange n T e ≠ .issued count := by
  unfold keyChange
  split
  · simp
  · split_ifs <;> simp

theorem keyChange_ne_revoked (h : e.eventType ≠ .listed .keyRevoked) (count : UInt32) :
    keyChange n T e ≠ .revoked count := by
  unfold keyChange
  split
  · simp
  · split_ifs <;> simp

theorem keyChange_of_other (hissued : e.eventType ≠ .listed .keyIssued)
    (hrevoked : e.eventType ≠ .listed .keyRevoked) : keyChange n T e = .unrelated := by
  cases hchange : keyChange n T e with
  | issued count => exact absurd hchange (keyChange_ne_issued hissued count)
  | revoked count => exact absurd hchange (keyChange_ne_revoked hrevoked count)
  | unrelated => rfl

/-- What the code makes of a change. -/
def KeyChange.apply32 (balance : UInt32) : KeyChange → UInt32
  | issued count => balance + count
  | revoked count => if count < balance then balance - count else 0
  | unrelated => balance

theorem balance_applyEvent (hjoined : e.eventType ≠ .listed .nodeJoined) :
    (s.applyEvent e).getNodeKeyBalance n T =
      (keyChange n T e).apply32 (s.getNodeKeyBalance n T) := by
  by_cases hissued : e.eventType = .listed .keyIssued
  · have hnot : ∀ count, keyChange n T e ≠ .revoked count :=
      keyChange_ne_revoked (by simp [hissued])
    have happly : s.applyEvent e = s.applyKeyIssued e := by rw [StateManager.applyEvent, hissued]
    rw [happly, balance_applyKeyIssued hissued]
    cases hchange : keyChange n T e with
    | issued count => rfl
    | revoked count => exact absurd hchange (hnot count)
    | unrelated => rfl
  · have hnot : ∀ count, keyChange n T e ≠ .issued count := keyChange_ne_issued hissued
    by_cases hrevoked : e.eventType = .listed .keyRevoked
    · have happly : s.applyEvent e = s.applyKeyRevoked e := by
        rw [StateManager.applyEvent, hrevoked]
      rw [happly, balance_applyKeyRevoked hrevoked]
      cases hchange : keyChange n T e with
      | issued count => exact absurd hchange (hnot count)
      | revoked count => rfl
      | unrelated => rfl
    · rw [balance_applyEvent_other hjoined hissued hrevoked, keyChange_of_other hissued hrevoked]
      rfl

/-- In 32 bits a change comes to what is specified unless it is issued and has no room. -/
theorem toNat_apply32_iff {balance : UInt32} {change : KeyChange} :
    (change.apply32 balance).toNat = change.apply balance.toNat ↔
      ∀ count, change = .issued count → balance.toNat + count.toNat < 2 ^ 32 := by
  cases change with
  | issued count =>
    have hbalance : balance.toNat < 2 ^ 32 := balance.toNat_lt
    have hcount : count.toNat < 2 ^ 32 := count.toNat_lt
    show (balance + count).toNat = min (balance.toNat + count.toNat) (2 ^ 32 - 1) ↔ _
    rw [UInt32.toNat_add]
    constructor
    · rintro hexact _ ⟨⟩
      omega
    · intro hfits
      have hroom := hfits count rfl
      omega
  | revoked count =>
    refine ⟨fun _ _ hissued => KeyChange.noConfusion hissued, fun _ => ?_⟩
    show (if count < balance then balance - count else 0).toNat = balance.toNat - count.toNat
    split
    · rename_i hlt
      exact UInt32.toNat_sub_of_le _ _ (UInt32.le_of_lt hlt)
    · rename_i hge
      have hle : balance.toNat ≤ count.toNat := UInt32.le_iff_toNat_le.mp (UInt32.not_lt.mp hge)
      rw [Nat.sub_eq_zero_of_le hle]
      rfl
  | unrelated => exact ⟨fun _ _ hissued => KeyChange.noConfusion hissued, fun _ => rfl⟩

/-- An exact balance stays exact over an event exactly when the event leaves it
undisturbed. -/
theorem exact_concat_iff {before : List LedgerEvent} (h : Exact n T before) :
    Exact n T (before ++ [e]) ↔ Undisturbed n T before e := by
  unfold Exact at h ⊢
  rw [StateManager.rebuildState_snoc, expectedBalance_concat]
  by_cases hjoined : e.eventType = .listed .nodeJoined
  · have hchange : keyChange n T e = .unrelated :=
      keyChange_of_other (by simp [hjoined]) (by simp [hjoined])
    have hafter : (StateManager.applyEvent (StateManager.rebuildState before) e).getNodeKeyBalance
        n T = if e.sourceNode = n then 0
          else (StateManager.rebuildState before).getNodeKeyBalance n T := by
      rw [StateManager.applyEvent, hjoined]
      exact balance_applyNodeJoined
    rw [hafter, hchange]
    constructor
    · intro hexact
      refine ⟨fun _ hnode => ?_, fun count hissued => ?_⟩
      · rw [if_pos hnode] at hexact
        exact hexact.symm
      · rw [hchange] at hissued
        cases hissued
    · intro hquiet
      by_cases hnode : e.sourceNode = n
      · rw [if_pos hnode]
        exact (hquiet.joins hjoined hnode).symm
      · rw [if_neg hnode]
        exact h
  · rw [balance_applyEvent hjoined, ← h, toNat_apply32_iff, h]
    exact ⟨fun hfits => ⟨fun h => absurd h hjoined, hfits⟩, fun hquiet => hquiet.fits⟩

/-- **Key balances.** All along a sequence of events a node's balance is what the events
about its keys add up to, exactly when the node never joins while it has keys of the type
and is never issued more than 32 bits can count. -/
theorem balances_exact_iff (n : NodeID) (T : Wire KeyType) (events : List LedgerEvent) :
    (∀ before, before <+: events → Exact n T before) ↔
      ∀ before e after, events = before ++ e :: after → Undisturbed n T before e := by
  constructor
  · rintro h before e after rfl
    refine (exact_concat_iff (h before ⟨e :: after, rfl⟩)).mp (h (before ++ [e]) ⟨after, ?_⟩)
    rw [List.append_assoc, List.singleton_append]
  · intro h before
    induction before using List.reverseRecOn with
    | nil => exact fun _ => rfl
    | append_singleton before e ih =>
      rintro ⟨after, hafter⟩
      rw [List.append_assoc, List.singleton_append] at hafter
      exact (exact_concat_iff (ih ⟨e :: after, hafter⟩)).mpr (h before e after hafter.symm)

/-! ## A node that joins again -/

/-- Node 1 is issued five service keys and joins once more. -/
def joinedAgain : Ledger :=
  ((ledgerMachine sampleHash).run (Ledger.fresh (sampleNode 1))
    [(.still sampleTime, .recordNodeJoined (sampleNode 1)),
     (.still sampleTime, .recordKeyIssued (.listed .service) 5 (.listed .pow) FixedBytes.zero),
     (.still sampleTime, .recordNodeJoined (sampleNode 1))]).1

/-- The same, with a second issue that 32 bits have no room for. -/
def issuedTooMuch : Ledger :=
  ((ledgerMachine sampleHash).run (Ledger.fresh (sampleNode 1))
    [(.still sampleTime, .recordKeyIssued (.listed .service) 5 (.listed .pow) FixedBytes.zero),
     (.still sampleTime,
      .recordKeyIssued (.listed .service) 0xffffffff (.listed .pow) FixedBytes.zero)]).1

/-- The five keys are gone, and a balance of four is left of nearly all the keys there can be. -/
theorem joinedAgain_not_exact :
    (Ledger.Reachable sampleHash joinedAgain ∧
      ¬ Exact (sampleNode 1) (.listed .service) joinedAgain.events) ∧
    (Ledger.Reachable sampleHash issuedTooMuch ∧
      ¬ Exact (sampleNode 1) (.listed .service) issuedTooMuch.events) := by
  refine ⟨⟨⟨sampleNode 1, _, rfl⟩, ?_⟩, ⟨⟨sampleNode 1, _, rfl⟩, ?_⟩⟩
  · unfold Exact
    decide +kernel
  · unfold Exact
    decide +kernel

end Cashew.Theorems.KeyBalances
