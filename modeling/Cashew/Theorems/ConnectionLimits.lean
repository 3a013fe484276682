import Cashew.Lib.Machine
import Cashew.Security.AttackPrevention

/-!
# How many connections an address has

The limit is looked up when a connection is validated, the count it is compared with
is raised when the connection is established. What is validated in between is not
counted: `limit_kept_iff` says when an address stays within its limit whichever of its
validated connections come about.
-/

namespace Cashew.Theorems.ConnectionLimits

open Cashew Cashew.Lib

/-! ## The caller's side -/

/-- A coordinator and its caller, who knows for every address how many connections
have been validated and not established yet, and how many are open. -/
structure Acceptor where
  coordinator : AttackPreventionCoordinator := {}
  pending : Text → Nat := fun _ => 0
  live : Text → Nat := fun _ => 0

/-- A connection is established once validated, and closed once established. -/
def acceptorMachine : Machine Acceptor (Clock × ConnectionInput) Bool where
  step s input :=
    let (coordinator, answer) := s.coordinator.call input.1 input.2
    match input.2 with
    | .validateIncomingConnection ip _ =>
      let granted := answer.getD false
      ({ s with
          coordinator
          pending := Function.update s.pending ip (s.pending ip + granted.toNat) }, [granted])
    | .onConnectionEstablished ip _ =>
      ({ coordinator
         pending := Function.update s.pending ip (s.pending ip - 1)
         live := Function.update s.live ip (s.live ip + 1) }, [])
    | .onConnectionClosed ip _ =>
      ({ s with coordinator, live := Function.update s.live ip (s.live ip - 1) }, [])
    | .cleanup => ({ s with coordinator }, [])

/-- Only validated connections are established, only open ones closed. -/
def Proper (s : Acceptor) (input : Clock × ConnectionInput) : Prop :=
  match input.2 with
  | .onConnectionEstablished ip _ => 0 < s.pending ip
  | .onConnectionClosed ip _ => 0 < s.live ip
  | _ => True

instance (s : Acceptor) : ∀ input : Clock × ConnectionInput, Decidable (Proper s input)
  | (_, .validateIncomingConnection _ _) => inferInstanceAs (Decidable True)
  | (_, .onConnectionEstablished ip _) => inferInstanceAs (Decidable (0 < s.pending ip))
  | (_, .onConnectionClosed ip _) => inferInstanceAs (Decidable (0 < s.live ip))
  | (_, .cleanup) => inferInstanceAs (Decidable True)

/-- No address has more open connections than it may have. -/
def Within (s : Acceptor) : Prop := ∀ ip, s.live ip ≤ DDoSMitigation.maxConnectionsPerIp

/-- The connections counted for an address. -/
def active (c : AttackPreventionCoordinator) (ip : Text) : Nat :=
  (c.ddosMitigation.connectionsOf ip).activeConnections

/-- The three tests of a validation. -/
structure Admits (c : AttackPreventionCoordinator) (now : Time) (ip : Text) (nodeId : NodeID) :
    Prop where
  unblocked : c.ddosMitigation.isBlocked now ip = false
  room : active c ip < DDoSMitigation.maxConnectionsPerIp
  unforked : nodeId ∉ c.forkDetector.forkedNodes

/-- An address that passes them has room for its pending connections too. -/
def Uncommitted (s : Acceptor) (input : Clock × ConnectionInput) : Prop :=
  match input.2 with
  | .validateIncomingConnection ip nodeId =>
    Admits s.coordinator (input.1.read 0) ip nodeId →
      active s.coordinator ip + s.pending ip < DDoSMitigation.maxConnectionsPerIp
  | _ => True

/-! ## What the calls do to the counts -/

/-- Both parts of the coordinator are at work. -/
structure Enabled (c : AttackPreventionCoordinator) : Prop where
  ddosMitigation : c.ddosMitigationEnabled = true
  forkDetection : c.forkDetectionEnabled = true

section Calls

variable {c : AttackPreventionCoordinator} {clock : Clock} {ip : Text} {nodeId : NodeID}

theorem active_allowConnection (j : Text) :
    ((c.ddosMitigation.allowConnection clock ip).1.connectionsOf j).activeConnections =
      active c j := by
  have hlisted : (((c.ddosMitigation.ipConnections.insert ip
      (c.ddosMitigation.connectionsOf ip)).find? j).getD {}).activeConnections = active c j := by
    rw [OrdMap.find?_insert]
    split
    · rename_i hj
      subst hj
      rfl
    · rfl
  unfold DDoSMitigation.allowConnection
  split
  · rfl
  · dsimp only
    split
    · exact hlisted
    · exact hlisted

/-- An address is let in when it is not blocked and not full. -/
theorem allowConnection_iff :
    (c.ddosMitigation.allowConnection clock ip).2 = true ↔
      c.ddosMitigation.isBlocked (clock.read 0) ip = false ∧
        active c ip < DDoSMitigation.maxConnectionsPerIp := by
  unfold DDoSMitigation.allowConnection
  split
  · rename_i hblocked
    simp [hblocked]
  · rename_i hblocked
    dsimp only
    split
    · rename_i hfull
      have hge : DDoSMitigation.maxConnectionsPerIp ≤ active c ip := of_decide_eq_true hfull
      simp [hge]
    · rename_i hroom
      have hlt : ¬ DDoSMitigation.maxConnectionsPerIp ≤ active c ip := fun hge =>
        hroom (decide_eq_true hge)
      simpa [hblocked] using hlt

theorem active_validate (h : Enabled c) :
    active (c.validateIncomingConnection clock ip nodeId).1 = active c := by
  funext j
  unfold AttackPreventionCoordinator.validateIncomingConnection
  rw [if_pos h.ddosMitigation]
  exact active_allowConnection j

/-- A validation succeeds exactly when its tests do. -/
theorem validate_iff (h : Enabled c) :
    (c.validateIncomingConnection clock ip nodeId).2 = true ↔
      Admits c (clock.read 0) ip nodeId := by
  unfold AttackPreventionCoordinator.validateIncomingConnection
  rw [if_pos h.ddosMitigation, h.forkDetection]
  simp only [Bool.and_eq_true, allowConnection_iff, Bool.true_and, Bool.not_eq_true',
    decide_eq_false_iff_not]
  exact ⟨fun ⟨⟨h₁, h₂⟩, h₃⟩ => ⟨h₁, h₂, h₃⟩, fun ⟨h₁, h₂, h₃⟩ => ⟨⟨h₁, h₂⟩, h₃⟩⟩

theorem active_established (h : Enabled c) :
    active (c.onConnectionEstablished clock ip nodeId) =
      Function.update (active c) ip (active c ip + 1) := by
  funext j
  unfold AttackPreventionCoordinator.onConnectionEstablished
  rw [if_pos h.ddosMitigation]
  unfold active DDoSMitigation.recordConnection DDoSMitigation.connectionsOf
  dsimp only
  rw [OrdMap.find?_insert, Function.update_apply]
  by_cases hj : ip = j
  · simp [hj]
  · simp [hj, Ne.symm hj]

theorem active_closed (h : Enabled c) :
    active (c.onConnectionClosed ip nodeId) =
      Function.update (active c) ip (active c ip - 1) := by
  funext j
  unfold AttackPreventionCoordinator.onConnectionClosed
  rw [if_pos h.ddosMitigation]
  unfold active DDoSMitigation.closeConnection DDoSMitigation.connectionsOf
  dsimp only
  rw [OrdMap.find?_modify, Function.update_apply]
  by_cases hj : ip = j
  · subst hj
    cases c.ddosMitigation.ipConnections.find? ip with
    | none => simp
    | some info =>
      by_cases hpos : 0 < info.activeConnections
      · simp [hpos]
      · have hzero : info.activeConnections = 0 := Nat.eq_zero_of_not_pos hpos
        simp [hzero]
  · simp [hj, Ne.symm hj]

theorem enabled_call (h : Enabled c) (input : ConnectionInput) :
    Enabled (c.call clock input).1 := by
  cases input with
  | validateIncomingConnection ip nodeId =>
    show Enabled (c.validateIncomingConnection clock ip nodeId).1
    unfold AttackPreventionCoordinator.validateIncomingConnection
    rw [if_pos h.ddosMitigation]
    exact ⟨h.ddosMitigation, h.forkDetection⟩
  | onConnectionEstablished ip nodeId =>
    show Enabled (c.onConnectionEstablished clock ip nodeId)
    unfold AttackPreventionCoordinator.onConnectionEstablished
    rw [if_pos h.ddosMitigation]
    exact ⟨h.ddosMitigation, h.forkDetection⟩
  | onConnectionClosed ip nodeId =>
    show Enabled (c.onConnectionClosed ip nodeId)
    unfold AttackPreventionCoordinator.onConnectionClosed
    rw [if_pos h.ddosMitigation]
    exact ⟨h.ddosMitigation, h.forkDetection⟩
  | cleanup => exact ⟨h.ddosMitigation, h.forkDetection⟩

end Calls

/-! ## Invariants -/

/-- The coordinator counts the open connections. -/
structure Counted (s : Acceptor) : Prop where
  enabled : Enabled s.coordinator
  active_eq : active s.coordinator = s.live

theorem Counted.initial : Counted {} := ⟨⟨rfl, rfl⟩, rfl⟩

theorem Counted.step (s : Acceptor) (input : Clock × ConnectionInput) (h : Counted s) :
    Counted (acceptorMachine.step s input).1 := by
  obtain ⟨clock, call⟩ := input
  have henabled : Enabled (s.coordinator.call clock call).1 := enabled_call h.enabled call
  cases call with
  | validateIncomingConnection ip nodeId =>
    exact ⟨henabled, (active_validate h.enabled).trans h.active_eq⟩
  | onConnectionEstablished ip nodeId =>
    have hactive : active (s.coordinator.onConnectionEstablished clock ip nodeId) = _ :=
      active_established h.enabled
    rw [h.active_eq] at hactive
    exact ⟨henabled, hactive⟩
  | onConnectionClosed ip nodeId =>
    have hactive : active (s.coordinator.onConnectionClosed ip nodeId) = _ :=
      active_closed h.enabled
    rw [h.active_eq] at hactive
    exact ⟨henabled, hactive⟩
  | cleanup => exact ⟨henabled, h.active_eq⟩

/-- Every address has room for its pending connections. -/
structure Covered (s : Acceptor) : Prop where
  counted : Counted s
  room : ∀ ip, s.live ip + s.pending ip ≤ DDoSMitigation.maxConnectionsPerIp

theorem Covered.initial : Covered {} := ⟨Counted.initial, fun _ => Nat.zero_le _⟩

/-- A call the condition is met for keeps the room. -/
theorem Covered.step (s : Acceptor) (input : Clock × ConnectionInput) (h : Covered s)
    (hinput : Proper s input ∧ Uncommitted s input) :
    Covered (acceptorMachine.step s input).1 := by
  refine ⟨h.counted.step s input, fun j => ?_⟩
  have hj := h.room j
  obtain ⟨clock, call⟩ := input
  cases call with
  -- a grant uses a place that the condition says is free
  | validateIncomingConnection ip nodeId =>
    show s.live j + Function.update s.pending ip
      (s.pending ip + (s.coordinator.validateIncomingConnection clock ip nodeId).2.toNat) j ≤ _
    rw [Function.update_apply]
    split
    · rename_i hip
      subst hip
      cases hgranted : (s.coordinator.validateIncomingConnection clock j nodeId).2 with
      | false => simpa using hj
      | true =>
        have hroom := hinput.2 ((validate_iff h.counted.enabled).mp hgranted)
        rw [h.counted.active_eq] at hroom
        simp only [Bool.toNat_true]
        omega
    · exact hj
  -- a place held by a grant becomes a connection
  | onConnectionEstablished ip nodeId =>
    have hpending : 0 < s.pending ip := hinput.1
    show Function.update s.live ip (s.live ip + 1) j +
      Function.update s.pending ip (s.pending ip - 1) j ≤ _
    rw [Function.update_apply, Function.update_apply]
    split
    · rename_i hip
      subst hip
      omega
    · exact hj
  | onConnectionClosed ip nodeId =>
    show Function.update s.live ip (s.live ip - 1) j + s.pending j ≤ _
    rw [Function.update_apply]
    split
    · rename_i hip
      subst hip
      omega
    · exact hj
  | cleanup => exact hj

/-! ## The main result -/

/-- A call that establishes a connection. -/
def isEstablished : ConnectionInput → Bool
  | .onConnectionEstablished _ _ => true
  | _ => false

/-- The pending connections of an address come about one after the other. -/
def allEstablished (ip : Text) (nodeId : NodeID) (clock : Clock) (n : Nat) :
    List (Clock × ConnectionInput) :=
  List.replicate n (clock, .onConnectionEstablished ip nodeId)

theorem live_allEstablished (ip : Text) (nodeId : NodeID) (clock : Clock) (n : Nat)
    {s : Acceptor} (h : n ≤ s.pending ip) :
    acceptorMachine.StepsMeet Proper s (allEstablished ip nodeId clock n) ∧
      (acceptorMachine.run s (allEstablished ip nodeId clock n)).1.live ip = s.live ip + n := by
  induction n generalizing s with
  | zero => exact ⟨trivial, rfl⟩
  | succ n ih =>
    have hpending : (acceptorMachine.step s
        (clock, .onConnectionEstablished ip nodeId)).1.pending ip = s.pending ip - 1 :=
      Function.update_self _ _ _
    have hlive : (acceptorMachine.step s
        (clock, .onConnectionEstablished ip nodeId)).1.live ip = s.live ip + 1 :=
      Function.update_self _ _ _
    obtain ⟨hproper, hrun⟩ := ih (s := (acceptorMachine.step s
      (clock, .onConnectionEstablished ip nodeId)).1) (by omega)
    exact ⟨⟨(by omega : 0 < s.pending ip), hproper⟩, hrun.trans (by omega)⟩

/-- An address that passes the tests without room for what is pending gets too many
connections if all of them come about. -/
theorem exceeds_of_committed {s : Acceptor} {clock : Clock} {ip : Text} {nodeId : NodeID}
    (h : Counted s) (hadmits : Admits s.coordinator (clock.read 0) ip nodeId)
    (hfull : DDoSMitigation.maxConnectionsPerIp ≤ active s.coordinator ip + s.pending ip) :
    let next := (acceptorMachine.step s (clock, .validateIncomingConnection ip nodeId)).1
    let later := allEstablished ip nodeId clock (s.pending ip + 1)
    acceptorMachine.StepsMeet Proper next later ∧ ¬ Within (acceptorMachine.run next later).1 := by
  intro next later
  have hpending : next.pending ip = s.pending ip + 1 := by
    show Function.update s.pending ip
      (s.pending ip + (s.coordinator.validateIncomingConnection clock ip nodeId).2.toNat) ip = _
    rw [Function.update_self, (validate_iff h.enabled).mpr hadmits, Bool.toNat_true]
  obtain ⟨hproper, hlive⟩ := live_allEstablished ip nodeId clock (s.pending ip + 1)
    (le_of_eq hpending.symm)
  refine ⟨hproper, fun hwithin => ?_⟩
  have hle := hwithin ip
  rw [hlive] at hle
  have hnext : next.live ip = active s.coordinator ip := (congrFun h.active_eq ip).symm
  omega

/-- Establishing what is pending needs no further condition. -/
theorem Covered.established {s : Acceptor} (h : Covered s)
    {later : List (Clock × ConnectionInput)}
    (hlater : ∀ input ∈ later, isEstablished input.2 = true)
    (hproper : acceptorMachine.StepsMeet Proper s later) :
    Covered (acceptorMachine.run s later).1 := by
  induction later generalizing s with
  | nil => exact h
  | cons input rest ih =>
    have huncommitted : Uncommitted s input := by
      have hinput := hlater input List.mem_cons_self
      obtain ⟨clock, call⟩ := input
      cases call with
      | validateIncomingConnection ip nodeId => cases hinput
      | onConnectionEstablished ip nodeId => trivial
      | onConnectionClosed ip nodeId => trivial
      | cleanup => trivial
    exact ih (h.step s input ⟨hproper.1, huncommitted⟩)
      (fun j hj => hlater j (List.mem_cons_of_mem input hj)) hproper.2

/-- **Connection limits.** In a run of proper calls, at every moment and whichever of
the pending connections are established then, no address has more open connections
than it may have, exactly when every validation that passes the three tests finds room
for the pending connections of its address too. -/
theorem limit_kept_iff (inputs : List (Clock × ConnectionInput))
    (hproper : acceptorMachine.StepsMeet Proper {} inputs) :
    (∀ done later, done <+: inputs → (∀ input ∈ later, isEstablished input.2 = true) →
        acceptorMachine.StepsMeet Proper {} (done ++ later) →
        Within (acceptorMachine.run {} (done ++ later)).1) ↔
      acceptorMachine.StepsMeet Uncommitted {} inputs := by
  constructor
  · intro h
    refine acceptorMachine.stepsMeet_iff_forall.mpr ?_
    rintro front ⟨clock, call⟩ back rfl
    cases call with
    | validateIncomingConnection ip nodeId =>
      intro hadmits
      -- establish everything that is pending now: then the address has too many
      by_contra hfull
      have hcounted := acceptorMachine.run_invariant Counted.step Counted.initial front
      obtain ⟨hlater, hexceeds⟩ := exceeds_of_committed hcounted hadmits (Nat.le_of_not_lt hfull)
      rw [← List.singleton_append, ← List.append_assoc] at hproper
      have hdone := (acceptorMachine.stepsMeet_append.mp hproper).1
      have hrun : (acceptorMachine.run {}
          (front ++ [(clock, .validateIncomingConnection ip nodeId)])).1 =
            (acceptorMachine.step (acceptorMachine.run {} front).1
              (clock, .validateIncomingConnection ip nodeId)).1 := acceptorMachine.run_append _ _ _
      rw [← hrun] at hlater hexceeds
      refine hexceeds ?_
      rw [← acceptorMachine.run_append]
      refine h _ _ ⟨back, by simp⟩ ?_ (acceptorMachine.stepsMeet_append.mpr ⟨hdone, hlater⟩)
      intro input hinput
      rw [List.eq_of_mem_replicate hinput]
      rfl
    | onConnectionEstablished ip nodeId => trivial
    | onConnectionClosed ip nodeId => trivial
    | cleanup => trivial
  · rintro hmeet done later ⟨rest, rfl⟩ hlater hall ip
    obtain ⟨hdone, hrest⟩ := acceptorMachine.stepsMeet_append.mp hall
    -- connections and what is pending fit together, so what is established later fits
    have hcovered : Covered (acceptorMachine.run {} done).1 :=
      (hdone.and (acceptorMachine.stepsMeet_append.mp hmeet).1).invariant Covered.step
        Covered.initial
    rw [acceptorMachine.run_append]
    exact (Nat.le_add_right _ _).trans ((hcovered.established hlater hrest).room ip)

/-- Two connections, each established right after its validation. -/
def oneByOne : List (Clock × ConnectionInput) :=
  let ip := Text.ofString "10.0.0.1"
  [(Clock.still sampleTime, .validateIncomingConnection ip (sampleNode 1)),
    (Clock.still sampleTime, .onConnectionEstablished ip (sampleNode 1)),
    (Clock.still sampleTime, .validateIncomingConnection ip (sampleNode 2)),
    (Clock.still sampleTime, .onConnectionEstablished ip (sampleNode 2)),
    (Clock.still sampleTime, .onConnectionClosed ip (sampleNode 1))]

theorem oneByOne_kept :
    acceptorMachine.StepsMeet Proper {} oneByOne ∧
      ∀ done later, done <+: oneByOne → (∀ input ∈ later, isEstablished input.2 = true) →
        acceptorMachine.StepsMeet Proper {} (done ++ later) →
        Within (acceptorMachine.run {} (done ++ later)).1 := by
  have hproper : acceptorMachine.StepsMeet Proper {} oneByOne := by decide
  refine ⟨hproper, (limit_kept_iff oneByOne hproper).mpr ?_⟩
  exact ⟨fun _ => by decide, trivial, fun _ => by decide, trivial, trivial, trivial⟩

/-- Eleven connections of one address, all validated before the first is established. -/
def allAtOnce : List (Clock × ConnectionInput) :=
  List.replicate 11 (Clock.still sampleTime,
      .validateIncomingConnection (Text.ofString "10.0.0.1") (sampleNode 1)) ++
    List.replicate 11 (Clock.still sampleTime,
      .onConnectionEstablished (Text.ofString "10.0.0.1") (sampleNode 1))

/-- They are all let in. -/
theorem eleven_connections :
    acceptorMachine.StepsMeet Proper {} allAtOnce ∧
      ¬ Within (acceptorMachine.run {} allAtOnce).1 := by
  refine ⟨by decide, fun h => ?_⟩
  exact absurd (h (Text.ofString "10.0.0.1")) (by decide)

end Cashew.Theorems.ConnectionLimits
