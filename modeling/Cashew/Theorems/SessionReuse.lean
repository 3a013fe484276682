import Cashew.Logic.SessionManager

/-!
# Sessions that are handed out again

A session manager holds at most one session for a node, whatever its callers do with the
sessions they have. `handle_inbound_handshake` gives up one that is closed or has timed
out; `create_outbound_session` hands it out as it is, and nothing can be done with it.
`reuse_sound_iff` says that this is all that can go wrong.
-/

namespace Cashew.Theorems.SessionReuse

open Cashew Cashew.Lib SessionManager

variable {c : SessionCrypto} {m m' : SessionManager} {n : NodeID}

/-! ## One session for a node -/

/-- The nodes of the sessions held, one entry for each session. -/
def nodes (m : SessionManager) : List NodeID :=
  m.sessions.filterMap fun ref => m.objects[ref]?.map (·.remoteNodeId)

/-- No node has two, and no pointer leads nowhere. -/
structure OnePerNode (m : SessionManager) : Prop where
  nodup : (nodes m).Nodup
  valid : ∀ ref ∈ m.sessions, ref < m.objects.length

theorem mem_nodes : n ∈ nodes m ↔ ∃ ref, m.Holds ref n := by
  simp only [nodes, List.mem_filterMap, Option.map_eq_some_iff, Holds]

theorem not_mem_nodes_of_getSession (h : m.getSession n = none) : n ∉ nodes m := by
  intro hmem
  obtain ⟨ref, hholds⟩ := mem_nodes.mp hmem
  have hsome := getSession_of_holds hholds
  rw [h] at hsome
  cases hsome

/-- Giving up sessions and changing them in place keeps one for each node. -/
theorem OnePerNode.of_sublist (h : OnePerNode m) (hsessions : m'.sessions.Sublist m.sessions)
    (hlength : m'.objects.length = m.objects.length)
    (hobjects : ∀ ref : SessionRef,
      m'.objects[ref]?.map (·.remoteNodeId) = m.objects[ref]?.map (·.remoteNodeId)) :
    OnePerNode m' := by
  refine ⟨?_, fun ref hmem => ?_⟩
  · have hnodes : (nodes m').Sublist (nodes m) := by
      unfold nodes
      simp only [hobjects]
      exact hsessions.filterMap _
    exact hnodes.nodup h.nodup
  · rw [hlength]
    exact h.valid ref (hsessions.subset hmem)

theorem OnePerNode.add (h : OnePerNode m) {s : Session} (hnew : s.remoteNodeId ∉ nodes m) :
    OnePerNode (m.add s).1 := by
  have hnodes : nodes (m.add s).1 = nodes m ++ [s.remoteNodeId] := by
    have hold : m.sessions.filterMap (fun ref => (m.objects ++ [s])[ref]?.map (·.remoteNodeId)) =
        nodes m := by
      refine List.filterMap_congr fun ref hmem => ?_
      rw [List.getElem?_append_left (h.valid ref hmem)]
    simp only [nodes, SessionManager.add, List.filterMap_append, hold]
    simp
  refine ⟨?_, fun ref hmem => ?_⟩
  · rw [hnodes, List.nodup_append]
    refine ⟨h.nodup, List.nodup_singleton _, ?_⟩
    rintro node hnode _ hsingle rfl
    rw [List.mem_singleton] at hsingle
    exact hnew (hsingle ▸ hnode)
  · simp only [SessionManager.add, List.mem_append, List.mem_singleton, List.length_append,
      List.length_singleton] at hmem ⊢
    obtain hmem | rfl := hmem
    · exact Nat.lt_succ_of_lt (h.valid ref hmem)
    · exact Nat.lt_succ_self _

/-! ## The calls -/

theorem OnePerNode.withSession (h : OnePerNode m) {ref : SessionRef}
    {call : Session → Session × Bool} (hkeep : ∀ s, (call s).1.remoteNodeId = s.remoteNodeId) :
    OnePerNode (m.withSession ref call).1 := by
  unfold SessionManager.withSession
  cases hs : m.objects[ref]? with
  | none => exact h
  | some s =>
    refine h.of_sublist (List.Sublist.refl _) List.length_set fun ref' => ?_
    dsimp only
    by_cases href : ref = ref'
    · subst href
      rw [List.getElem?_set_self (List.getElem?_eq_some_iff.mp hs).1, hs]
      exact congrArg some (hkeep s)
    · rw [List.getElem?_set_ne href]

/-- Going through the sessions held keeps their order and adds none. -/
theorem held_sublist : (m.held.map (·.1)).Sublist m.sessions := by
  unfold held
  induction m.sessions with
  | nil => exact List.Sublist.refl _
  | cons ref rest ih =>
    cases hs : m.objects[ref]? with
    | none => simpa [hs] using ih.cons ref
    | some s => simpa [hs] using ih.cons_cons ref

theorem OnePerNode.removeSession (h : OnePerNode m) : OnePerNode (m.removeSession n) := by
  refine h.of_sublist ?_ rfl fun _ => rfl
  exact (List.filter_sublist.map _).trans held_sublist

/-- A session that is closed stays one with its node. -/
theorem OnePerNode.closing (h : OnePerNode m) {sessions : List SessionRef}
    (hsessions : sessions.Sublist m.sessions) (closes : SessionRef → Prop)
    [DecidablePred closes] :
    OnePerNode { m with
      objects := m.objects.mapIdx fun ref s => if closes ref then s.close else s
      sessions := sessions } := by
  refine h.of_sublist hsessions List.length_mapIdx fun ref => ?_
  dsimp only
  rw [List.getElem?_mapIdx]
  cases m.objects[ref]? with
  | none => rfl
  | some s =>
    simp only [Option.map_some]
    split
    · rw [Session.close_remoteNodeId]
    · rfl

theorem OnePerNode.closeSession (h : OnePerNode m) : OnePerNode (m.closeSession n) := by
  unfold SessionManager.closeSession
  cases hsession : m.getSession n with
  | none => exact h
  | some entry =>
    obtain ⟨ref, s⟩ := entry
    have hs := (mem_held.mp (List.mem_of_find?_eq_some hsession)).2
    have hclosed : OnePerNode (m.withSession ref fun s => (s.close, true)).1 :=
      h.withSession Session.close_remoteNodeId
    unfold SessionManager.withSession at hclosed
    rw [hs] at hclosed
    exact hclosed.removeSession

theorem OnePerNode.createOutboundSession (h : OnePerNode m) (now : Time) :
    OnePerNode (m.createOutboundSession now n).1 := by
  unfold SessionManager.createOutboundSession
  cases hsession : m.getSession n with
  | none => exact h.add (not_mem_nodes_of_getSession hsession)
  | some entry => exact h

theorem OnePerNode.acceptInbound (h : OnePerNode m) {clock : Clock} {secret : SecretKey}
    {handshake : HandshakeMessage} (hnew : handshake.nodeId ∉ nodes m) :
    OnePerNode (m.acceptInbound c clock secret handshake).1 := by
  unfold SessionManager.acceptInbound
  dsimp only
  split
  · refine h.add ?_
    rw [Session.handleHandshakeInit_remoteNodeId]
    exact hnew
  · exact h

theorem OnePerNode.handleInboundHandshake (h : OnePerNode m) {clock : Clock}
    {secret : SecretKey} {handshake : HandshakeMessage} :
    OnePerNode (m.handleInboundHandshake c clock secret handshake).1 := by
  unfold SessionManager.handleInboundHandshake
  cases hsession : m.getSession handshake.nodeId with
  | none => exact h.acceptInbound (not_mem_nodes_of_getSession hsession)
  | some entry =>
    dsimp only
    split
    · refine h.closeSession.acceptInbound fun hmem => ?_
      obtain ⟨ref, hholds⟩ := mem_nodes.mp hmem
      exact (holds_closeSession.mp hholds).2 rfl
    · exact h

theorem call_onePerNode (m : SessionManager) (input : Clock × SessionManagerInput)
    (h : OnePerNode m) : OnePerNode ((sessionManagerMachine c).step m input).1 := by
  obtain ⟨clock, input⟩ := input
  cases input with
  | createOutboundSession remoteNodeId => exact h.createOutboundSession _
  | handleInboundHandshake secret handshake => exact h.handleInboundHandshake
  | callSession ref input => exact h.withSession fun s => Session.call_remoteNodeId s clock input
  | closeSession remoteNodeId => exact h.closeSession
  | closeAllSessions => exact h.closing (List.nil_sublist _) (· ∈ m.sessions)
  | cleanupStaleSessions =>
    refine h.closing ?_ _
    have hzip : m.sessions.zipIdx.map (·.1) = m.sessions := List.zipIdx_map_fst 0 m.sessions
    refine List.Sublist.trans (List.filter_sublist.map _) ?_
    rw [hzip]

/-! ## What is handed out -/

/-- A handshake can be started on it, or it is in use. -/
def Usable (out : HandedOut) : Prop :=
  out.session.state = .disconnected ∨
    out.session.state ≠ .closed ∧ out.session.hasTimedOut out.now = false

/-- Before an outbound session is asked for, the one that is there has been given up if it
is closed, or has timed out behind a handshake. -/
def NoneLeftBehind (m : SessionManager) : Clock × SessionManagerInput → Prop
  | (clock, .createOutboundSession remoteNodeId) =>
    ∀ ref s, (ref, s) ∈ m.held → s.remoteNodeId = remoteNodeId →
      s.state ≠ .closed ∧ (s.state ≠ .disconnected → s.hasTimedOut (clock.read 0) = false)
  | _ => True

theorem OnePerNode.eq_of_held (h : OnePerNode m) {entry entry' : SessionRef × Session}
    (hentry : entry ∈ m.held) (hentry' : entry' ∈ m.held)
    (hnode : entry.2.remoteNodeId = entry'.2.remoteNodeId) : entry = entry' := by
  have hnodes : nodes m = m.held.map (·.2.remoteNodeId) := by
    unfold nodes held
    rw [List.map_filterMap]
    simp only [Option.map_map, Function.comp_def]
  have hnodup := h.nodup
  rw [hnodes] at hnodup
  exact List.inj_on_of_nodup_map hnodup hentry hentry' hnode

/-- The session handed out is the one found, or a new one. -/
theorem handedOut_of_found {clock : Clock} {ref : SessionRef} {s : Session}
    (h : m.getSession n = some (ref, s)) :
    (m.call c clock (.createOutboundSession n)).2 = [{ session := s, now := clock.read 0 }] := by
  have hs : m.objects[ref]? = some s := (mem_held.mp (List.mem_of_find?_eq_some h)).2
  have hcreate : m.createOutboundSession (clock.read 0) n = (m, ref) := by
    rw [SessionManager.createOutboundSession, h]
  rw [SessionManager.call, hcreate]
  dsimp only
  rw [hs]
  rfl

theorem handedOut_of_none {clock : Clock} (h : m.getSession n = none) :
    (m.call c clock (.createOutboundSession n)).2 =
      [{ session := Session.create m.localNodeId n (clock.read 0), now := clock.read 0 }] := by
  have hcreate : m.createOutboundSession (clock.read 0) n =
      m.add (Session.create m.localNodeId n (clock.read 0)) := by
    rw [SessionManager.createOutboundSession, h]
  rw [SessionManager.call, hcreate]
  simp [SessionManager.add]

theorem createOutboundSession_usable_iff (c : SessionCrypto) (h : OnePerNode m) (clock : Clock) :
    (∀ out ∈ (m.call c clock (.createOutboundSession n)).2, Usable out) ↔
      NoneLeftBehind m (clock, .createOutboundSession n) := by
  cases hsession : m.getSession n with
  | none =>
    -- a new session can always be used
    rw [handedOut_of_none hsession, List.forall_mem_singleton]
    refine iff_of_true (.inl rfl) fun ref s hheld hnode => ?_
    have hnot := List.find?_eq_none.mp hsession (ref, s) hheld
    exact absurd (beq_iff_eq.mpr hnode) hnot
  | some entry =>
    obtain ⟨ref, s⟩ := entry
    rw [handedOut_of_found hsession, List.forall_mem_singleton]
    have hfound : (ref, s) ∈ m.held := List.mem_of_find?_eq_some hsession
    have hnode : s.remoteNodeId = n := by
      obtain ⟨-, s', hs', hnode⟩ := holds_of_getSession hsession
      rw [(mem_held.mp hfound).2] at hs'
      rw [Option.some.inj hs']
      exact hnode
    have honly : NoneLeftBehind m (clock, .createOutboundSession n) ↔
        s.state ≠ .closed ∧ (s.state ≠ .disconnected → s.hasTimedOut (clock.read 0) = false) := by
      refine ⟨fun hall => hall ref s hfound hnode, fun hthis ref' s' hheld hnode' => ?_⟩
      cases h.eq_of_held hheld hfound (hnode'.trans hnode.symm)
      exact hthis
    rw [honly]
    by_cases hstate : s.state = .disconnected
    · simp [Usable, hstate]
    · simp [Usable, hstate]

/-- **Sessions that are handed out.** There is one session for a node all along a run; and
every session that is handed out can be used exactly when none that is closed or has timed
out is left behind where one is asked for. -/
theorem reuse_sound_iff (c : SessionCrypto) (localNodeId : NodeID)
    (inputs : List (Clock × SessionManagerInput)) :
    ((sessionManagerMachine c).Always (fun m => (nodes m).Nodup) { localNodeId } inputs ∧
      ∀ out ∈ ((sessionManagerMachine c).run { localNodeId } inputs).2, Usable out) ↔
      (sessionManagerMachine c).StepsMeet NoneLeftBehind { localNodeId } inputs := by
  have hstart : OnePerNode { localNodeId } :=
    ⟨List.nodup_nil, fun _ hmem => absurd hmem List.not_mem_nil⟩
  have hnodup : (sessionManagerMachine c).Always (fun m => (nodes m).Nodup) { localNodeId }
      inputs := by
    refine ((sessionManagerMachine c).always_iff (P := fun _ => True) (Q := OnePerNode)
      (C := fun _ _ => True) (fun _ _ _ => trivial) ?_ trivial hstart inputs).mpr ?_
      |>.imp fun m h => h.nodup
    · exact fun m input _ h => iff_of_true (call_onePerNode m input h) trivial
    · exact ((sessionManagerMachine c).stepsMeet_inputs (fun _ => True) _ inputs).mpr
        fun _ _ => trivial
  rw [and_iff_right hnodup]
  refine (sessionManagerMachine c).run_outputs_iff (P := OnePerNode) call_onePerNode ?_ hstart
    inputs
  rintro m ⟨clock, input⟩ h
  cases input with
  | createOutboundSession remoteNodeId => exact createOutboundSession_usable_iff c h clock
  | _ => exact iff_of_true (fun _ hout => absurd hout List.not_mem_nil) trivial

/-! ## A session closed by its user -/

/-- Node 1 opens a session with node 2, closes it and asks for one again. -/
def closedAndAsked : List (Clock × SessionManagerInput) :=
  [(.still sampleTime, .createOutboundSession (sampleNode 2)),
   (.still sampleTime, .callSession 0 .close),
   (.still sampleTime, .createOutboundSession (sampleNode 2))]

/-- It gets the closed one. -/
theorem closed_session_handed_out :
    ¬ ∀ out ∈ ((sessionManagerMachine sampleCrypto).run { localNodeId := sampleNode 1 }
      closedAndAsked).2, Usable out := by
  intro hall
  have hclosed : ∃ out ∈ ((sessionManagerMachine sampleCrypto).run
      { localNodeId := sampleNode 1 } closedAndAsked).2, out.session.state = .closed := by
    decide
  obtain ⟨out, hmem, hstate⟩ := hclosed
  obtain hfresh | ⟨hopen, _⟩ := hall out hmem
  · rw [hstate] at hfresh
    cases hfresh
  · exact hopen hstate

end Cashew.Theorems.SessionReuse
