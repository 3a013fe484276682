import Cashew.Logic.Session
import Cashew.Network.SessionManager

/-!
# What a session manager holds

`Holds m ref p`: the manager owns the session behind the pointer, and it is one
with the node. Each operation of the manager is described by what it holds
afterwards; the calls on a session leave it alone.
-/

namespace Cashew.SessionManager

open Cashew

/-- The manager owns the session, and it is one with the node. -/
def Holds (m : SessionManager) (ref : SessionRef) (p : NodeID) : Prop :=
  ref ∈ m.sessions ∧ ∃ s, m.objects[ref]? = some s ∧ s.remoteNodeId = p

theorem mem_held {m : SessionManager} {ref : SessionRef} {s : Session} :
    (ref, s) ∈ m.held ↔ ref ∈ m.sessions ∧ m.objects[ref]? = some s := by
  unfold held
  rw [List.mem_filterMap]
  constructor
  · rintro ⟨ref', hmem, hs⟩
    obtain ⟨s', hs', hpair⟩ := Option.map_eq_some_iff.mp hs
    cases hpair
    exact ⟨hmem, hs'⟩
  · rintro ⟨hmem, hs⟩
    exact ⟨ref, hmem, by rw [hs]; rfl⟩

theorem Holds.lt {m : SessionManager} {ref : SessionRef} {p : NodeID} (h : m.Holds ref p) :
    ref < m.objects.length := by
  obtain ⟨-, s, hs, -⟩ := h
  exact (List.getElem?_eq_some_iff.mp hs).1

/-- The session found for a node is held. -/
theorem holds_of_getSession {m : SessionManager} {p : NodeID} {ref : SessionRef} {s : Session}
    (h : m.getSession p = some (ref, s)) : m.Holds ref p := by
  obtain ⟨hmem, hs⟩ := mem_held.mp (List.mem_of_find?_eq_some h)
  have hp : (s.remoteNodeId == p) = true :=
    List.find?_some (p := fun entry : SessionRef × Session => entry.2.remoteNodeId == p) h
  exact ⟨hmem, s, hs, beq_iff_eq.mp hp⟩

/-- A node with a held session has one that is found. -/
theorem getSession_of_holds {m : SessionManager} {ref : SessionRef} {p : NodeID}
    (h : m.Holds ref p) : (m.getSession p).isSome := by
  obtain ⟨hmem, s, hs, hp⟩ := h
  exact List.find?_isSome.mpr ⟨(ref, s), mem_held.mpr ⟨hmem, hs⟩, beq_iff_eq.mpr hp⟩

/-! ## The operations -/

theorem holds_add {m : SessionManager} {s : Session} {ref : SessionRef} {p : NodeID} :
    (m.add s).1.Holds ref p ↔ m.Holds ref p ∨ ref = m.objects.length ∧ s.remoteNodeId = p := by
  unfold Holds add
  simp only [List.mem_append, List.mem_singleton]
  constructor
  · rintro ⟨hmem, s', hs', hp⟩
    by_cases hnew : ref = m.objects.length
    · subst hnew
      rw [List.getElem?_concat_length] at hs'
      cases hs'
      exact .inr ⟨rfl, hp⟩
    · have hlt : ref < (m.objects ++ [s]).length := (List.getElem?_eq_some_iff.mp hs').1
      rw [List.length_append, List.length_singleton] at hlt
      have hold : ref < m.objects.length := Nat.lt_of_le_of_ne (Nat.lt_succ_iff.mp hlt) hnew
      rw [List.getElem?_append_left hold] at hs'
      exact .inl ⟨hmem.resolve_right hnew, s', hs', hp⟩
  · rintro (⟨hmem, s', hs', hp⟩ | ⟨rfl, hp⟩)
    · have hlt := (List.getElem?_eq_some_iff.mp hs').1
      exact ⟨.inl hmem, s', by rw [List.getElem?_append_left hlt, hs'], hp⟩
    · exact ⟨.inr rfl, s, List.getElem?_concat_length, hp⟩

/-- A call that keeps the session's node changes nothing of what is held. -/
theorem holds_set {m : SessionManager} {ref : SessionRef} {s s' : Session}
    (hs : m.objects[ref]? = some s) (hkeep : s'.remoteNodeId = s.remoteNodeId) {r : SessionRef}
    {p : NodeID} : { m with objects := m.objects.set ref s' }.Holds r p ↔ m.Holds r p := by
  unfold Holds
  refine and_congr_right fun _ => ?_
  dsimp only
  by_cases hr : ref = r
  · subst hr
    rw [List.getElem?_set_self (List.getElem?_eq_some_iff.mp hs).1, hs]
    simp only [Option.some.injEq, exists_eq_left', hkeep]
  · rw [List.getElem?_set_ne hr]

theorem holds_withSession {m : SessionManager} {ref : SessionRef}
    {call : Session → Session × Bool} (hkeep : ∀ s, (call s).1.remoteNodeId = s.remoteNodeId)
    {r : SessionRef} {p : NodeID} : (m.withSession ref call).1.Holds r p ↔ m.Holds r p := by
  unfold withSession
  cases hs : m.objects[ref]? with
  | none => exact Iff.rfl
  | some s => exact holds_set hs (hkeep s)

theorem holds_removeSession {m : SessionManager} {n : NodeID} {ref : SessionRef} {p : NodeID} :
    (m.removeSession n).Holds ref p ↔ m.Holds ref p ∧ p ≠ n := by
  unfold Holds removeSession
  simp only [List.mem_map, List.mem_filter, bne_iff_ne]
  constructor
  · rintro ⟨⟨⟨ref', s'⟩, ⟨hmem, hne⟩, rfl⟩, s, hs, rfl⟩
    obtain ⟨hmem, hs'⟩ := mem_held.mp hmem
    obtain rfl : s' = s := Option.some.inj (hs'.symm.trans hs)
    exact ⟨⟨hmem, s', hs, rfl⟩, hne⟩
  · rintro ⟨⟨hmem, s, hs, rfl⟩, hne⟩
    exact ⟨⟨(ref, s), ⟨mem_held.mpr ⟨hmem, hs⟩, hne⟩, rfl⟩, s, hs, rfl⟩

/-- `close_session` gives up what was held for the node. -/
theorem holds_closeSession {m : SessionManager} {n : NodeID} {ref : SessionRef} {p : NodeID} :
    (m.closeSession n).Holds ref p ↔ m.Holds ref p ∧ p ≠ n := by
  unfold closeSession
  cases hsession : m.getSession n with
  | none =>
    refine (and_iff_left_of_imp ?_).symm
    rintro h rfl
    have hsome := getSession_of_holds h
    rw [hsession] at hsome
    cases hsome
  | some entry =>
    obtain ⟨r, s⟩ := entry
    have hs := (mem_held.mp (List.mem_of_find?_eq_some hsession)).2
    exact holds_removeSession.trans (and_congr_left' (holds_set hs (Session.close_remoteNodeId s)))

theorem closeSession_length {m : SessionManager} {n : NodeID} :
    (m.closeSession n).objects.length = m.objects.length := by
  unfold closeSession
  split
  · rfl
  · exact List.length_set

theorem holds_closeAllSessions {m : SessionManager} {ref : SessionRef} {p : NodeID} :
    ¬ m.closeAllSessions.Holds ref p := by
  rintro ⟨hmem, -⟩
  cases hmem

/-- `cleanup_stale_sessions` keeps a session that has not timed out where it is
looked at. -/
theorem holds_cleanupStaleSessions {m : SessionManager} {clock : Clock} {ref : SessionRef}
    {p : NodeID} :
    (m.cleanupStaleSessions clock).Holds ref p ↔
      m.Holds ref p ∧
        ∃ i, m.sessions[i]? = some ref ∧ m.hasTimedOut ref (clock.read i) = false := by
  have hkept : ref ∈ (m.cleanupStaleSessions clock).sessions ↔
      ∃ i, m.sessions[i]? = some ref ∧ m.hasTimedOut ref (clock.read i) = false := by
    simp only [cleanupStaleSessions, List.mem_map, List.mem_filter, Bool.not_eq_true']
    constructor
    · rintro ⟨⟨ref', i⟩, ⟨hmem, hfresh⟩, rfl⟩
      exact ⟨i, List.mk_mem_zipIdx_iff_getElem?.mp hmem, hfresh⟩
    · rintro ⟨i, hi, hfresh⟩
      exact ⟨(ref, i), ⟨List.mk_mem_zipIdx_iff_getElem?.mpr hi, hfresh⟩, rfl⟩
  have hnode : (∃ s, (m.cleanupStaleSessions clock).objects[ref]? = some s ∧
      s.remoteNodeId = p) ↔ ∃ s, m.objects[ref]? = some s ∧ s.remoteNodeId = p := by
    simp only [cleanupStaleSessions, List.getElem?_mapIdx]
    cases m.objects[ref]? with
    | none => simp
    | some s =>
      simp only [Option.map_some, Option.some.injEq, exists_eq_left']
      split
      · rw [Session.close_remoteNodeId]
      · rfl
  unfold Holds
  rw [hkept, hnode]
  constructor
  · rintro ⟨⟨i, hi, hfresh⟩, hs⟩
    exact ⟨⟨List.mem_of_getElem? hi, hs⟩, i, hi, hfresh⟩
  · rintro ⟨⟨-, hs⟩, hfresh⟩
    exact ⟨hfresh, hs⟩

theorem holds_createOutboundSession {m : SessionManager} (now : Time) {n : NodeID}
    {ref : SessionRef} {p : NodeID} (h : m.Holds ref p) :
    (m.createOutboundSession now n).1.Holds ref p := by
  unfold createOutboundSession
  cases hsession : m.getSession n with
  | none => exact holds_add.mpr (.inl h)
  | some entry => exact h

/-- An inbound handshake gives up the sender's session when that is closed or has
timed out, and only then. -/
theorem holds_handleInboundHandshake (c : SessionCrypto) {m : SessionManager} (clock : Clock)
    (secret : SecretKey) {handshake : HandshakeMessage} {ref : SessionRef} {p : NodeID}
    (h : m.Holds ref p) :
    (m.handleInboundHandshake c clock secret handshake).1.Holds ref p ↔
      (p = handshake.nodeId → ∀ r s, m.getSession handshake.nodeId = some (r, s) →
        ¬ (s.state = .closed ∨ s.hasTimedOut (clock.read 0) = true)) := by
  -- accepting adds a session under a new reference and takes none away
  have haccept : ∀ m' : SessionManager, m'.objects.length = m.objects.length →
      ((m'.acceptInbound c (clock.after 1) secret handshake).1.Holds ref p ↔ m'.Holds ref p) := by
    intro m' hlen
    unfold acceptInbound
    dsimp only
    split
    · rw [holds_add, or_iff_left]
      rintro ⟨rfl, -⟩
      exact absurd h.lt (by rw [hlen]; exact Nat.lt_irrefl _)
    · exact Iff.rfl
  unfold handleInboundHandshake
  cases hsession : m.getSession handshake.nodeId with
  -- no session of the sender, so none is given up
  | none =>
    refine iff_of_true ((haccept m rfl).mpr h) ?_
    intro _ r s hnone
    cases hnone
  | some entry =>
    obtain ⟨r, s⟩ := entry
    have hgone : (s.state = .closed || s.hasTimedOut (clock.read 0)) = true ↔
        s.state = .closed ∨ s.hasTimedOut (clock.read 0) = true := by
      rw [Bool.or_eq_true, decide_eq_true_eq]
    dsimp only
    split
    · rename_i hclose
      rw [haccept _ closeSession_length, holds_closeSession, and_iff_right h]
      constructor
      · exact fun hne heq => absurd heq hne
      · exact fun hkeep heq => hkeep heq r s rfl (hgone.mp hclose)
    · rename_i hclose
      refine iff_of_true h fun _ r' s' hsame => ?_
      cases hsame
      exact fun hor => hclose (hgone.mpr hor)

/-- The session it returns is held for the node. -/
theorem createOutboundSession_holds (m : SessionManager) (now : Time) (n : NodeID) :
    (m.createOutboundSession now n).1.Holds (m.createOutboundSession now n).2 n := by
  unfold createOutboundSession
  cases hsession : m.getSession n with
  | none => exact holds_add.mpr (.inr ⟨rfl, rfl⟩)
  | some entry => exact holds_of_getSession hsession

end Cashew.SessionManager
