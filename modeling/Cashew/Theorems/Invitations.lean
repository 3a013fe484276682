import Cashew.Network.Network

/-!
# What an invitation is good for

An invitation is checked by its own fields: network, expiry, inviter and
signature. Neither accepting nor rejecting it leaves a mark that a later
`accept_invitation` looks at, so it can be used again as soon as its invitee is
out, and also after it was rejected. `invitation_once_iff` says exactly in which
runs no invitation is used twice.
-/

namespace Cashew.Theorems.Invitations

open Cashew Cashew.Lib

variable {ed : Ed25519}

/-- No invitation admits after it has admitted or was rejected. -/
def UsedOnce (events : List InvitationEvent) : Prop :=
  events.Pairwise fun earlier later =>
    ∀ i, later = .admitted i → earlier ≠ .admitted i ∧ earlier ≠ .rejected i

/-- The invitation passes its checks, its invitee is not a member and there is
room. -/
def Admits (ed : Ed25519) (n : Network) (clock : Clock) (i : NetworkInvitation) : Prop :=
  n.verifyInvitation ed (clock.read 0) i = true ∧
    (∀ member ∈ n.members, member.nodeId ≠ i.inviteeId) ∧
      n.members.length < n.quorum.maxReplicas.toNat

/-- An invitation that is presented and would admit has not admitted before and
was not rejected. -/
def PresentedFresh (ed : Ed25519) (s : Network × List InvitationEvent)
    (input : Clock × NetworkInput) : Prop :=
  ∀ i, input.2 = .acceptInvitation i → Admits ed s.1 input.1 i →
    .admitted i ∉ s.2 ∧ .rejected i ∉ s.2

theorem addMember_snd (n : Network) (member : NetworkMember) :
    (n.addMember member).2 = true ↔
      (∀ m ∈ n.members, m.nodeId ≠ member.nodeId) ∧
        n.members.length < n.quorum.maxReplicas.toNat := by
  unfold Network.addMember NetworkQuorum.atCapacity
  by_cases hmember : n.members.any (·.nodeId = member.nodeId) = true
  · obtain ⟨m, hm, hid⟩ := List.any_eq_true.mp hmember
    rw [if_pos hmember]
    refine iff_of_false Bool.false_ne_true fun h => ?_
    exact h.1 m hm (by simpa using hid)
  · have hnone : ∀ m ∈ n.members, m.nodeId ≠ member.nodeId := by
      intro m hm hid
      exact hmember (List.any_eq_true.mpr ⟨m, hm, by simpa using hid⟩)
    rw [if_neg hmember, and_iff_right hnone]
    by_cases hfull : n.quorum.maxReplicas.toNat ≤ n.members.length
    · simp [hfull]
    · simp [hfull, Nat.lt_of_not_le hfull]

theorem acceptInvitation_snd (n : Network) (clock : Clock) (i : NetworkInvitation) :
    (n.acceptInvitation ed clock i).2 = true ↔ Admits ed n clock i := by
  unfold Network.acceptInvitation Admits
  by_cases hverified : n.verifyInvitation ed (clock.read 0) i = true
  · rw [if_neg (by simp [hverified]), and_iff_right hverified, addMember_snd]
    rfl
  · simp [hverified]

/-- A log stays good through one more event exactly when that event is no
admission by an invitation used before. -/
theorem usedOnce_concat {log : List InvitationEvent} (h : UsedOnce log)
    (event : InvitationEvent) :
    UsedOnce (log ++ [event]) ↔
      ∀ i, event = .admitted i → .admitted i ∉ log ∧ .rejected i ∉ log := by
  unfold UsedOnce at h ⊢
  rw [List.pairwise_append, and_iff_right h, and_iff_right (List.pairwise_singleton _ _)]
  constructor
  · intro hall i hevent
    refine ⟨fun hmem => ?_, fun hmem => ?_⟩
    · exact (hall _ hmem event (List.mem_singleton.mpr rfl) i hevent).1 rfl
    · exact (hall _ hmem event (List.mem_singleton.mpr rfl) i hevent).2 rfl
  · intro hnew earlier hmem later hlater i hevent
    rw [List.mem_singleton.mp hlater] at hevent
    obtain ⟨hadmitted, hrejected⟩ := hnew i hevent
    exact ⟨fun heq => hadmitted (heq ▸ hmem), fun heq => hrejected (heq ▸ hmem)⟩

/-- One call extends a good log to a good one exactly when it does not use an
invitation again. -/
theorem step_usedOnce_iff (n : Network) (log : List InvitationEvent)
    (input : Clock × NetworkInput) (h : UsedOnce log) :
    UsedOnce (log ++ ((networkMachine ed).step n input).2) ↔
      PresentedFresh ed (n, log) input := by
  obtain ⟨clock, call⟩ := input
  -- a call that logs nothing uses no invitation
  have hquiet : ∀ {events : List InvitationEvent}, events = [] →
      (∀ i, call ≠ .acceptInvitation i) →
        (UsedOnce (log ++ events) ↔ PresentedFresh ed (n, log) (clock, call)) := by
    intro events hevents hother
    rw [hevents, List.append_nil]
    exact iff_of_true h fun i hcall => absurd hcall (hother i)
  cases call with
  | addMember member => exact hquiet rfl (fun _ h => nomatch h)
  | removeMember nodeId => exact hquiet rfl (fun _ h => nomatch h)
  | createInvitation => exact hquiet rfl (fun _ h => nomatch h)
  | cleanupExpiredInvitations => exact hquiet rfl (fun _ h => nomatch h)
  | rejectInvitation i =>
    show UsedOnce (log ++ if (n.rejectInvitation i).2 then [.rejected i] else []) ↔ _
    split
    · rw [usedOnce_concat h]
      exact iff_of_true (fun _ hevent => nomatch hevent) fun _ hcall => nomatch hcall
    · exact hquiet rfl (fun _ h => nomatch h)
  | acceptInvitation i =>
    show UsedOnce (log ++ if (n.acceptInvitation ed clock i).2 then [.admitted i] else []) ↔ _
    have haccept : (n.acceptInvitation ed clock i).2 = true ↔ Admits ed n clock i :=
      acceptInvitation_snd n clock i
    -- it is logged if it admits, and the log is good if it was not there before
    by_cases hadmits : Admits ed n clock i
    · rw [if_pos (haccept.mpr hadmits), usedOnce_concat h]
      constructor
      · intro hnew i' hcall _
        cases hcall
        exact hnew i rfl
      · intro hfresh i' hevent
        cases hevent
        exact hfresh i rfl hadmits
    · rw [if_neg fun h => hadmits (haccept.mp h), List.append_nil]
      refine iff_of_true h ?_
      intro i' hcall hadmits'
      cases hcall
      exact absurd hadmits' hadmits

/-- **Once.** In a run on any network no invitation admits twice or after it was
rejected exactly when no invitation that was accepted or rejected before is
presented again while it still passes its checks, its invitee is not a member and
there is room. -/
theorem invitation_once_iff (ed : Ed25519) (n : Network)
    (inputs : List (Clock × NetworkInput)) :
    UsedOnce ((networkMachine ed).run n inputs).2 ↔
      (networkMachine ed).logged.StepsMeet (PresentedFresh ed) (n, []) inputs := by
  have hpart : ∀ log more, UsedOnce (log ++ more) → UsedOnce log :=
    fun _ _ hall => (List.pairwise_append.mp hall).1
  have hlog := (networkMachine ed).run_log_iff (s := n) hpart step_usedOnce_iff
    List.Pairwise.nil inputs
  rwa [List.nil_append] at hlog

/-- A network of node 1, its founder. -/
def foundedNetwork : Network :=
  { Network.create ⟨FixedBytes.zero⟩ ⟨FixedBytes.zero⟩ 0 with
    members := [NetworkMember.create (sampleNode 1) (samplePublicKey 1) (.listed .founder)] }

/-- Node 1 invites node 2 for a day. -/
def inviteCall : NetworkInput :=
  .createInvitation (sampleNode 1) (sampleNode 2) (samplePublicKey 1) (sampleSecretKey 1)
    (.listed .full) 86400

/-- The invitation this returns. -/
def invitation : NetworkInvitation :=
  (foundedNetwork.createInvitation sampleEd25519 sampleTime (sampleNode 1) (sampleNode 2)
    (samplePublicKey 1) (sampleSecretKey 1) (.listed .full) 86400).2

/-- Calls made within one second. -/
def atOnce (calls : List NetworkInput) : List (Clock × NetworkInput) :=
  calls.map fun call => (Clock.still sampleTime, call)

/-- Node 2 gets in, is removed and gets in again with the same invitation; and it
gets in with an invitation that was rejected. -/
theorem invitation_used_again :
    ((networkMachine sampleEd25519).run foundedNetwork (atOnce [inviteCall,
      .acceptInvitation invitation, .removeMember (sampleNode 2),
      .acceptInvitation invitation])).2 = [.admitted invitation, .admitted invitation] ∧
    ((networkMachine sampleEd25519).run foundedNetwork (atOnce [inviteCall,
      .rejectInvitation invitation, .acceptInvitation invitation])).2 =
        [.rejected invitation, .admitted invitation] ∧
    ¬ UsedOnce [.admitted invitation, .admitted invitation] ∧
    ¬ UsedOnce [.rejected invitation, .admitted invitation] := by
  refine ⟨by decide +kernel, by decide +kernel, ?_, ?_⟩
  · intro h
    have hpair := List.rel_of_pairwise_cons h (List.mem_singleton.mpr rfl)
    exact (hpair invitation rfl).1 rfl
  · intro h
    have hpair := List.rel_of_pairwise_cons h (List.mem_singleton.mpr rfl)
    exact (hpair invitation rfl).2 rfl

end Cashew.Theorems.Invitations
