import Cashew.Network.Gossip
import Cashew.Lib.Recent

/-!
# How long a gossip id is remembered

An id that was marked stays in the cache until enough other ids push it out, or
until a cleanup finds it older than ten minutes. By then the message itself is
too old to be accepted: `Settled` says that one of the two holds, and no copy of
a settled message is accepted again.
-/

namespace Cashew

open Cashew.Lib

/-! ## Ages -/

/-- By the time an entry made at `lo` may be cleaned up, the message is too old. -/
def GossipMessage.Expires (m : GossipMessage) (lo : Nat) : Prop :=
  ∀ now : Time, lo + 600 < now.secs.toNat → m.isTooOld now = true

/-- A message that was young enough when it was marked has aged by the time that
has passed since. Its timestamp may lie anywhere, also ahead of the clock. -/
theorem GossipMessage.expires_of_fresh {m : GossipMessage} {t : Time} {lo : Nat}
    (hfresh : m.isTooOld t = false) (hlo : t.secs.toNat ≤ lo) : m.Expires lo := by
  intro now hnow
  have ht := t.signed
  have hsigned := now.signed
  have hstamp := m.timestamp.toNat_lt
  have hlimit : maxAgeSeconds.toNat = 300 := by decide
  unfold isTooOld at hfresh ⊢
  rw [decide_eq_false_iff_not, UInt64.lt_iff_toNat_lt, hlimit, Time.secs_sub_toNat] at hfresh
  rw [decide_eq_true_iff, UInt64.lt_iff_toNat_lt, hlimit, Time.secs_sub_toNat]
  split at hfresh <;> split <;> omega

/-- So has one whose timestamp was not far ahead of the clock. -/
theorem GossipMessage.expires_of_le {m : GossipMessage} {lo : Nat}
    (h : m.timestamp.toNat ≤ lo + 300) : m.Expires lo := by
  intro now hnow
  have hlimit : maxAgeSeconds.toNat = 300 := by decide
  unfold isTooOld
  rw [decide_eq_true_iff, UInt64.lt_iff_toNat_lt, hlimit, Time.secs_sub_toNat]
  split <;> omega

namespace GossipProtocol

variable {g : GossipProtocol} {id : Hash256} {lo hi k : Nat}

/-! ## What a call does -/

theorem shouldPropagate_iff {now : Time} {m : GossipMessage} :
    g.shouldPropagate now m = true ↔
      g.hasSeenMessage m.messageId = false ∧ m.isTooOld now = false ∧
        m.hasExceededHops = false := by
  unfold shouldPropagate
  cases g.hasSeenMessage m.messageId <;> cases m.isTooOld now <;> cases m.hasExceededHops <;> simp

/-- The id a call marks. -/
def marked (g : GossipProtocol) (clock : Clock) : GossipInput → Option Hash256
  | .receiveMessage _ m => if g.shouldPropagate (clock.read 0) m then some m.messageId else none
  | .broadcastMessage _ m => some m.messageId
  | .cleanupOldSeenMessages => none

/-- The reading that dates the mark. -/
def markTime (clock : Clock) : GossipInput → Time
  | .receiveMessage _ _ => clock.read 1
  | _ => clock.read 0

/-- A call marks an id, cleans up, or leaves the state alone. -/
theorem call_cases (g : GossipProtocol) (clock : Clock) (input : GossipInput) :
    (∃ id, g.marked clock input = some id ∧
      (g.call clock input).1 = g.markAsSeen (markTime clock input) id) ∨
    (g.marked clock input = none ∧
      ((g.call clock input).1 = g ∨
        (g.call clock input).1 = g.cleanupOldSeenMessages (clock.read 0))) := by
  cases input with
  | receiveMessage draws m =>
    cases haccept : g.shouldPropagate (clock.read 0) m with
    | true =>
      refine .inl ⟨m.messageId, by simp [marked, haccept], ?_⟩
      simp [call, receiveMessage, haccept, markTime]
    | false =>
      refine .inr ⟨by simp [marked, haccept], .inl ?_⟩
      simp [call, receiveMessage, haccept]
  | broadcastMessage draws m => exact .inl ⟨m.messageId, rfl, rfl⟩
  | cleanupOldSeenMessages => exact .inr ⟨rfl, .inr rfl⟩

@[simp] theorem markAsSeen_maxSeenMessages (now : Time) (id : Hash256) :
    (g.markAsSeen now id).maxSeenMessages = g.maxSeenMessages := rfl

theorem call_maxSeenMessages (g : GossipProtocol) (clock : Clock) (input : GossipInput) :
    (g.call clock input).1.maxSeenMessages = g.maxSeenMessages := by
  rcases call_cases g clock input with ⟨_, _, h⟩ | ⟨_, h | h⟩ <;> rw [h] <;> rfl

/-! ## Drawn peers -/

/-- Every draw takes another place of the list. -/
theorem getRandomPeers_subperm (available : List NodeID) (count : Nat) (draws : Nat → UInt32) :
    (getRandomPeers available count draws).Subperm available := by
  induction count generalizing available draws with
  | zero => cases available <;> exact List.nil_subperm
  | succ count ih =>
    cases available with
    | nil => exact List.nil_subperm
    | cons first rest =>
      have hindex : (draws 0).toNat % (first :: rest).length < (first :: rest).length :=
        Nat.mod_lt _ (by simp)
      rw [getRandomPeers, List.getD_eq_getElem _ _ hindex]
      refine List.Subperm.trans ?_ (List.getElem_cons_eraseIdx_perm hindex).subperm
      exact (List.subperm_cons _).mpr (ih _ _)

theorem getRandomPeers_nodup {available : List NodeID} (h : available.Nodup) (count : Nat)
    (draws : Nat → UInt32) : (getRandomPeers available count draws).Nodup := by
  obtain ⟨l, hperm, hsub⟩ := getRandomPeers_subperm available count draws
  exact hperm.nodup_iff.mp (h.sublist hsub)

theorem getRandomPeers_length_le (available : List NodeID) (count : Nat) (draws : Nat → UInt32) :
    (getRandomPeers available count draws).length ≤ count := by
  induction count generalizing available draws with
  | zero => cases available <;> simp [getRandomPeers]
  | succ count ih =>
    cases available with
    | nil => simp [getRandomPeers]
    | cons first rest => simpa [getRandomPeers] using ih _ _

/-! ## Remembered ids -/

/-- A cache entry for `id`, made between `lo` and `hi`. -/
structure Dated (id : Hash256) (lo hi : Nat) (seen : SeenMessage) : Prop where
  messageId : seen.messageId = id
  notBefore : lo ≤ seen.timestamp.toNat
  notAfter : seen.timestamp.toNat ≤ hi

theorem Dated.mono {hi' : Nat} (hle : hi ≤ hi') {seen : SeenMessage} (h : Dated id lo hi seen) :
    Dated id lo hi' seen :=
  ⟨h.messageId, h.notBefore, le_trans h.notAfter hle⟩

/-- The id has an entry made at `lo` or later with at most `k` entries after it,
or the clock, which shows `hi`, is past the time at which that may be dropped. -/
def Settled (g : GossipProtocol) (id : Hash256) (lo hi k : Nat) : Prop :=
  Recent (Dated id lo hi) k g.seenMessages ∨ lo + 600 < hi

theorem Settled.mono {hi' k' : Nat} (h : Settled g id lo hi k) (hhi : hi ≤ hi') (hk : k ≤ k') :
    Settled g id lo hi' k' := by
  rcases h with h | h
  · exact .inl (h.mono (fun seen => Dated.mono hhi) hk)
  · exact .inr (by omega)

theorem settled_markAsSeen (now : Time) (id : Hash256) (hlo : lo ≤ now.secs.toNat) :
    Settled (g.markAsSeen now id) id lo now.secs.toNat k :=
  .inl (Recent.push_self ⟨rfl, hlo, le_refl _⟩)

/-- Marking another id keeps one that is not about to be pushed out. -/
theorem Settled.markAsSeen (h : Settled g id lo hi k)
    (hroom : g.seenMessages.length < g.maxSeenMessages ∨ k + 1 < g.maxSeenMessages) (now : Time)
    (other : Hash256) : Settled (g.markAsSeen now other) id lo hi (k + 1) := by
  rcases h with h | h
  · exact .inl (h.push hroom _)
  · exact .inr h

/-- A cleanup drops an entry only once the clock is past its time. -/
theorem Settled.cleanup (h : Settled g id lo hi k) {now : Time} (hnow : hi ≤ now.secs.toNat) :
    Settled (g.cleanupOldSeenMessages now) id lo now.secs.toNat k := by
  by_cases hpast : lo + 600 < now.secs.toNat
  · exact .inr hpast
  · rcases h with h | h
    · refine .inl (Recent.filter (h.mono (fun seen => Dated.mono hnow) (le_refl k)) ?_)
      intro seen hseen
      have hbefore := hseen.notBefore
      have hafter := hseen.notAfter
      have hlimit : seenMessageTtlSeconds.toNat = 600 := by decide
      rw [Bool.not_eq_true', decide_eq_false_iff_not, UInt64.lt_iff_toNat_lt, hlimit,
        Time.secs_sub_toNat, if_pos hafter]
      omega
    · exact .inr (by omega)

/-- A settled id is refused: it is in the cache, or the message is too old. -/
theorem Settled.refused (h : Settled g id lo hi k) {m : GossipMessage} (hid : m.messageId = id)
    (hexpires : m.Expires lo) {now : Time} (hnow : hi ≤ now.secs.toNat) :
    g.shouldPropagate now m = false := by
  rw [← Bool.not_eq_true, shouldPropagate_iff]
  rintro ⟨hunseen, hyoung, _⟩
  rcases h with h | h
  · obtain ⟨seen, hmem, hdated⟩ := h.exists_mem
    have hseen : g.hasSeenMessage m.messageId = true :=
      hasSeenMessage_iff.mpr ⟨seen, hmem, hdated.messageId.trans hid.symm⟩
    cases hunseen.symm.trans hseen
  · cases hyoung.symm.trans (hexpires now (by omega))

/-! ## Runs -/

/-- The readings never go back, from `t` on. -/
def ClockFrom : Nat → List (Clock × GossipInput) → Prop
  | _, [] => True
  | t, (clock, _) :: rest =>
    t ≤ (clock.read 0).secs.toNat ∧ (clock.read 0).secs.toNat ≤ (clock.read 1).secs.toNat ∧
      ClockFrom (clock.read 1).secs.toNat rest

theorem ClockFrom.append {t : Nat} {front back : List (Clock × GossipInput)}
    (h : ClockFrom t (front ++ back)) : ∃ t', ClockFrom t' back := by
  induction front generalizing t with
  | nil => exact ⟨t, h⟩
  | cons input rest ih => exact ih h.2.2

/-- The step marks an id other than the given one. -/
def marksOther (id : Hash256) (g : GossipProtocol) (input : Clock × GossipInput) : Bool :=
  match g.marked input.1 input.2 with
  | some other => other ≠ id
  | none => false

theorem run_maxSeenMessages (g : GossipProtocol) (inputs : List (Clock × GossipInput)) :
    (gossipMachine.run g inputs).1.maxSeenMessages = g.maxSeenMessages := by
  refine gossipMachine.run_invariant (P := fun g' => g'.maxSeenMessages = g.maxSeenMessages) ?_
    rfl inputs
  intro g' input h
  exact (call_maxSeenMessages g' input.1 input.2).trans h

theorem Settled.call (h : Settled g id lo hi k) (hlo : lo ≤ hi) (input : Clock × GossipInput)
    (hstart : hi ≤ (input.1.read 0).secs.toNat)
    (hend : (input.1.read 0).secs.toNat ≤ (input.1.read 1).secs.toNat)
    (hroom : marksOther id g input = true →
      g.seenMessages.length < g.maxSeenMessages ∨ k + 1 < g.maxSeenMessages) :
    Settled (gossipMachine.step g input).1 id lo (input.1.read 1).secs.toNat
      (k + (marksOther id g input).toNat) := by
  show Settled (g.call input.1 input.2).1 id lo _ _
  rcases call_cases g input.1 input.2 with ⟨other, hmarked, hstep⟩ | ⟨hmarked, hstep | hstep⟩
  · have htime : hi ≤ (markTime input.1 input.2).secs.toNat ∧
        (markTime input.1 input.2).secs.toNat ≤ (input.1.read 1).secs.toNat := by
      unfold markTime
      split <;> omega
    rw [hstep]
    by_cases hsame : other = id
    · -- the id is marked again: its new entry is the latest
      rw [hsame]
      exact (settled_markAsSeen _ id (by omega)).mono htime.2 (Nat.zero_le _)
    · have hother : marksOther id g input = true := by simp [marksOther, hmarked, hsame]
      rw [hother]
      exact (h.markAsSeen (hroom hother) _ other).mono (by omega) (le_refl _)
  · rw [hstep]
    exact h.mono (by omega) (by omega)
  · rw [hstep]
    exact (h.cleanup hstart).mono hend (by omega)

/-- A settled id stays settled as long as fewer other ids are marked than the
cache holds. -/
theorem Settled.run (mid : List (Clock × GossipInput)) {back : List (Clock × GossipInput)}
    (h : Settled g id lo hi k) (hlo : lo ≤ hi) (hclock : ClockFrom hi (mid ++ back))
    (hroom : k + gossipMachine.countSteps (marksOther id) g mid < g.maxSeenMessages) :
    ∃ hi' k', Settled (gossipMachine.run g mid).1 id lo hi' k' ∧ ClockFrom hi' back := by
  induction mid generalizing g hi k with
  | nil => exact ⟨hi, k, h, hclock⟩
  | cons input rest ih =>
    obtain ⟨hstart, hend, hrest⟩ := hclock
    have hcount : gossipMachine.countSteps (marksOther id) g (input :: rest) =
        (marksOther id g input).toNat +
          gossipMachine.countSteps (marksOther id) (gossipMachine.step g input).1 rest := rfl
    have hmax : (gossipMachine.step g input).1.maxSeenMessages = g.maxSeenMessages :=
      call_maxSeenMessages g input.1 input.2
    have hnext := h.call hlo input hstart hend (by
      intro hother
      rw [hother] at hcount
      have hone : true.toNat = 1 := rfl
      omega)
    exact ih hnext (by omega) hrest (by rw [hmax]; omega)

end GossipProtocol

end Cashew
