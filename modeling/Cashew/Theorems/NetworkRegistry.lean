import Cashew.Network.NetworkRegistry

/-!
# Networks across restarts

The id of a new network is the hash of its Thing and a counter. The counter is
not saved, and `create_network`, unlike `add_network`, does not look whether the
id is taken: after a restart it starts again at the ids of the networks just
loaded (`networkIds_distinct_iff`).

Saving writes the files of the registered networks and deletes none, so what an
earlier save left behind is loaded again (`save_load_iff`).
-/

namespace Cashew.Theorems.NetworkRegistry

open Cashew Cashew.Lib NetworkRegistry

/-! ## Distinct ids -/

/-- The registered networks have different ids, and saving them now, to any
directory, leaves each in its file. -/
def Distinct (s : RegistrySystem) : Prop :=
  (s.registry.networks.map Network.networkId).Nodup ∧
    ∀ directory, ∀ n ∈ s.registry.networks,
      (s.registry.saveToDisk directory).find? (networkFileName n.networkId) = some n.serialize

/-- A network is created under an id that no registered network has. -/
def CreatesNewId (H : Bytes → Hash256) (s : RegistrySystem) (input : RegistryInput) : Prop :=
  ∀ thingHash ticks, input = .createNetwork thingHash ticks →
    ∀ n ∈ s.registry.networks, n.networkId ≠ s.registry.nextNetworkId H thingHash

/-- With different ids no file is written twice. -/
theorem find?_saveToDisk {r : NetworkRegistry}
    (hids : (r.networks.map Network.networkId).Nodup) {n : Network} (hn : n ∈ r.networks)
    (directory : Directory) :
    (r.saveToDisk directory).find? (networkFileName n.networkId) = some n.serialize := by
  have hnames : (r.networks.map fun n => networkFileName n.networkId).Nodup := by
    have hmapped := hids.map networkFileName_injective
    rwa [List.map_map] at hmapped
  exact OrdMap.find?_foldl_insert_of_mem (fun n : Network => networkFileName n.networkId)
    Network.serialize hnames hn directory

theorem distinct_iff {s : RegistrySystem} :
    Distinct s ↔ (s.registry.networks.map Network.networkId).Nodup := by
  constructor
  · exact And.left
  · exact fun hids => ⟨hids, fun directory n hn => find?_saveToDisk hids hn directory⟩

/-- One more network keeps the ids different exactly when its id is new. -/
theorem concat_nodup_iff {networks : List Network}
    (hids : (networks.map Network.networkId).Nodup) (network : Network) :
    ((networks ++ [network]).map Network.networkId).Nodup ↔
      ∀ n ∈ networks, n.networkId ≠ network.networkId := by
  rw [List.map_append, List.map_singleton, List.nodup_append]
  constructor
  · rintro ⟨_, _, hapart⟩ n hn
    exact hapart _ (List.mem_map.mpr ⟨n, hn, rfl⟩) _ (List.mem_singleton.mpr rfl)
  · intro hnew
    refine ⟨hids, List.nodup_singleton _, ?_⟩
    intro id hid id' hid'
    obtain ⟨n, hn, rfl⟩ := List.mem_map.mp hid
    rw [List.mem_singleton.mp hid']
    exact hnew n hn

/-- One call keeps the ids different exactly when it creates no id again, on a
disk that only saves have written to. -/
theorem step_nodup_iff {H : Bytes → Hash256} {s : RegistrySystem}
    (hdisk : s.disk.AllValues FilesMatch)
    (hids : (s.registry.networks.map Network.networkId).Nodup) (input : RegistryInput) :
    ((s.call H input).registry.networks.map Network.networkId).Nodup ↔ CreatesNewId H s input := by
  -- loading skips ids it has, and the files carry different ones
  have hload : ∀ (r : NetworkRegistry) (order : ListingOrder Text) (directory : Text),
      (r.networks.map Network.networkId).Nodup →
        ((r.loadFromDisk order (s.disk.find? directory)).networks.map
          Network.networkId).Nodup := by
    intro r order directory hr
    cases hfiles : s.disk.find? directory with
    | none => exact hr
    | some files => exact (hdisk directory files hfiles).loaded_nodup order
  cases input with
  -- the only call that appends without a look at the ids
  | createNetwork thingHash ticks =>
    refine (concat_nodup_iff hids _).trans ?_
    constructor
    · intro hnew _ _ hcall
      cases hcall
      exact hnew
    · exact fun hnew => hnew thingHash ticks rfl
  | addNetwork network =>
    refine iff_of_true ?_ (fun _ _ h => nomatch h)
    show ((s.registry.addNetwork network).1.networks.map Network.networkId).Nodup
    unfold NetworkRegistry.addNetwork
    split
    · exact hids
    · rename_i hnew
      refine (concat_nodup_iff hids network).mpr fun n hn heq => ?_
      exact hnew (List.any_eq_true.mpr ⟨n, hn, by simpa using heq⟩)
  | removeNetwork id =>
    refine iff_of_true ?_ (fun _ _ h => nomatch h)
    show ((s.registry.removeNetwork id).1.networks.map Network.networkId).Nodup
    unfold NetworkRegistry.removeNetwork
    split
    · exact hids
    · exact hids.sublist (List.filter_sublist.map _)
  | saveToDisk directory => exact iff_of_true hids (fun _ _ h => nomatch h)
  | loadFromDisk order directory =>
    exact iff_of_true (hload s.registry order directory hids) (fun _ _ h => nomatch h)
  | restart order directory =>
    exact iff_of_true (hload .initial order directory List.nodup_nil) (fun _ _ h => nomatch h)

/-- Only saves write to the disk. -/
theorem filesMatch_call {H : Bytes → Hash256} {s : RegistrySystem}
    (h : s.disk.AllValues FilesMatch) (input : RegistryInput) :
    (s.call H input).disk.AllValues FilesMatch := by
  cases input with
  | saveToDisk directory =>
    exact h.upsert directory filesMatch_empty fun files hfiles => hfiles.saveToDisk s.registry
  | createNetwork => exact h
  | addNetwork => exact h
  | removeNetwork => exact h
  | loadFromDisk => exact h
  | restart => exact h

/-- **Distinct ids.** In a run with any number of restarts the registered networks
have different ids in every state, and none is lost by saving, exactly when no
network is created under the id of a registered one. -/
theorem networkIds_distinct_iff (H : Bytes → Hash256) (inputs : List RegistryInput) :
    (registryMachine H).Always Distinct .initial inputs ↔
      (registryMachine H).StepsMeet (CreatesNewId H) .initial inputs := by
  have hempty : RegistrySystem.initial.disk.AllValues FilesMatch := fun _ _ h => nomatch h
  have hstart : Distinct RegistrySystem.initial := distinct_iff.mpr List.nodup_nil
  refine (registryMachine H).always_iff (P := fun s => s.disk.AllValues FilesMatch)
    (fun s input hs => filesMatch_call hs input) ?_ hempty hstart inputs
  intro s input hdisk hs
  rw [distinct_iff]
  exact step_nodup_iff hdisk (distinct_iff.mp hs) input

/-- The calls that take networks from nowhere but `create_network`. -/
def IsLocal : RegistryInput → Prop
  | .createNetwork .. => True
  | .removeNetwork _ => True
  | .saveToDisk _ => True
  | _ => False

/-- Every registered network was created at a counter value given out before. -/
def FromCounter (H : Bytes → Hash256) (r : NetworkRegistry) : Prop :=
  ∀ n ∈ r.networks, ∃ (thingHash : ContentHash) (counter : UInt64),
    n.networkId = ⟨H (thingHash.hash.bytes ++ u64Bytes counter)⟩ ∧
      counter.toNat < r.nextNetworkCounter.toNat

theorem FromCounter.id_ne {H : Bytes → Hash256} (hH : Function.Injective H)
    {r : NetworkRegistry} (h : FromCounter H r) {n : Network} (hn : n ∈ r.networks)
    (thingHash : ContentHash) : n.networkId ≠ r.nextNetworkId H thingHash := by
  obtain ⟨thingHash', counter, hid, hlt⟩ := h n hn
  intro heq
  rw [hid] at heq
  have hinput := hH (NetworkID.mk.inj heq)
  have hlen : thingHash'.hash.bytes.length = thingHash.hash.bytes.length :=
    thingHash'.hash.size.trans thingHash.hash.size.symm
  have hcounter := u64Bytes_injective (List.append_inj hinput hlen).2
  rw [hcounter] at hlt
  exact Nat.lt_irrefl _ hlt

/-- A call within the process gives out at most one counter value. -/
theorem FromCounter.call {H : Bytes → Hash256} {s : RegistrySystem}
    (h : FromCounter H s.registry) {input : RegistryInput} (hlocal : IsLocal input)
    (hroom : s.registry.nextNetworkCounter.toNat + 1 < 2 ^ 64) :
    FromCounter H (s.call H input).registry ∧
      (s.call H input).registry.nextNetworkCounter.toNat ≤
        s.registry.nextNetworkCounter.toNat + 1 := by
  cases input with
  | createNetwork thingHash ticks =>
    have hone : (1 : UInt64).toNat = 1 := rfl
    have hnext : (s.registry.nextNetworkCounter + 1).toNat =
        s.registry.nextNetworkCounter.toNat + 1 := by
      rw [UInt64.toNat_add, hone, Nat.mod_eq_of_lt hroom]
    refine ⟨?_, Nat.le_of_eq hnext⟩
    intro n hn
    show ∃ _ _, _ ∧ _ < (s.registry.nextNetworkCounter + 1).toNat
    rw [hnext]
    rcases List.mem_append.mp hn with hn | hn
    · obtain ⟨thingHash', counter, hid, hlt⟩ := h n hn
      exact ⟨thingHash', counter, hid, Nat.lt_succ_of_lt hlt⟩
    · cases List.mem_singleton.mp hn
      exact ⟨thingHash, s.registry.nextNetworkCounter, rfl, Nat.lt_succ_self _⟩
  | removeNetwork id =>
    show FromCounter H (s.registry.removeNetwork id).1 ∧
      (s.registry.removeNetwork id).1.nextNetworkCounter.toNat ≤ _
    unfold NetworkRegistry.removeNetwork
    split
    · exact ⟨h, Nat.le_succ _⟩
    · exact ⟨fun n hn => h n (List.mem_filter.mp hn).1, Nat.le_succ _⟩
  | saveToDisk directory => exact ⟨h, Nat.le_succ _⟩
  | addNetwork network => cases hlocal
  | loadFromDisk order directory => cases hlocal
  | restart order directory => cases hlocal

/-- Within one process, and as long as no network comes from elsewhere, all ids
are new: what goes wrong comes in through restarts, loads and `add_network`. -/
theorem createsNewId_of_isLocal {H : Bytes → Hash256} (hH : Function.Injective H)
    {s : RegistrySystem} (hfrom : FromCounter H s.registry) {inputs : List RegistryInput}
    (hlocal : ∀ input ∈ inputs, IsLocal input)
    (hroom : s.registry.nextNetworkCounter.toNat + inputs.length < 2 ^ 64) :
    (registryMachine H).StepsMeet (CreatesNewId H) s inputs := by
  induction inputs generalizing s with
  | nil => trivial
  | cons input rest ih =>
    obtain ⟨hinput, hrest⟩ := List.forall_mem_cons.mp hlocal
    rw [List.length_cons] at hroom
    obtain ⟨hnext, hcounter⟩ := hfrom.call hinput (by omega)
    refine ⟨fun thingHash _ _ n hn => hfrom.id_ne hH hn thingHash, ih hnext hrest ?_⟩
    show (s.call H input).registry.nextNetworkCounter.toNat + rest.length < 2 ^ 64
    omega

/-- Thing number `n`. -/
def sampleThing (n : Nat) : ContentHash := ⟨(sampleNode n).id⟩

/-- The directory `main` uses. -/
def networksDir : Text := Text.ofString "networks"

/-- A network of Thing 1 is created before a restart and another one after it. -/
def acrossRestart : List RegistryInput :=
  [.createNetwork (sampleThing 1) 0, .saveToDisk networksDir, .restart .byName networksDir,
    .createNetwork (sampleThing 1) 1]

/-- The second gets the id of the first. -/
theorem id_again_after_restart :
    ¬ (registryMachine sampleHash).Always Distinct .initial acrossRestart := by
  intro h
  have hids := h.2.2.2.2.1
  exact absurd hids (by decide)

/-! ## Saving and loading -/

/-- A directory that only saves have written to. -/
def savedBy (history : List NetworkRegistry) : Directory :=
  history.foldl (fun directory r => r.saveToDisk directory) OrdMap.empty

/-- No file that is named after no registered network can be read as a network. -/
def NothingLeft (directory : Directory) (r : NetworkRegistry) : Prop :=
  ∀ file ∈ directory.entries,
    (∀ n ∈ r.networks, networkFileName n.networkId ≠ file.1) → readFile file = none

instance (directory : Directory) (r : NetworkRegistry) : Decidable (NothingLeft directory r) :=
  inferInstanceAs (Decidable (∀ file ∈ directory.entries,
    (∀ n ∈ r.networks, networkFileName n.networkId ≠ file.1) → readFile file = none))

/-- Every file is that of a network saved before. -/
theorem savedBy_origin {history : List NetworkRegistry} {name : Text} {bytes : Bytes}
    (h : (savedBy history).find? name = some bytes) :
    ∃ r ∈ history, ∃ n ∈ r.networks, networkFileName n.networkId = name ∧ n.serialize = bytes := by
  induction history using List.reverseRecOn with
  | nil => cases h
  | append_singleton rest last ih =>
    rw [savedBy, List.foldl_append] at h
    rcases OrdMap.find?_foldl_insert_cases h with ⟨n, hn, hfile⟩ | hbefore
    · exact ⟨last, List.mem_append_right _ List.mem_cons_self, n, hn, hfile⟩
    · obtain ⟨r, hr, hfile⟩ := ih hbefore
      exact ⟨r, List.mem_append_left _ hr, hfile⟩

/-- No save deletes a file. -/
theorem contains_savedBy {history : List NetworkRegistry} {r : NetworkRegistry}
    (hr : r ∈ history) {n : Network} (hn : n ∈ r.networks) :
    (savedBy history).contains (networkFileName n.networkId) = true := by
  induction history using List.reverseRecOn with
  | nil => cases hr
  | append_singleton rest last ih =>
    rw [savedBy, List.foldl_append]
    refine (OrdMap.contains_foldl_insert _ _ last.networks _ _).mpr ?_
    rcases List.mem_append.mp hr with hr | hr
    · exact .inr (ih hr)
    · cases List.mem_singleton.mp hr
      exact .inl ⟨n, hn, rfl⟩

theorem filesMatch_savedBy (history : List NetworkRegistry) : FilesMatch (savedBy history) := by
  intro name bytes hfind
  obtain ⟨_, _, n, _, hname, hbytes⟩ := savedBy_origin hfind
  exact ⟨n, hname.symm, hbytes.symm⟩

/-- A network is read back from its file if its numbers fit. -/
theorem readFile_of_fits {n : Network} (h : n.Fits) :
    readFile (networkFileName n.networkId, n.serialize) = some n := by
  rw [readFile_serialize, (Network.deserialize_serialize_iff n).mpr h]
  rfl

/-- If the numbers of all networks saved before fit, nothing is left exactly when
each of them is still registered. -/
theorem nothingLeft_iff {history : List NetworkRegistry}
    (hfits : ∀ before ∈ history, ∀ n ∈ before.networks, n.Fits) (r : NetworkRegistry) :
    NothingLeft (savedBy history) r ↔
      ∀ before ∈ history, ∀ n ∈ before.networks, ∃ m ∈ r.networks, m.networkId = n.networkId := by
  constructor
  · intro hleft before hbefore n hn
    by_contra hgone
    -- the file of the last save of a network with this id
    obtain ⟨bytes, hfile⟩ := Option.isSome_iff_exists.mp (contains_savedBy hbefore hn)
    obtain ⟨last, hlast, n', hn', hname, rfl⟩ := savedBy_origin hfile
    have hunread : readFile (networkFileName n.networkId, n'.serialize) = none :=
      hleft _ (OrdMap.mem_entries.mpr hfile)
        fun m hm heq => hgone ⟨m, hm, networkFileName_injective heq⟩
    rw [← hname, readFile_of_fits (hfits last hlast n' hn')] at hunread
    cases hunread
  · rintro hkept ⟨name, bytes⟩ hfile hother
    obtain ⟨before, hbefore, n, hn, hname, _⟩ := savedBy_origin (OrdMap.mem_entries.mp hfile)
    obtain ⟨m, hm, hid⟩ := hkept before hbefore n hn
    exact absurd ((congrArg networkFileName hid).trans hname) (hother m hm)

/-- The files after a save: those of the registered networks, and the others as
they were. -/
theorem mem_saveToDisk_iff {r : NetworkRegistry}
    (hids : (r.networks.map Network.networkId).Nodup) (directory : Directory)
    (file : Text × Bytes) :
    file ∈ (r.saveToDisk directory).entries ↔
      (∃ n ∈ r.networks, file = (networkFileName n.networkId, n.serialize)) ∨
        (file ∈ directory.entries ∧ ∀ n ∈ r.networks, networkFileName n.networkId ≠ file.1) := by
  obtain ⟨name, bytes⟩ := file
  rw [OrdMap.mem_entries, OrdMap.mem_entries]
  by_cases hwritten : ∃ n ∈ r.networks, networkFileName n.networkId = name
  · obtain ⟨n, hn, rfl⟩ := hwritten
    rw [find?_saveToDisk hids hn directory]
    constructor
    · rintro ⟨⟩
      exact .inl ⟨n, hn, rfl⟩
    · rintro (⟨m, hm, heq⟩ | ⟨_, hother⟩)
      · obtain ⟨hname, rfl⟩ := Prod.mk.inj heq
        have hsame := find?_saveToDisk hids hm directory
        rw [← hname, find?_saveToDisk hids hn directory] at hsame
        exact hsame
      · exact absurd rfl (hother n hn)
  · have hother : ∀ n ∈ r.networks, networkFileName n.networkId ≠ name :=
      fun n hn heq => hwritten ⟨n, hn, heq⟩
    have hkept : (r.saveToDisk directory).find? name = directory.find? name :=
      OrdMap.find?_foldl_insert_of_not_mem _ _ _ _ hother
    rw [hkept]
    constructor
    · exact fun hfile => .inr ⟨hfile, hother⟩
    · rintro (⟨m, hm, heq⟩ | ⟨hfile, _⟩)
      · exact absurd (Prod.mk.inj heq).1.symm (hother m hm)
      · exact hfile

/-- Loading registers what can be read, in whatever order. -/
theorem mem_loadFromDisk_iff (r : NetworkRegistry) (order : ListingOrder Text)
    (directory : Directory)
    (n : Network) :
    n ∈ (r.loadFromDisk order (some directory)).networks ↔
      ∃ file ∈ directory.entries, readFile file = some n := by
  show n ∈ (order.visit _).filterMap readFile ↔ _
  rw [((order.perm _).filterMap readFile).mem_iff, List.mem_filterMap]

/-- **Saving and loading.** With different ids, after any saves to the directory,
saving and loading into a new registry yields the saved networks exactly when no
readable file of a network that is not registered any more is left and every
network's quorum values and counts fit 32 bits. -/
theorem save_load_iff (history : List NetworkRegistry) (r : NetworkRegistry)
    (order : ListingOrder Text) (hids : (r.networks.map Network.networkId).Nodup) :
    (NetworkRegistry.initial.loadFromDisk order
        (some (r.saveToDisk (savedBy history)))).networks.Perm r.networks ↔
      NothingLeft (savedBy history) r ∧ ∀ n ∈ r.networks, n.Fits := by
  have hfiles := (filesMatch_savedBy history).saveToDisk r
  have hloaded := mem_loadFromDisk_iff .initial order (r.saveToDisk (savedBy history))
  constructor
  · intro hperm
    have hsame := fun n => (hperm.mem_iff (a := n)).symm.trans (hloaded n)
    refine ⟨?_, ?_⟩
    · intro file hfile hother
      refine Option.eq_none_iff_forall_not_mem.mpr fun n hread => ?_
      have hleft := (mem_saveToDisk_iff hids _ file).mpr (.inr ⟨hfile, hother⟩)
      exact hother n ((hsame n).mpr ⟨file, hleft, hread⟩) (hfiles.name_eq hleft hread)
    · intro n hn
      obtain ⟨file, hfile, hread⟩ := (hsame n).mp hn
      have hname := hfiles.name_eq hfile hread
      obtain ⟨name, bytes⟩ := file
      dsimp only at hname
      subst hname
      -- the file of this name is the one just written for the network
      have hbytes := (find?_saveToDisk hids hn _).symm.trans (OrdMap.mem_entries.mp hfile)
      obtain rfl := Option.some.inj hbytes
      rw [readFile_serialize] at hread
      exact (Network.deserialize_serialize_iff n).mp (Outcome.toOption_eq_some_iff.mp hread)
  · rintro ⟨hleft, hfits⟩
    have hnodup := (hfiles.loaded_nodup order).of_map
    refine (List.perm_ext_iff_of_nodup hnodup hids.of_map).mpr fun n => ?_
    refine (hloaded n).trans ?_
    constructor
    · rintro ⟨file, hfile, hread⟩
      rcases (mem_saveToDisk_iff hids _ file).mp hfile with ⟨m, hm, rfl⟩ | ⟨hold, hother⟩
      · rw [readFile_of_fits (hfits m hm)] at hread
        cases hread
        exact hm
      · rw [hleft file hold hother] at hread
        cases hread
    · intro hn
      have hfile := (mem_saveToDisk_iff hids (savedBy history) _).mpr (.inl ⟨n, hn, rfl⟩)
      exact ⟨_, hfile, readFile_of_fits (hfits n hn)⟩

/-- A registry with one network of Thing 1. -/
def oneNetwork : NetworkRegistry :=
  NetworkRegistry.initial.createNetwork sampleHash (sampleThing 1) 0

/-- The network is registered again when the registry is saved with another one. -/
theorem two_networks_reload :
    (NetworkRegistry.initial.loadFromDisk .byName (some
      ((oneNetwork.createNetwork sampleHash (sampleThing 2) 1).saveToDisk
        (savedBy [oneNetwork])))).networks.Perm
      (oneNetwork.createNetwork sampleHash (sampleThing 2) 1).networks := by
  refine (save_load_iff [oneNetwork] _ .byName (by decide +kernel)).mpr ⟨by decide +kernel, ?_⟩
  intro n hn
  rcases List.mem_append.mp hn with hn | hn
  · cases List.mem_singleton.mp hn
    exact ⟨by decide, by decide, by decide, by decide, by decide⟩
  · cases List.mem_singleton.mp hn
    exact ⟨by decide, by decide, by decide, by decide, by decide⟩

/-- The network is removed, and the registry saved and loaded: it is back. -/
theorem removed_network_returns :
    ¬ (NetworkRegistry.initial.loadFromDisk .byName (some
      ((oneNetwork.removeNetwork (NetworkRegistry.initial.nextNetworkId sampleHash
        (sampleThing 1))).1.saveToDisk (savedBy [oneNetwork])))).networks.Perm
      (oneNetwork.removeNetwork (NetworkRegistry.initial.nextNetworkId sampleHash
        (sampleThing 1))).1.networks := by
  intro h
  exact absurd h.length_eq (by decide)

end Cashew.Theorems.NetworkRegistry
