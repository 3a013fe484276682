import Cashew.Lib.RecordFiles
import Cashew.Network.NetworkCodec

/-!
# The network registry

`NetworkRegistry` of `network/network.cpp`: the networks of a node, and their files.
Each network is a file of its own, named after the network's id; saving writes the
files of the registered networks, loading reads all files of the directory in
whatever order the directory is listed.

Files are written and read without failure. `main` loads the registry once, when
the program starts.
-/

namespace Cashew

open Cashew.Lib

/-- The regular files of a directory. -/
abbrev Directory := OrdMap Text Bytes

/-- `path.extension() == ".bin"`: a name that is only `.bin` has no extension. -/
def hasBinExtension (name : Text) : Bool :=
  (Text.ofString ".bin").bytes.isSuffixOf name.bytes && name ≠ Text.ofString ".bin"

/-- `network_file_name`. -/
def networkFileName (id : NetworkID) : Text :=
  ⟨(Text.hashToHex id.id).bytes ++ (Text.ofString ".bin").bytes⟩

/-- `NetworkRegistry`. -/
structure NetworkRegistry where
  networks : List Network
  nextNetworkCounter : UInt64
  deriving DecidableEq

namespace NetworkRegistry

/-- A registry as constructed. -/
def initial : NetworkRegistry := ⟨[], 0⟩

/-- The id `create_network` derives from the Thing and the counter. -/
def nextNetworkId (H : Bytes → Hash256) (r : NetworkRegistry) (thingHash : ContentHash) :
    NetworkID :=
  ⟨H (thingHash.hash.bytes ++ u64Bytes r.nextNetworkCounter)⟩

/-- `NetworkRegistry::create_network`. -/
def createNetwork (H : Bytes → Hash256) (r : NetworkRegistry) (thingHash : ContentHash)
    (ticks : UInt64) : NetworkRegistry where
  networks := r.networks ++ [Network.create (r.nextNetworkId H thingHash) thingHash ticks]
  nextNetworkCounter := r.nextNetworkCounter + 1

/-- `NetworkRegistry::add_network`. -/
def addNetwork (r : NetworkRegistry) (network : Network) : NetworkRegistry × Bool :=
  if r.networks.any (·.networkId = network.networkId) then (r, false)
  else ({ r with networks := r.networks ++ [network] }, true)

/-- `NetworkRegistry::remove_network`. -/
def removeNetwork (r : NetworkRegistry) (id : NetworkID) : NetworkRegistry × Bool :=
  if r.networks.all (·.networkId ≠ id) then (r, false)
  else ({ r with networks := r.networks.filter (·.networkId ≠ id) }, true)

/-- `NetworkRegistry::save_to_disk`: the directory afterwards. -/
def saveToDisk (r : NetworkRegistry) (directory : Directory) : Directory :=
  r.networks.foldl (fun d n => d.insert (networkFileName n.networkId) n.serialize) directory

/-- What `load_from_disk` makes of one file. -/
def readFile (file : Text × Bytes) : Option Network :=
  if !hasBinExtension file.1 then none
  else if file.2.isEmpty then none
  else (Network.deserialize file.2).toOption

/-- `NetworkRegistry::load_from_disk`. Without a directory nothing is loaded, and
the counter stays in any case. -/
def loadFromDisk (r : NetworkRegistry) (order : ListingOrder Text) (directory : Option Directory) :
    NetworkRegistry :=
  match directory with
  | none => r
  | some files => { r with networks := (order.visit files.entries).filterMap readFile }

end NetworkRegistry

/-! ## Runs -/

/-- A registry and the directories of the disk by name. -/
structure RegistrySystem where
  registry : NetworkRegistry
  disk : OrdMap Text Directory

/-- The calls on a registry; `restart` is a new process that loads the registry
from a directory. -/
inductive RegistryInput where
  | createNetwork (thingHash : ContentHash) (ticks : UInt64)
  | addNetwork (network : Network)
  | removeNetwork (id : NetworkID)
  | saveToDisk (directory : Text)
  | loadFromDisk (order : ListingOrder Text) (directory : Text)
  | restart (order : ListingOrder Text) (directory : Text)

namespace RegistrySystem

/-- Before the first start. -/
def initial : RegistrySystem := ⟨.initial, .empty⟩

/-- The state after one call. -/
def call (H : Bytes → Hash256) (s : RegistrySystem) : RegistryInput → RegistrySystem
  | .createNetwork thingHash ticks =>
    { s with registry := s.registry.createNetwork H thingHash ticks }
  | .addNetwork network => { s with registry := (s.registry.addNetwork network).1 }
  | .removeNetwork id => { s with registry := (s.registry.removeNetwork id).1 }
  | .saveToDisk directory =>
    { s with disk := s.disk.upsert directory OrdMap.empty s.registry.saveToDisk }
  | .loadFromDisk order directory =>
    { s with registry := s.registry.loadFromDisk order (s.disk.find? directory) }
  | .restart order directory =>
    { s with registry := NetworkRegistry.initial.loadFromDisk order (s.disk.find? directory) }

end RegistrySystem

/-- A registry and its disk driven by calls. -/
def registryMachine (H : Bytes → Hash256) : Machine RegistrySystem RegistryInput Unit where
  step s input := (s.call H input, [])

/-! ## Files -/

theorem networkFileName_injective : Function.Injective networkFileName := by
  rintro ⟨a⟩ ⟨b⟩ h
  have hbytes := congrArg Text.bytes h
  have hhex : (Text.hashToHex a).bytes = (Text.hashToHex b).bytes := List.append_cancel_right hbytes
  exact congrArg NetworkID.mk (Text.hashToHex_injective (congrArg Text.mk hhex))

theorem hasBinExtension_networkFileName (id : NetworkID) :
    hasBinExtension (networkFileName id) = true := by
  have hsuffix : (Text.ofString ".bin").bytes.isSuffixOf (networkFileName id).bytes = true :=
    List.isSuffixOf_iff_suffix.mpr (List.suffix_append _ _)
  have hlong : networkFileName id ≠ Text.ofString ".bin" := by
    intro h
    have hlen := congrArg (fun t : Text => t.bytes.length) h
    simp only [networkFileName, List.length_append, Nat.add_eq_right] at hlen
    have hhex : (Text.hashToHex id.id).bytes.length = 64 := by
      simp [Text.hashToHex, Text.hexDigits, List.length_flatMap, FixedBytes.size]
    omega
  unfold hasBinExtension
  rw [hsuffix, Bool.true_and]
  exact decide_eq_true hlong

namespace NetworkRegistry

theorem readFile_serialize (n : Network) (id : NetworkID) :
    readFile (networkFileName id, n.serialize) = (Network.deserialize n.serialize).toOption := by
  have hfull : n.serialize.isEmpty = false := rfl
  unfold readFile
  rw [hasBinExtension_networkFileName, hfull]
  rfl

/-- Every file of the directory is some network's, under the name of its id. -/
def FilesMatch (directory : Directory) : Prop :=
  ∀ name bytes, directory.find? name = some bytes →
    ∃ n : Network, name = networkFileName n.networkId ∧ bytes = n.serialize

theorem filesMatch_empty : FilesMatch OrdMap.empty := fun _ _ h => nomatch h

theorem FilesMatch.saveToDisk {directory : Directory} (h : FilesMatch directory)
    (r : NetworkRegistry) : FilesMatch (r.saveToDisk directory) := by
  intro name bytes hfind
  rcases OrdMap.find?_foldl_insert_cases hfind with ⟨n, _, hname, hbytes⟩ | hbefore
  · exact ⟨n, hname.symm, hbytes.symm⟩
  · exact h name bytes hbefore

/-- A file that is read is named after the id of what it is read as. -/
theorem FilesMatch.name_eq {directory : Directory} (h : FilesMatch directory)
    {file : Text × Bytes} (hfile : file ∈ directory.entries) {n : Network}
    (hread : readFile file = some n) : networkFileName n.networkId = file.1 := by
  obtain ⟨name, bytes⟩ := file
  obtain ⟨m, rfl, rfl⟩ := h name bytes (OrdMap.mem_entries.mp hfile)
  rw [readFile_serialize] at hread
  have hvalue := Outcome.toOption_eq_some_iff.mp hread
  rw [(Network.deserialize_serialize hvalue).1]

/-- What is loaded from such a directory has different ids. -/
theorem FilesMatch.loaded_nodup {directory : Directory} (h : FilesMatch directory)
    (order : ListingOrder Text) :
    (((order.visit directory.entries).filterMap readFile).map Network.networkId).Nodup := by
  have hsorted : ((directory.entries.filterMap readFile).map Network.networkId).Nodup := by
    have hnames := directory.keys_nodup
    have hmatch : ∀ file ∈ directory.entries, ∀ n, readFile file = some n →
        networkFileName n.networkId = file.1 := fun file hfile n hn => h.name_eq hfile hn
    revert hnames hmatch
    generalize directory.entries = files
    induction files with
    | nil => exact fun _ _ => List.nodup_nil
    | cons file rest ih =>
      intro hnames hmatch
      obtain ⟨hnew, hnames⟩ := List.nodup_cons.mp hnames
      obtain ⟨hfile, hmatch⟩ := List.forall_mem_cons.mp hmatch
      have hrest := ih hnames hmatch
      cases hread : readFile file with
      | none =>
        rw [List.filterMap_cons_none hread]
        exact hrest
      | some n =>
        rw [List.filterMap_cons_some hread, List.map_cons, List.nodup_cons]
        refine ⟨?_, hrest⟩
        intro hmem
        obtain ⟨n', hn', hid⟩ := List.mem_map.mp hmem
        obtain ⟨file', hfile', hread'⟩ := List.mem_filterMap.mp hn'
        refine hnew (List.mem_map.mpr ⟨file', hfile', ?_⟩)
        rw [← hmatch file' hfile' n' hread', ← hfile n hread, hid]
  exact (((order.perm _).filterMap readFile).map Network.networkId).nodup_iff.mpr hsorted

end NetworkRegistry

end Cashew
