import Cashew.Storage.Storage
import Cashew.Thing.Thing

/-!
# What the storage finds again

A key is rewritten into a file name, and two keys with one file name are one entry.
`metadata_map_iff`: on the keys of a set the storage is a map in every run exactly when
the rewriting is injective on the set and makes names that files can have.

`Thing::load` reads the two files of a hash and checks them against each other, not
against the hash it was asked for: `load_addressed_iff`.
-/

namespace Cashew.Theorems.MetadataStore

open Cashew Cashew.Lib Storage

variable {s : Storage} {key : Text}

/-- The value of the last `put_metadata` for a key since its last `delete_metadata`. -/
def latest (key : Text) (inputs : List MetadataInput) : Option Bytes :=
  inputs.foldl (fun value input =>
    match input with
    | .putMetadata k v => if k = key then some v else value
    | .getMetadata _ => value
    | .deleteMetadata k => if k = key then none else value) none

/-- The directory is there, and has for every key what was put last. -/
def Holds (K : Set Text) (inputs : List MetadataInput) (s : Storage) : Prop :=
  ∃ files, s.metadata = some files ∧
    ∀ key ∈ K, files.find? (metadataName key) = latest key inputs

/-! ## Steps -/

theorem latest_concat (key : Text) (inputs : List MetadataInput) (input : MetadataInput) :
    latest key (inputs ++ [input]) =
      match input with
      | .putMetadata k v => if k = key then some v else latest key inputs
      | .getMetadata _ => latest key inputs
      | .deleteMetadata k => if k = key then none else latest key inputs := by
  unfold latest
  rw [List.foldl_append]
  rfl

theorem ne_nil_of_isFileName (h : isFileName (metadataName key) = true) :
    metadataName key ≠ ⟨[]⟩ := (of_decide_eq_true h).1

theorem metadata_putMetadata {files : Files} (hfiles : s.metadata = some files)
    (hname : isFileName (metadataName key) = true) (value : Bytes) :
    (s.putMetadata key value).1.metadata = some (files.insert (metadataName key) value) := by
  unfold putMetadata
  rw [hfiles]
  dsimp only
  rw [if_pos hname]

/-- A file that is not there is as good as deleted. -/
theorem metadata_deleteMetadata {files : Files} (hfiles : s.metadata = some files)
    (hname : isFileName (metadataName key) = true) :
    (s.deleteMetadata key).1.metadata = some (files.erase (metadataName key)) := by
  unfold deleteMetadata
  rw [hfiles]
  dsimp only
  rw [if_neg (ne_nil_of_isFileName hname)]
  split
  · rfl
  · rename_i habsent
    have hnone : files.find? (metadataName key) = none := by
      rw [← OrdMap.contains_eq_false]
      exact Bool.eq_false_iff.mpr fun hin => habsent ⟨hname, hin⟩
    rw [hfiles]
    refine congrArg some (OrdMap.ext fun j => ?_)
    rw [OrdMap.find?_erase]
    split
    · rename_i hj
      rw [← hj, hnone]
    · rfl

/-- A call for a key of the set keeps the storage in step with the map. -/
theorem Holds.step {K : Set Text} (hinj : Set.InjOn metadataName K)
    (hnames : ∀ key ∈ K, isFileName (metadataName key) = true) {inputs : List MetadataInput}
    (h : Holds K inputs s) {input : MetadataInput} (hinput : input.key ∈ K) :
    Holds K (inputs ++ [input]) (metadataMachine.step s input).1 := by
  obtain ⟨files, hfiles, hhas⟩ := h
  cases input with
  | putMetadata k value =>
    refine ⟨_, metadata_putMetadata hfiles (hnames k hinput) value, fun key hkey => ?_⟩
    rw [OrdMap.find?_insert, latest_concat, hhas key hkey]
    exact if_congr (hinj.eq_iff hinput hkey) rfl rfl
  | getMetadata k =>
    refine ⟨files, hfiles, fun key hkey => ?_⟩
    rw [latest_concat]
    exact hhas key hkey
  | deleteMetadata k =>
    refine ⟨_, metadata_deleteMetadata hfiles (hnames k hinput), fun key hkey => ?_⟩
    rw [OrdMap.find?_erase, latest_concat, hhas key hkey]
    exact if_congr (hinj.eq_iff hinput hkey) rfl rfl

/-- So does every run on keys of the set. -/
theorem holds_run {K : Set Text} (hinj : Set.InjOn metadataName K)
    (hnames : ∀ key ∈ K, isFileName (metadataName key) = true) (inputs : List MetadataInput)
    (hinputs : ∀ input ∈ inputs, input.key ∈ K) :
    Holds K inputs (metadataMachine.run {} inputs).1 := by
  refine metadataMachine.run_past_invariant
    (J := fun past s => (∀ input ∈ past, input.key ∈ K) → Holds K past s)
    (fun _ => ⟨.empty, rfl, fun _ _ => rfl⟩) ?_ inputs hinputs
  intro past s input hpast hkeys
  refine (hpast fun i hi => hkeys i (List.mem_append_left _ hi)).step hinj hnames ?_
  exact hkeys input (List.mem_append_right _ (List.mem_singleton.mpr rfl))

/-! ## The main result -/

/-- What one `put_metadata` on an empty storage leaves for a key. -/
theorem getMetadata_put {k : Text} (value : Bytes) :
    (metadataMachine.run {} [.putMetadata k value]).1.getMetadata key =
      if isFileName (metadataName key) ∧ metadataName k = metadataName key then some value
      else none := by
  show (putMetadata {} k value).1.getMetadata key = _
  unfold putMetadata getMetadata
  dsimp only
  by_cases hname : isFileName (metadataName key) = true
  · by_cases hk : metadataName k = metadataName key
    · simp [hk, hname]
    · split
      · simp [hk, hname, OrdMap.find?_insert]
      · simp [hk, hname]
  · split <;> simp [hname]

/-- **Metadata as a map.** In every run on the keys of a set, `get_metadata` returns
for each of them what was put last and not deleted since, exactly when different keys
have different file names, and all have names that files can have. -/
theorem metadata_map_iff (K : Set Text) :
    (∀ inputs, (∀ input ∈ inputs, input.key ∈ K) → ∀ key ∈ K,
        (metadataMachine.run {} inputs).1.getMetadata key = latest key inputs) ↔
      Set.InjOn metadataName K ∧ ∀ key ∈ K, isFileName (metadataName key) = true := by
  constructor
  · intro h
    have hone : ∀ k ∈ K, ∀ input ∈ [MetadataInput.putMetadata k []], input.key ∈ K := by
      intro k hk input hinput
      rw [List.mem_singleton.mp hinput]
      exact hk
    have hnames : ∀ key ∈ K, isFileName (metadataName key) = true := by
      intro key hkey
      by_contra hname
      have hget := h _ (hone key hkey) key hkey
      rw [getMetadata_put, if_neg fun hboth => hname hboth.1] at hget
      simp [latest] at hget
    refine ⟨fun k hk key hkey heq => ?_, hnames⟩
    by_contra hne
    have hget := h _ (hone k hk) key hkey
    rw [getMetadata_put, if_pos ⟨hnames key hkey, heq⟩] at hget
    simp [latest, hne] at hget
  · rintro ⟨hinj, hnames⟩ inputs hinputs key hkey
    obtain ⟨files, hfiles, hhas⟩ := holds_run hinj hnames inputs hinputs
    unfold getMetadata
    rw [hfiles, Option.bind_some, if_pos (hnames key hkey)]
    exact hhas key hkey

/-- `a/b` and `a_b` are the same file: the second value overwrites the first. -/
theorem slash_and_underscore_collide :
    ¬ ∀ inputs key, (metadataMachine.run {} inputs).1.getMetadata key = latest key inputs := by
  intro h
  have hget := h [.putMetadata (Text.ofString "a/b") [1], .putMetadata (Text.ofString "a_b") [2]]
    (Text.ofString "a/b")
  revert hget
  decide

end Cashew.Theorems.MetadataStore

/-! ## Loading Things by their hash -/

namespace Cashew.Theorems.ThingStorage

open Cashew Cashew.Lib

variable {H : Bytes → Hash256} {s : Storage} {hash : ContentHash}

/-- The two files of the hash, as far as `load` can read them. -/
structure FilesOf (s : Storage) (hash : ContentHash) (data : Bytes) (metadata : ThingMetadata) :
    Prop where
  content : s.opened.getContent hash = some data
  metadata : ∃ bytes, s.opened.getMetadata (Thing.metadataKey hash) = some bytes ∧
    ThingMetadata.deserialize bytes = .value metadata

/-- A Thing is created from content and metadata that match. -/
theorem create_eq_some_iff {data : Bytes} {metadata : ThingMetadata} {t : Thing H} :
    Thing.create H data metadata = some t ↔ t.data = data ∧ t.metadata = metadata := by
  constructor
  · intro h
    unfold Thing.create at h
    split_ifs at h
    cases h
    exact ⟨rfl, rfl⟩
  · rintro ⟨rfl, rfl⟩
    unfold Thing.create
    rw [dif_neg (Nat.not_lt.mpr t.ok.size_le), dif_neg t.ok.nonempty,
      dif_neg (not_not.mpr t.ok.hash_eq), dif_neg (not_not.mpr t.ok.size_eq)]

/-- What `load` returns is made of the two files. -/
theorem load_eq_some_iff {t : Thing H} :
    Thing.load H s hash = some t ↔ FilesOf s hash t.data t.metadata := by
  unfold Thing.load
  simp only [Option.bind_eq_bind, Option.bind_eq_some_iff, create_eq_some_iff,
    Outcome.toOption_eq_some_iff]
  constructor
  · rintro ⟨data, hdata, bytes, hbytes, metadata, hmetadata, rfl, rfl⟩
    exact ⟨hdata, bytes, hbytes, hmetadata⟩
  · rintro ⟨hdata, bytes, hbytes, hmetadata⟩
    exact ⟨t.data, hdata, bytes, hbytes, t.metadata, hmetadata, rfl, rfl⟩

/-- **Loading by hash.** Whatever the storage holds, what is loaded for a hash has that
hash, exactly when two files of it that match each other always name it. -/
theorem load_addressed_iff (H : Bytes → Hash256) (s : Storage) (hash : ContentHash) :
    (∀ t : Thing H, Thing.load H s hash = some t → H t.data = hash.hash) ↔
      ∀ data metadata, FilesOf s hash data metadata → Thing.Matches H data metadata →
        metadata.contentHash = hash := by
  constructor
  · intro h data metadata hfiles hmatches
    have hloaded : Thing.load H s hash = some ⟨data, metadata, hmatches⟩ :=
      load_eq_some_iff.mpr hfiles
    rw [← hmatches.hash_eq]
    exact congrArg ContentHash.mk (h _ hloaded)
  · intro h t ht
    have hname := h t.data t.metadata (load_eq_some_iff.mp ht) t.ok
    rw [← hname, ← t.ok.hash_eq]

/-- The metadata of the one byte 7. -/
def sampleMetadata : ThingMetadata where
  contentHash := ⟨sampleHash [7]⟩
  name := Text.ofString "seven"
  description := Text.ofString ""
  type := .listed .document
  sizeBytes := 1
  createdTimestamp := 1200
  creatorId := sampleNode 1
  tags := []
  version := 1
  creatorSignature := FixedBytes.zero
  mimeType := Text.ofString "text/plain"
  entryPoint := Text.ofString ""

/-- Its two files under the zero hash. -/
def misplaced : Storage :=
  let hash : ContentHash := ⟨FixedBytes.zero⟩
  (((({} : Storage).putContent hash [7]).1).putMetadata (Thing.metadataKey hash)
    sampleMetadata.serialize).1

/-- They are loaded for the zero hash, which the byte does not have. -/
theorem misplaced_thing_loads :
    ¬ ∀ t : Thing sampleHash, Thing.load sampleHash misplaced ⟨FixedBytes.zero⟩ = some t →
      sampleHash t.data = FixedBytes.zero := by
  intro h
  have hloaded : (Thing.load sampleHash misplaced ⟨FixedBytes.zero⟩).isSome = true := by
    decide +kernel
  obtain ⟨t, ht⟩ := Option.isSome_iff_exists.mp hloaded
  exact sampleHash_ne_zero t.data (h t ht)

end Cashew.Theorems.ThingStorage
