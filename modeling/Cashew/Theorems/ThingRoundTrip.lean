import Cashew.Theorems.MetadataStore

/-!
# Things that are saved and loaded

The metadata comes back from its layout when its strings and the list of its tags fit the
32 bits of their lengths (`decodes_serialize`). Saving a Thing writes the two files of its
hash and no others (`filesOf_save`), so a hash loads the Thing that was saved last under it.
-/

namespace Cashew.Theorems.ThingRoundTrip

open Cashew Cashew.Lib ThingMetadata Storage ThingStorage

variable {H : Bytes → Hash256}

/-! ## The layout of the metadata -/

/-- The string fits the length in front of it. -/
def Short (s : Text) : Prop := s.bytes.length < 2 ^ 32

/-- The lengths of the metadata fit their fields. -/
structure Fits (m : ThingMetadata) : Prop where
  name : Short m.name
  description : Short m.description
  tags : ∀ tag ∈ m.tags, Short tag
  tagCount : m.tags.length < 2 ^ 32
  mimeType : Short m.mimeType
  entryPoint : Short m.entryPoint

theorem readString_decodes {s : Text} (h : Short s) : Decodes readString (writeString s) s := by
  have hn : (UInt32.ofNat s.bytes.length).toNat = s.bytes.length := UInt32.toNat_ofNat_of_lt' h
  unfold readString writeString
  refine (Checked.count_decodes h).bind ?_
  rw [hn]
  refine Decodes.require_bind le_rfl ?_
  exact (Decodes.take rfl).bind_pure (f := Text.mk)

theorem decodes_serialize {m : ThingMetadata} (h : Fits m) :
    Decodes ThingMetadata.decoder m.serialize m := by
  have hn : (UInt32.ofNat m.tags.length).toNat = m.tags.length :=
    UInt32.toNat_ofNat_of_lt' h.tagCount
  unfold ThingMetadata.decoder serialize
  refine (Checked.fixed_decodes _).bind ?_
  refine (readString_decodes h.name).bind ?_
  refine (readString_decodes h.description).bind ?_
  refine (Checked.byte_decodes _).bind ?_
  refine (Checked.u64_decodes _).bind ?_
  refine (Checked.u64_decodes _).bind ?_
  refine (Checked.fixed_decodes _).bind ?_
  refine (Checked.count_decodes h.tagCount).bind ?_
  rw [hn]
  refine (Decodes.replicate fun tag htag => readString_decodes (h.tags tag htag)).bind ?_
  refine (Checked.u32_decodes _).bind ?_
  refine (Checked.fixed_decodes _).bind ?_
  refine (readString_decodes h.mimeType).bind ?_
  rw [Wire.ofByte_toByte]
  exact (readString_decodes h.entryPoint).bind_pure
    (f := fun entryPoint => { m with entryPoint })

/-! ## The files of a hash -/

/-- A byte that a file name keeps. -/
def Plain (b : UInt8) : Prop := escape b = b ∧ (b != 0) = true

theorem plain_hexDigit : ∀ n < 16, Plain (Text.hexDigit n) := by
  unfold Plain
  decide

theorem plain_of_mem_hexDigits {data : Bytes} {b : UInt8} (h : b ∈ Text.hexDigits data) :
    Plain b := by
  obtain ⟨x, -, hx⟩ := List.mem_flatMap.mp h
  have hlt := x.toNat_lt
  rcases List.mem_pair.mp hx with rfl | rfl
  · exact plain_hexDigit _ (by omega)
  · exact plain_hexDigit _ (by omega)

theorem length_hexDigits (data : Bytes) : (Text.hexDigits data).length = 2 * data.length := by
  induction data with
  | nil => rfl
  | cons x rest ih =>
    show (Text.hexDigits rest).length + 2 = 2 * (rest.length + 1)
    omega

theorem length_metadataKey (hash : ContentHash) : (Thing.metadataKey hash).bytes.length = 75 := by
  show ((Text.ofString "thing_meta_").bytes ++ Text.hexDigits hash.hash.bytes).length = 75
  rw [List.length_append, length_hexDigits, hash.hash.size]
  rfl

theorem plain_of_mem_metadataKey {hash : ContentHash} {b : UInt8}
    (h : b ∈ (Thing.metadataKey hash).bytes) : Plain b := by
  have hprefix : ∀ b ∈ (Text.ofString "thing_meta_").bytes, Plain b := by
    unfold Plain
    decide +kernel
  rcases List.mem_append.mp h with hb | hb
  · exact hprefix b hb
  · exact plain_of_mem_hexDigits hb

/-- The metadata file is named as its key. -/
theorem metadataName_metadataKey (hash : ContentHash) :
    metadataName (Thing.metadataKey hash) = Thing.metadataKey hash := by
  have hescape : (Thing.metadataKey hash).bytes.map escape = (Thing.metadataKey hash).bytes :=
    (List.map_congr_left fun b hb => (plain_of_mem_metadataKey hb).1).trans (List.map_id _)
  unfold metadataName
  rw [hescape, List.takeWhile_eq_self_iff.mpr fun b hb => (plain_of_mem_metadataKey hb).2]

theorem metadataKey_injective : Function.Injective Thing.metadataKey := by
  intro a b h
  have hnames := List.append_cancel_left (congrArg Text.bytes h)
  exact ContentHash.hash_injective (Text.hashToHex_injective (congrArg Text.mk hnames))

theorem isFileName_metadataKey (hash : ContentHash) :
    isFileName (Thing.metadataKey hash) = true := by
  have hlength := length_metadataKey hash
  have hne : ∀ name : Text, name.bytes.length < 75 → Thing.metadataKey hash ≠ name := by
    rintro name hshort rfl
    omega
  exact decide_eq_true ⟨hne _ (by decide), hne _ (by decide), hne _ (by decide), by omega⟩

theorem contentName_injective : Function.Injective contentName :=
  Text.hashToHex_injective.comp ContentHash.hash_injective

theorem getContent_putContent (s : Storage) (hash other : ContentHash) (data : Bytes) :
    (s.putContent hash data).1.getContent other =
      if hash = other then some data else s.getContent other := by
  unfold putContent getContent
  dsimp only
  rw [OrdMap.find?_upsert]
  by_cases hsame : hash = other
  · subst hsame
    rw [if_pos rfl, if_pos rfl]
    exact OrdMap.find?_insert_self _ _ _
  · have hname : contentName hash ≠ contentName other := contentName_injective.ne hsame
    rw [if_neg hsame]
    split
    · rename_i hsubdir
      rw [Option.bind_some, OrdMap.find?_insert, if_neg hname, hsubdir]
      cases s.content.find? (contentSubdir other) <;> rfl
    · rfl

theorem putMetadata_metadataKey (s : Storage) (hash : ContentHash) (value : Bytes) :
    s.opened.putMetadata (Thing.metadataKey hash) value =
      ({ s.opened with
          metadata := some ((s.metadata.getD .empty).insert (Thing.metadataKey hash) value) },
        true) := by
  unfold putMetadata opened
  dsimp only
  rw [metadataName_metadataKey, if_pos (isFileName_metadataKey hash)]

theorem getMetadata_metadataKey (s : Storage) (hash : ContentHash) :
    s.opened.getMetadata (Thing.metadataKey hash) =
      (s.metadata.getD .empty).find? (Thing.metadataKey hash) := by
  unfold getMetadata opened
  dsimp only
  rw [Option.bind_some, metadataName_metadataKey, if_pos (isFileName_metadataKey hash)]

/-! ## Saving -/

/-- Saving writes the two files of the Thing's hash. -/
theorem save_eq (t : Thing H) (s : Storage) :
    t.save s =
      ({ (s.putContent t.metadata.contentHash t.data).1 with
          metadata := some ((s.metadata.getD .empty).insert
            (Thing.metadataKey t.metadata.contentHash) t.metadata.serialize) },
        true) :=
  putMetadata_metadataKey (s.opened.putContent t.metadata.contentHash t.data).1 _ _

/-- The files of a hash after a Thing is saved: its own under its hash. -/
theorem filesOf_save {t : Thing H} (hfits : Fits t.metadata) {s : Storage} {hash : ContentHash}
    {data : Bytes} {metadata : ThingMetadata} :
    FilesOf (t.save s).1 hash data metadata ↔
      if t.metadata.contentHash = hash then data = t.data ∧ metadata = t.metadata
      else FilesOf s hash data metadata := by
  -- both stores write over the entry of this hash alone
  have hcontent : (t.save s).1.opened.getContent hash =
      if t.metadata.contentHash = hash then some t.data else s.opened.getContent hash := by
    rw [save_eq]
    exact getContent_putContent s t.metadata.contentHash hash t.data
  have hmetadata : (t.save s).1.opened.getMetadata (Thing.metadataKey hash) =
      if t.metadata.contentHash = hash then some t.metadata.serialize
      else s.opened.getMetadata (Thing.metadataKey hash) := by
    rw [save_eq, getMetadata_metadataKey, getMetadata_metadataKey]
    dsimp only [Option.getD_some]
    rw [OrdMap.find?_insert]
    exact if_congr metadataKey_injective.eq_iff rfl rfl
  have hread : deserialize t.metadata.serialize = .value t.metadata :=
    (decodes_serialize hfits).run
  constructor
  · rintro ⟨hdata, bytes, hbytes, hvalue⟩
    rw [hcontent] at hdata
    rw [hmetadata] at hbytes
    split at hdata <;> rename_i hsame
    · rw [if_pos hsame] at hbytes ⊢
      cases hdata
      cases hbytes
      rw [hread] at hvalue
      cases hvalue
      exact ⟨rfl, rfl⟩
    · rw [if_neg hsame] at hbytes ⊢
      exact ⟨hdata, bytes, hbytes, hvalue⟩
  · intro h
    split at h <;> rename_i hsame
    · obtain ⟨rfl, rfl⟩ := h
      exact ⟨by rw [hcontent, if_pos hsame], _, by rw [hmetadata, if_pos hsame], hread⟩
    · obtain ⟨hdata, bytes, hbytes, hvalue⟩ := h
      exact ⟨by rw [hcontent, if_neg hsame, hdata], bytes,
        by rw [hmetadata, if_neg hsame, hbytes], hvalue⟩

/-- Things are equal when their data and metadata are. -/
theorem thing_ext {t u : Thing H} (hdata : t.data = u.data) (hmetadata : t.metadata = u.metadata) :
    t = u := by
  cases t
  cases u
  cases hdata
  cases hmetadata
  rfl

theorem load_save {t : Thing H} (hfits : Fits t.metadata) (s : Storage) (hash : ContentHash) :
    Thing.load H (t.save s).1 hash =
      if t.metadata.contentHash = hash then some t else Thing.load H s hash := by
  refine Option.ext fun loaded => ?_
  rw [load_eq_some_iff, filesOf_save hfits]
  split
  · constructor
    · rintro ⟨hdata, hmetadata⟩
      rw [thing_ext hdata hmetadata]
    · rintro ⟨rfl⟩
      exact ⟨rfl, rfl⟩
  · exact load_eq_some_iff.symm

/-! ## Many Things -/

/-- The storage after these Things are saved. -/
def saveAll (s : Storage) (things : List (Thing H)) : Storage :=
  things.foldl (fun s t => (t.save s).1) s

/-- The Thing that was saved last under the hash. -/
def lastSaved (hash : ContentHash) (things : List (Thing H)) : Option (Thing H) :=
  things.reverse.find? fun t => t.metadata.contentHash = hash

theorem load_saveAll (s : Storage) {things : List (Thing H)}
    (hfits : ∀ t ∈ things, Fits t.metadata) (hash : ContentHash) :
    Thing.load H (saveAll s things) hash = (lastSaved hash things).or (Thing.load H s hash) := by
  induction things using List.reverseRecOn with
  | nil => rfl
  | append_singleton past t ih =>
    have hpast := ih fun u hu => hfits u (List.mem_append_left _ hu)
    unfold saveAll at hpast ⊢
    unfold lastSaved at hpast ⊢
    rw [List.foldl_concat, load_save (hfits t (List.mem_append_right _ List.mem_cons_self)), hpast,
      List.reverse_concat, List.find?_cons]
    by_cases hsame : t.metadata.contentHash = hash
    · rw [if_pos hsame, decide_eq_true hsame]
      rfl
    · rw [if_neg hsame, decide_eq_false hsame]

theorem contentHash_of_lastSaved {hash : ContentHash} {things : List (Thing H)} {t : Thing H}
    (h : lastSaved hash things = some t) : t.metadata.contentHash = hash :=
  of_decide_eq_true
    (List.find?_some (p := fun u : Thing H => decide (u.metadata.contentHash = hash)) h)

/-- **Round trips of Things.** Metadata whose lengths fit their fields is read back as it
was written. After Things with such metadata are saved, on whatever storage, a hash under
which some were saved loads the last of them, whose data has that hash and the size that
is written down. -/
theorem things_round_trip (H : Bytes → Hash256) :
    (∀ m : ThingMetadata, Fits m → deserialize m.serialize = .value m) ∧
      ∀ (s : Storage) (things : List (Thing H)), (∀ t ∈ things, Fits t.metadata) →
        ∀ hash, Thing.load H (saveAll s things) hash =
            (lastSaved hash things).or (Thing.load H s hash) ∧
          ∀ t, lastSaved hash things = some t →
            Thing.load H (saveAll s things) hash = some t ∧ H t.data = hash.hash ∧
              t.metadata.sizeBytes.toNat = t.data.length := by
  refine ⟨fun m hm => (decodes_serialize hm).run, ?_⟩
  intro s things hfits hash
  have hload := load_saveAll s hfits hash
  refine ⟨hload, fun t ht => ⟨?_, ?_, t.ok.size_eq.symm⟩⟩
  · rw [hload, ht]
    rfl
  · rw [← contentHash_of_lastSaved ht, ← t.ok.hash_eq]

/-- The byte 7 as a Thing. -/
def sampleThing : Thing sampleHash where
  data := [7]
  metadata := sampleMetadata
  ok := ⟨by decide, by decide, rfl, rfl⟩

/-- Saved twice on an empty storage, it is loaded. -/
theorem sampleThing_loaded :
    Thing.load sampleHash (saveAll {} [sampleThing, sampleThing]) sampleMetadata.contentHash =
      some sampleThing := by
  have hfits : ∀ t ∈ [sampleThing, sampleThing], Fits t.metadata := by
    intro t ht
    obtain rfl : t = sampleThing := by simpa using ht
    exact ⟨by unfold Short; decide, by unfold Short; decide, (fun _ h => nomatch h), by decide,
      by unfold Short; decide, by unfold Short; decide⟩
  refine (((things_round_trip sampleHash).2 {} _ hfits sampleMetadata.contentHash).2 _ ?_).1
  exact List.find?_cons_of_pos (decide_eq_true rfl)

end Cashew.Theorems.ThingRoundTrip
