import FerroProtocols.Oci.Registry

/-! The snapshot on disk. Each step of the file system may fail, as an argument decides. -/

namespace FerroProtocols.Oci

open BlobStore Std SparseMap

/-- A manifest in a snapshot: its media type, and its body in hex. -/
structure PersistedManifest where
  mediaType : String
  bodyHex : String
  deriving DecidableEq

/-- The durable parts of the state, as they are serialised. -/
structure MetadataSnapshot where
  manifests : ExtTreeMap String (ExtTreeMap String PersistedManifest)
  tags : ExtTreeMap String TagMap
  referrers : ExtTreeMap String SubjectMap

/-- The JSON library, known only by reading back what it has written. -/
structure Json where
  toVec : MetadataSnapshot → Except String Bytes
  fromSlice : Bytes → Except String MetadataSnapshot
  roundTrips : ∀ snapshot, ∃ bytes, toVec snapshot = .ok bytes ∧ fromSlice bytes = .ok snapshot

/-- The storage directory, and what the process uses to name temporary files in it. -/
structure Storage where
  files : ExtTreeMap String Bytes
  processId : Nat
  tmpCounter : UInt64

/-- How the steps of one write end; a step without an error succeeds. -/
structure Faults where
  create : Option IoError := none
  -- The number of bytes written before the error.
  write : Option (Nat × IoError) := none
  sync : Option IoError := none
  rename : Option IoError := none
  -- Removing the temporary file after another error; its own error is dropped.
  remove : Option IoError := none
  openParent : Option IoError := none
  syncParent : Option IoError := none

/-- The name of the snapshot. -/
def metadataFileName : String := "metadata.json"

/-- The name of a temporary file. -/
def tmpName (pid : Nat) (seq : UInt64) : String :=
  metadataFileName ++ "." ++ toString pid ++ "." ++ toString seq.toNat ++ ".tmp"

/-- A temporary file is not the snapshot. -/
theorem tmpName_ne (pid : Nat) (seq : UInt64) : tmpName pid seq ≠ metadataFileName := by
  intro same
  have lengths := congrArg String.length same
  have suffix : ".tmp".length = 4 := rfl
  simp only [tmpName, String.length_append] at lengths
  omega

namespace Storage

/-- The name of the next temporary file. -/
def nextTmp (storage : Storage) : String := tmpName storage.processId storage.tmpCounter

/-- Remove a temporary file, if that works. -/
def cleanUp (storage : Storage) (faults : Faults) (tmp : String) : Storage :=
  match faults.remove with
  | none => { storage with files := storage.files.erase tmp }
  | some _ => storage

/-- Replace the snapshot by a temporary file, and make that durable. -/
def publish (storage : Storage) (faults : Faults) (tmp : String) (bytes : Bytes) :
    Except IoError Unit × Storage :=
  match faults.rename with
  | some error => (.error error, storage.cleanUp faults tmp)
  | none =>
    let renamed := { storage with
      files := (storage.files.erase tmp).insert metadataFileName bytes }
    -- From here on the new snapshot is in place, and an error does not take it back.
    match faults.openParent with
    | some error => (.error error, renamed)
    | none =>
      match faults.syncParent with
      | some error => (.error error, renamed)
      | none => (.ok (), renamed)

/-- Write a snapshot to a temporary file and move it over the one before. -/
def writeSnapshotAtomic (json : Json) (storage : Storage) (faults : Faults)
    (snapshot : MetadataSnapshot) : Except IoError Unit × Storage :=
  match json.toVec snapshot with
  | .error message => (.error ⟨.invalidData, message⟩, storage)
  | .ok bytes =>
    -- The directory is known, as the path was built by joining it with the file name.
    let tmp := storage.nextTmp
    let counted := { storage with tmpCounter := storage.tmpCounter + 1 }
    match faults.create with
    | some error => (.error error, counted)
    | none =>
      -- The file must not exist yet.
      if storage.files.contains tmp then (.error ⟨.alreadyExists, "File exists"⟩, counted)
      else
        match faults.write with
        | some (count, error) =>
          (.error error,
            cleanUp { counted with files := storage.files.insert tmp (bytes.take count) } faults tmp)
        | none =>
          let written := { counted with files := storage.files.insert tmp bytes }
          match faults.sync with
          | some error => (.error error, written.cleanUp faults tmp)
          | none => written.publish faults tmp bytes

end Storage

namespace InMemoryState

/-- The part of a state that a restart keeps. -/
def durable (state : InMemoryState) : InMemoryState := { state with uploads := ∅ }

/-- A manifest as it is serialised. -/
def persisted (manifest : String × Bytes) : PersistedManifest :=
  ⟨manifest.1, String.ofList (Hex.encode manifest.2)⟩

/-- The snapshot of a state. -/
def snapshot (state : InMemoryState) : MetadataSnapshot where
  manifests := state.manifests.map fun _ byDigest => byDigest.map fun _ manifest => persisted manifest
  tags := state.tags
  referrers := state.referrers

/-- Write the snapshot of a state when persistence is enabled. -/
def persistLocked (json : Json) (enabled : Bool) (faults : Faults) : Persist Storage :=
  fun state storage =>
    if enabled then storage.writeSnapshotAtomic json faults state.snapshot
    else (.ok (), storage)

/-- A manifest of a snapshot under its key; none when the entry is corrupt. -/
def loadManifest (sha : Sha256) (digestStr : String) (manifest : PersistedManifest) :
    Option (String × Bytes) :=
  match Hex.decode manifest.bodyHex.toList with
  | none => none
  | some bytes =>
    match Digest.parse digestStr with
    | .error _ => none
    | .ok keyDigest =>
      if keyDigest.algo ≠ .sha256 then none
      -- The key must be the digest of the bytes it is served with.
      else if (Digest.sha256Of sha bytes).hex ≠ keyDigest.hex then none
      else some (manifest.mediaType, bytes)

/-- The state of a snapshot, without its corrupt manifests. -/
def ofSnapshot (sha : Sha256) (snapshot : MetadataSnapshot) : InMemoryState where
  manifests := snapshot.manifests.map fun _ byDigest => byDigest.filterMap (loadManifest sha)
  tags := snapshot.tags
  referrers := snapshot.referrers

/-- Load the snapshot from what reading its file gives; a missing file is no snapshot. -/
def loadSnapshot (json : Json) (sha : Sha256) (read : Except IoError Bytes) :
    Except IoError (Option InMemoryState) :=
  match read with
  | .error error => if error.kind = .notFound then .ok none else .error error
  | .ok raw =>
    match json.fromSlice raw with
    | .error message => .error ⟨.invalidData, message⟩
    | .ok snapshot => .ok (some (ofSnapshot sha snapshot))

end InMemoryState

/-- The state a process starts with: the one it can load, or an empty one. -/
def InMemoryState.withPersistence (json : Json) (sha : Sha256) (read : Except IoError Bytes) :
    InMemoryState :=
  match loadSnapshot json sha read with
  | .ok (some state) => state
  | .ok none => {}
  | .error _ => {}

/-- Read the snapshot file. -/
def Storage.readSnapshot (storage : Storage) : Except IoError Bytes :=
  match storage.files[metadataFileName]? with
  | none => .error ⟨.notFound, "No such file or directory"⟩
  | some raw => .ok raw

/-- Some step up to the rename fails. -/
def Faults.early (faults : Faults) : Bool :=
  faults.create.isSome || faults.write.isSome || faults.sync.isSome || faults.rename.isSome

namespace Storage

/-- How writing a snapshot can end, by what becomes of the file. -/
inductive Written (json : Json) (storage : Storage) (faults : Faults)
    (snapshot : MetadataSnapshot) : Except IoError Unit × Storage → Prop where
  -- The snapshot before is still there, and the write has failed.
  | kept {error : IoError} {after : Storage}
      (same : after.files[metadataFileName]? = storage.files[metadataFileName]?)
      (early : faults.early = true ∨ storage.nextTmp ∈ storage.files) :
      Written json storage faults snapshot (.error error, after)
  -- The new snapshot is there; the write may still be reported as failed.
  | replaced {result : Except IoError Unit} {after : Storage} {bytes : Bytes}
      (encoded : json.toVec snapshot = .ok bytes)
      (file : after.files[metadataFileName]? = some bytes) (late : faults.early = false)
      (reported : result = .ok () ∧ faults.openParent = none ∧ faults.syncParent = none ∨
        (∃ error, result = .error error) ∧
          (faults.openParent.isSome ∨ faults.syncParent.isSome)) :
      Written json storage faults snapshot (result, after)

private theorem cleanUp_snapshot (storage : Storage) (faults : Faults) (pid : Nat) (seq : UInt64) :
    (storage.cleanUp faults (tmpName pid seq)).files[metadataFileName]? = storage.files[metadataFileName]? := by
  unfold cleanUp
  split
  · simp [ExtTreeMap.getElem?_erase, tmpName_ne]
  · rfl

/-- Every write ends in one of these ways. -/
theorem written (json : Json) (storage : Storage) (faults : Faults) (snapshot : MetadataSnapshot) :
    Written json storage faults snapshot (storage.writeSnapshotAtomic json faults snapshot) := by
  obtain ⟨bytes, encoded, _⟩ := json.roundTrips snapshot
  -- Writing the temporary file leaves the snapshot alone.
  have aside (content : Bytes) : (storage.files.insert storage.nextTmp content)[metadataFileName]? =
      storage.files[metadataFileName]? := by
    simp [ExtTreeMap.getElem?_insert, nextTmp, tmpName_ne]
  unfold writeSnapshotAtomic
  rw [encoded]
  dsimp only
  -- The steps fail one by one; only the last two come after the rename.
  cases create : faults.create with
  | some error => exact .kept rfl (.inl (by simp [Faults.early, create]))
  | none =>
    dsimp only
    split
    · rename_i exists_
      exact .kept rfl (.inr (by simpa using exists_))
    · cases write : faults.write with
      | some failure =>
        apply Written.kept
        · exact (cleanUp_snapshot _ _ _ _).trans (aside _)
        · exact .inl (by simp [Faults.early, write])
      | none =>
        cases sync : faults.sync with
        | some error =>
          apply Written.kept
          · exact (cleanUp_snapshot _ _ _ _).trans (aside _)
          · exact .inl (by simp [Faults.early, sync])
        | none =>
          unfold publish
          cases rename : faults.rename with
          | some error =>
            apply Written.kept
            · exact (cleanUp_snapshot _ _ _ _).trans (aside _)
            · exact .inl (by simp [Faults.early, rename])
          | none =>
            have late : faults.early = false := by simp [Faults.early, create, write, sync, rename]
            dsimp only
            cases opened : faults.openParent with
            | some error => exact .replaced encoded (by simp) late (.inr ⟨⟨error, rfl⟩, .inl (by simp [opened])⟩)
            | none =>
              cases synced : faults.syncParent with
              | some error =>
                exact .replaced encoded (by simp) late
                  (.inr ⟨⟨error, rfl⟩, .inr (by simp [synced])⟩)
              | none => exact .replaced encoded (by simp) late (.inl ⟨rfl, opened, synced⟩)

end Storage

namespace InMemoryState

/-- Every manifest is stored under the digest of its body. -/
def Addressed (sha : Sha256) (state : InMemoryState) : Prop :=
  ∀ name digestStr manifest, (valueAt state.manifests name)[digestStr]? = some manifest →
    digestStr = (Digest.sha256Of sha manifest.2).toString

/-- A manifest under the digest of its body is loaded as it was written. -/
theorem loadManifest_persisted (sha : Sha256) (manifest : String × Bytes) :
    loadManifest sha (Digest.sha256Of sha manifest.2).toString (persisted manifest) = some manifest := by
  simp only [loadManifest, persisted, String.toList_ofList, Hex.decode_encode, Digest.parse_toString]
  simp [Digest.sha256Of, Digest.ofHash]

/-- Loading the snapshot of a state gives its durable part. -/
theorem ofSnapshot_snapshot {sha : Sha256} {state : InMemoryState} (addressed : state.Addressed sha) :
    ofSnapshot sha state.snapshot = state.durable := by
  have manifests : (state.snapshot.manifests.map fun _ byDigest =>
      byDigest.filterMap (loadManifest sha)) = state.manifests := by
    apply ExtTreeMap.ext_getElem?
    intro name
    simp only [snapshot, ExtTreeMap.getElem?_map, Option.map_map]
    cases stored : state.manifests[name]? with
    | none => rfl
    | some byDigest =>
      rw [Option.map_some]
      congr 1
      apply ExtTreeMap.ext_getElem?
      intro digestStr
      simp only [Function.comp_apply, ExtTreeMap.getElem?_filterMap', ExtTreeMap.getElem?_map]
      cases found : byDigest[digestStr]? with
      | none => rfl
      | some manifest =>
        -- No entry is dropped, as its key is the digest of its body.
        have key : digestStr = (Digest.sha256Of sha manifest.2).toString :=
          addressed name digestStr manifest (by simp [valueAt, stored, found])
        rw [Option.map_some, Option.bind_some, key, loadManifest_persisted]
  simp only [ofSnapshot, manifests]
  rfl

end InMemoryState

end FerroProtocols.Oci
