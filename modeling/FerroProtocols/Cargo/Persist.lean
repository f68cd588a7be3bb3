import FerroProtocols.Cargo.Runs

/-! The snapshot of the index on disk. Every step of the file system may fail, as an argument decides. -/

namespace FerroProtocols.Cargo

open BlobStore Std

/-- A crate in a snapshot, without the digests of its tarballs. -/
structure PersistedRecord where
  entries : List IndexEntry
  owners : List Owner

/-- The crates as they are serialised. -/
structure Snapshot where
  crates : ExtTreeMap String PersistedRecord

/-- The JSON library, known only by reading back what it has written. -/
structure SnapshotJson where
  toVecPretty : Snapshot → Except String Bytes
  fromSlice : Bytes → Except String Snapshot
  roundTrips : ∀ snapshot, ∃ bytes, toVecPretty snapshot = .ok bytes ∧ fromSlice bytes = .ok snapshot

/-- The name of the snapshot. -/
def stateFile : String := "index-state.json"

/-- The data directory, and what the process uses to name temporary files in it. -/
structure DataDir where
  files : ExtTreeMap String Bytes
  processId : Nat
  saveSeq : UInt64

/-- How the steps of one write end; a step without an error succeeds. -/
structure SaveFaults where
  -- Creating the temporary file with some number.
  create : UInt64 → Option IoError := fun _ => none
  -- The number of bytes written before the error.
  write : Option (Nat × IoError) := none
  sync : Option IoError := none
  rename : Option IoError := none
  -- Removing the temporary file after another error; its own error is dropped.
  remove : Option IoError := none
  openDir : Option IoError := none
  syncDir : Option IoError := none

/-- The name of a temporary file. -/
def tmpName (pid : Nat) (seq : UInt64) : String :=
  stateFile ++ ".tmp." ++ toString pid ++ "." ++ toString seq.toNat

/-- A temporary file is not the snapshot. -/
theorem tmpName_ne (pid : Nat) (seq : UInt64) : tmpName pid seq ≠ stateFile := by
  intro same
  have lengths := congrArg String.length same
  have mark : ".tmp.".length = 5 := rfl
  simp only [tmpName, String.length_append] at lengths
  omega

/-- Make a rename durable; that a directory cannot be synced at all is tolerated. -/
def SaveFaults.syncParentDir (faults : SaveFaults) : Except IoError Unit :=
  match faults.openDir with
  | some error => .error error
  | none =>
    match faults.syncDir with
    | none => .ok ()
    | some error => if error.kind = .invalidInput then .ok () else .error error

namespace DataDir

variable (dir : DataDir) (faults : SaveFaults)

/-- Remove a temporary file, if that works. -/
def cleanUp (tmp : String) : DataDir :=
  match faults.remove with
  | none => { dir with files := dir.files.erase tmp }
  | some _ => dir

/-- Write a temporary file that was created and move it over the snapshot. -/
def replace (tmp : String) (bytes : Bytes) : Except IoError Unit × DataDir :=
  match faults.write with
  | some (count, error) =>
    (.error error, cleanUp { dir with files := dir.files.insert tmp (bytes.take count) } faults tmp)
  | none =>
    let written := { dir with files := dir.files.insert tmp bytes }
    match faults.sync with
    | some error => (.error error, written.cleanUp faults tmp)
    | none =>
      match faults.rename with
      | some error => (.error error, written.cleanUp faults tmp)
      | none =>
        -- From here on the new snapshot is in place, and an error does not take it back.
        let renamed := { dir with files := (written.files.erase tmp).insert stateFile bytes }
        match faults.syncParentDir with
        | .error error => (.error error, renamed.cleanUp faults tmp)
        | .ok () => (.ok (), renamed)

/-- Create a temporary file, which must not exist. -/
def createNew : Except IoError Unit :=
  match faults.create dir.saveSeq with
  | some error => .error error
  | none =>
    if dir.files.contains (tmpName dir.processId dir.saveSeq) then .error ⟨.alreadyExists, "File exists"⟩
    else .ok ()

/-- Try one temporary file after the other. -/
def attempts (faults : SaveFaults) (bytes : Bytes) :
    Nat → Option IoError → DataDir → Except IoError Unit × DataDir
  | 0, lastErr, dir =>
    (.error (lastErr.getD ⟨.alreadyExists, "could not allocate a unique snapshot temp file"⟩), dir)
  | left + 1, _, dir =>
    let tmp := tmpName dir.processId dir.saveSeq
    let counted := { dir with saveSeq := dir.saveSeq + 1 }
    match dir.createNew faults with
    | .ok () => counted.replace faults tmp bytes
    | .error error =>
      -- The name is taken.
      if error.kind = .alreadyExists then attempts faults bytes left (some error) counted
      else (.error error, counted)

/-- Replace the snapshot atomically, with as many names as there are tries. -/
def writeAtomicDurable (bytes : Bytes) : Except IoError Unit × DataDir := attempts faults bytes 16 none dir

/-- Read the snapshot file. -/
def readState : Except IoError Bytes :=
  match dir.files[stateFile]? with
  | none => .error ⟨.notFound, "No such file or directory"⟩
  | some bytes => .ok bytes

end DataDir

namespace CrateMap

variable (json : SnapshotJson) (crates : CrateMap)

/-- The snapshot of the crates. -/
def snapshot : Snapshot where
  crates := crates.map fun _ record => ⟨record.entries, record.owners⟩

/-- Write the crates to the data directory. -/
def save (dir : DataDir) (faults : SaveFaults) : Except IoError Unit × DataDir :=
  match json.toVecPretty crates.snapshot with
  | .error message => (.error ⟨.invalidData, message⟩, dir)
  | .ok bytes => dir.writeAtomicDurable faults bytes

end CrateMap

/-- Write the crates when persistence is enabled. -/
def persistLocked (json : SnapshotJson) (enabled : Bool) (faults : SaveFaults) : Persist DataDir :=
  fun crates dir => if enabled then crates.save json dir faults else (.ok (), dir)

/-- What is logged while a snapshot is loaded, and is no mere information. -/
inductive LoadWarning where
  | unreadable (error : IoError)
  | corruptSnapshot (message : String)
  | corruptVersion (key vers : String) (error : DigestParseError)
  | corruptCrate (key : String)

/-- What has been collected of the entries of a crate. -/
structure LoadedEntries where
  tarballs : ExtTreeMap String Digest := ∅
  entries : List IndexEntry := []
  warnings : List LoadWarning := []

/-- Collect one entry, or drop it when its checksum is none. -/
def loadEntry (key : String) (loaded : LoadedEntries) (entry : IndexEntry) : LoadedEntries :=
  match Digest.new .sha256 entry.cksum with
  | .ok digest =>
    { loaded with
      tarballs := loaded.tarballs.insert entry.vers digest
      entries := loaded.entries ++ [entry] }
  | .error error => { loaded with warnings := loaded.warnings ++ [.corruptVersion key entry.vers error] }

/-- The record of a crate; none when all its versions were dropped. -/
def loadRecord (key : String) (persisted : PersistedRecord) : Option CrateRecord × List LoadWarning :=
  let loaded := persisted.entries.foldl (loadEntry key) {}
  if loaded.entries.isEmpty then (none, loaded.warnings ++ [.corruptCrate key])
  else (some ⟨loaded.entries, loaded.tarballs, persisted.owners⟩, loaded.warnings)

/-- The crates of a snapshot. -/
def loadCrates (snapshot : Snapshot) : CrateMap × List LoadWarning :=
  (snapshot.crates.filterMap fun key persisted => (loadRecord key persisted).1,
    snapshot.crates.toList.flatMap fun (key, persisted) => (loadRecord key persisted).2)

/-- The crates in what reading the snapshot file gives; without a good snapshot there are none. -/
def load (json : SnapshotJson) (read : Except IoError Bytes) : CrateMap × List LoadWarning :=
  match read with
  | .error error => (∅, if error.kind = .notFound then [] else [.unreadable error])
  | .ok bytes =>
    match json.fromSlice bytes with
    | .error message => (∅, [.corruptSnapshot message])
    | .ok snapshot => loadCrates snapshot

section RoundTrip

variable {digits : DigitTable} {key : String} {record : CrateRecord} {crates : CrateMap}

private theorem foldl_loadEntry {tarballs : ExtTreeMap String Digest} {entries : List IndexEntry}
    (mapped : ∀ entry ∈ entries, ∃ digest, tarballs[entry.vers]? = some digest ∧
      Digest.new .sha256 entry.cksum = .ok digest)
    {loaded : LoadedEntries} (within : ∀ (vers : String) (digest : Digest),
      loaded.tarballs[vers]? = some digest → tarballs[vers]? = some digest) :
    let after := entries.foldl (loadEntry key) loaded
    after.entries = loaded.entries ++ entries ∧ after.warnings = loaded.warnings ∧
      (∀ (vers : String) (digest : Digest), after.tarballs[vers]? = some digest → tarballs[vers]? = some digest) ∧
      ∀ vers : String, (loaded.tarballs[vers]?.isSome = true ∨ ∃ entry ∈ entries, entry.vers = vers) →
        after.tarballs[vers]? = tarballs[vers]? := by
  -- What has been collected grows by the first entry.
  induction entries generalizing loaded with
  | nil =>
    refine ⟨(List.append_nil _).symm, rfl, within, ?_⟩
    intro vers either
    rcases either with there | ⟨_, member, _⟩
    · obtain ⟨digest, found⟩ := Option.isSome_iff_exists.mp there
      exact found.trans (within vers digest found).symm
    · cases member
  | cons entry rest ih =>
    obtain ⟨digest, own, parsed⟩ := mapped entry List.mem_cons_self
    let next : LoadedEntries := { loaded with
      tarballs := loaded.tarballs.insert entry.vers digest
      entries := loaded.entries ++ [entry] }
    have collected : loadEntry key loaded entry = next := by simp only [loadEntry, parsed, next]
    have lookup (vers : String) : next.tarballs[vers]? =
        if entry.vers = vers then some digest else loaded.tarballs[vers]? := by
      simp only [next, ExtTreeMap.getElem?_insert, LawfulEqCmp.compare_eq_iff_eq]
    have grown : ∀ (vers : String) (other : Digest), next.tarballs[vers]? = some other →
        tarballs[vers]? = some other := by
      intro vers other found
      rw [lookup] at found
      split at found
      · rename_i same
        rw [← same, own, found]
      · exact within vers other found
    rw [List.foldl_cons, collected]
    obtain ⟨entries, warnings, kept, covered⟩ :=
      ih (fun other member => mapped other (List.mem_cons_of_mem entry member)) grown
    refine ⟨entries.trans (List.append_assoc _ _ _), warnings, kept, ?_⟩
    intro vers either
    apply covered
    rw [lookup]
    rcases either with there | ⟨other, member, same⟩
    · left
      split
      · rfl
      · exact there
    · rcases List.mem_cons.mp member with rfl | later
      · left
        rw [if_pos same]
        rfl
      · exact .inr ⟨other, later, same⟩

private theorem CrateRecord.Consistent.digest_new (consistent : record.Consistent digits key) {entry : IndexEntry}
    (member : entry ∈ record.entries) :
    ∃ digest, record.tarballs[entry.vers]? = some digest ∧ Digest.new .sha256 entry.cksum = .ok digest := by
  obtain ⟨digest, mapped, hex⟩ := consistent.mapped entry member
  obtain ⟨_, _, _, algo, _⟩ := consistent.listed _ digest mapped
  refine ⟨digest, mapped, ?_⟩
  rw [← hex, ← algo]
  exact digest.new_hex

private theorem loadRecord_persisted (consistent : record.Consistent digits key) :
    loadRecord key ⟨record.entries, record.owners⟩ = (some record, []) := by
  obtain ⟨entries, warnings, within, covered⟩ := @foldl_loadEntry key record.tarballs record.entries
    (fun entry member => consistent.digest_new member) {} (fun vers digest found => by simp at found)
  -- Every tarball of the record belongs to an entry.
  have tarballs : (record.entries.foldl (loadEntry key) {}).tarballs = record.tarballs := by
    apply ExtTreeMap.ext_getElem?
    intro vers
    cases found : record.tarballs[vers]? with
    | some digest =>
      obtain ⟨entry, member, same, _⟩ := consistent.listed vers digest found
      rw [covered vers (.inr ⟨entry, member, same⟩), found]
    | none =>
      cases loaded : (record.entries.foldl (loadEntry key) {}).tarballs[vers]? with
      | none => rfl
      | some digest =>
        have there := within vers digest loaded
        rw [found] at there
        cases there
  have filled : (record.entries.foldl (loadEntry key) {}).entries.isEmpty = false := by
    rw [entries]
    exact List.isEmpty_eq_false_iff.mpr consistent.nonempty
  unfold loadRecord
  dsimp only
  rw [filled, if_neg Bool.false_ne_true, entries, tarballs, warnings]
  rfl

private theorem loadCrates_snapshot (consistent : crates.Consistent digits) :
    loadCrates crates.snapshot = (crates, []) := by
  unfold loadCrates
  congr 1
  · apply ExtTreeMap.ext_getElem?
    intro key
    rw [ExtTreeMap.getElem?_filterMap', CrateMap.snapshot, ExtTreeMap.getElem?_map]
    cases stored : crates[key]? with
    | none => rfl
    | some record => rw [Option.map_some, Option.bind_some, loadRecord_persisted (consistent key record stored)]
  · apply List.flatMap_eq_nil_iff.mpr
    intro pair member
    obtain ⟨key, persisted⟩ := pair
    have stored := ExtTreeMap.mem_toList_iff_getElem?_eq_some.mp member
    rw [CrateMap.snapshot, ExtTreeMap.getElem?_map] at stored
    obtain ⟨record, found, rfl⟩ := Option.map_eq_some_iff.mp stored
    dsimp only
    rw [loadRecord_persisted (consistent key record found)]

end RoundTrip

namespace DataDir

/-- How replacing the snapshot can end, by what becomes of the file. -/
inductive Replaced (dir : DataDir) (faults : SaveFaults) (bytes : Bytes) :
    Except IoError Unit × DataDir → Prop
  -- The snapshot before is still there.
  | kept {error : IoError} {after : DataDir}
    (same : after.files[stateFile]? = dir.files[stateFile]?) :
    Replaced dir faults bytes (.error error, after)
  | written {after : DataDir} (file : after.files[stateFile]? = some bytes) :
    Replaced dir faults bytes (.ok (), after)
  -- The new snapshot is there, and the write is reported as failed all the same.
  | torn {error : IoError} {after : DataDir} (file : after.files[stateFile]? = some bytes)
    (late : faults.syncParentDir = .error error) :
    Replaced dir faults bytes (.error error, after)

variable {faults : SaveFaults} {bytes : Bytes}

private theorem cleanUp_stateFile (dir : DataDir) (faults : SaveFaults) (pid : Nat) (seq : UInt64) :
    (dir.cleanUp faults (tmpName pid seq)).files[stateFile]? = dir.files[stateFile]? := by
  unfold cleanUp
  split
  · simp [ExtTreeMap.getElem?_erase, tmpName_ne]
  · rfl

private theorem replaced_replace (dir : DataDir) (faults : SaveFaults) (bytes : Bytes) (pid : Nat) (seq : UInt64) :
    Replaced dir faults bytes (dir.replace faults (tmpName pid seq) bytes) := by
  -- Writing the temporary file leaves the snapshot alone.
  have aside (content : Bytes) :
      (dir.files.insert (tmpName pid seq) content)[stateFile]? = dir.files[stateFile]? := by
    simp [ExtTreeMap.getElem?_insert, tmpName_ne]
  unfold replace
  split
  · apply Replaced.kept
    rw [cleanUp_stateFile]
    exact aside _
  · dsimp only
    split
    · apply Replaced.kept
      rw [cleanUp_stateFile]
      exact aside _
    · split
      · apply Replaced.kept
        rw [cleanUp_stateFile]
        exact aside _
      · -- The rename has been done.
        split
        · rename_i error late
          refine .torn ?_ late
          rw [cleanUp_stateFile]
          exact ExtTreeMap.getElem?_insert_self
        · exact .written ExtTreeMap.getElem?_insert_self

/-- The numbers of temporary files do not matter. -/
theorem Replaced.counted {dir : DataDir} {seq : UInt64} {result : Except IoError Unit × DataDir}
    (ends : Replaced { dir with saveSeq := seq } faults bytes result) : Replaced dir faults bytes result := by
  cases ends with
  | kept same => exact .kept same
  | written file => exact .written file
  | torn file late => exact .torn file late

/-- However many names are tried, a write ends in one of these ways. -/
private theorem replaced_attempts (dir : DataDir) (faults : SaveFaults) (bytes : Bytes) (tries : Nat)
    (lastErr : Option IoError) : Replaced dir faults bytes (attempts faults bytes tries lastErr dir) := by
  induction tries generalizing dir lastErr with
  | zero => exact .kept rfl
  | succ left ih =>
    unfold attempts
    dsimp only
    -- A name that is taken leaves the files as they are.
    split
    · exact (replaced_replace { dir with saveSeq := dir.saveSeq + 1 } faults bytes dir.processId
        dir.saveSeq).counted
    · rename_i error refused
      split
      · exact (ih { dir with saveSeq := dir.saveSeq + 1 } (some error)).counted
      · exact .kept rfl

/-- Without failures a write succeeds if one of the names it tries is free. -/
theorem attempts_eq_ok {dir : DataDir} (bytes : Bytes) {tries : Nat} (lastErr : Option IoError)
    (free : ∃ count < tries, tmpName dir.processId (dir.saveSeq + UInt64.ofNat count) ∉ dir.files) :
    ∃ after, attempts {} bytes tries lastErr dir = (.ok (), after) := by
  induction tries generalizing dir lastErr with
  | zero =>
    obtain ⟨count, below, _⟩ := free
    omega
  | succ left ih =>
    unfold attempts
    by_cases taken : tmpName dir.processId dir.saveSeq ∈ dir.files
    · have created : dir.createNew {} = .error ⟨.alreadyExists, "File exists"⟩ := by
        simp [createNew, taken]
      rw [created]
      apply ih
      obtain ⟨count, below, unused⟩ := free
      -- The first name is not the free one.
      cases count with
      | zero =>
        have first : dir.saveSeq + UInt64.ofNat 0 = dir.saveSeq := UInt64.add_zero _
        rw [first] at unused
        exact absurd taken unused
      | succ count =>
        refine ⟨count, by omega, ?_⟩
        have next : dir.saveSeq + 1 + UInt64.ofNat count = dir.saveSeq + UInt64.ofNat (count + 1) := by
          rw [UInt64.add_assoc, UInt64.ofNat_add, UInt64.add_comm 1]
          rfl
        dsimp only
        rw [next]
        exact unused
    · have created : dir.createNew {} = .ok () := by
        simp [createNew, taken]
      rw [created]
      exact ⟨_, rfl⟩

/-- A write that fails at the directory only has put the new snapshot in place. -/
theorem writeAtomicDurable_torn {dir : DataDir} {faults : SaveFaults} {error : IoError} (bytes : Bytes)
    (create : faults.create dir.saveSeq = none) (write : faults.write = none) (sync : faults.sync = none)
    (rename : faults.rename = none) (late : faults.syncParentDir = .error error)
    (free : tmpName dir.processId dir.saveSeq ∉ dir.files) :
    ∃ after, dir.writeAtomicDurable faults bytes = (.error error, after) ∧ after.files[stateFile]? = some bytes := by
  have created : dir.createNew faults = .ok () := by simp [createNew, create, free]
  let tmp := tmpName dir.processId dir.saveSeq
  let renamed : DataDir := { dir with
    files := ((dir.files.insert tmp bytes).erase tmp).insert stateFile bytes
    saveSeq := dir.saveSeq + 1 }
  refine ⟨renamed.cleanUp faults tmp, ?_, ?_⟩
  · rw [writeAtomicDurable, attempts, created]
    simp only [replace, write, sync, rename, late]
    rfl
  · rw [cleanUp_stateFile]
    exact ExtTreeMap.getElem?_insert_self

end DataDir

section Saving

variable (json : SnapshotJson) (crates : CrateMap) (dir : DataDir)

/-- Saving ends in one of these ways, with the bytes of the snapshot. -/
theorem replaced_save (faults : SaveFaults) :
    ∃ bytes, json.toVecPretty crates.snapshot = .ok bytes ∧
      dir.Replaced faults bytes (crates.save json dir faults) := by
  obtain ⟨bytes, encoded, _⟩ := json.roundTrips crates.snapshot
  refine ⟨bytes, encoded, ?_⟩
  unfold CrateMap.save
  rw [encoded]
  exact dir.replaced_attempts faults bytes 16 none

variable {json crates dir}

/-- What is loaded depends on the snapshot file only. -/
theorem readState_congr {after : DataDir} (same : after.files[stateFile]? = dir.files[stateFile]?) :
    after.readState = dir.readState := by
  unfold DataDir.readState
  rw [same]

/-- A file with the snapshot of consistent crates is loaded as these crates. -/
theorem load_of_stateFile {digits : DigitTable} {bytes : Bytes} (consistent : crates.Consistent digits)
    (encoded : json.toVecPretty crates.snapshot = .ok bytes) (file : dir.files[stateFile]? = some bytes) :
    load json dir.readState = (crates, []) := by
  obtain ⟨written, sameBytes, decoded⟩ := json.roundTrips crates.snapshot
  rw [encoded] at sameBytes
  cases sameBytes
  simp only [DataDir.readState, file, load, decoded, loadCrates_snapshot consistent]

end Saving

end FerroProtocols.Cargo
