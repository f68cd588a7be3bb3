import FerroProtocols.Lib.Texts
import FerroProtocols.Oci.Durability

/-! A process that is killed while it writes a snapshot, and the one that opens its directory next. -/

namespace FerroProtocols.Oci

open BlobStore Std Texts

namespace Storage

/-- The files that a process leaves when it is killed while it writes a snapshot. -/
inductive Interrupted (json : Json) (storage : Storage) (faults : Faults) (snapshot : MetadataSnapshot) :
    ExtTreeMap String Bytes → Prop where
  | before : Interrupted json storage faults snapshot storage.files
  -- The temporary file was created, and some of its bytes are written.
  | writing {bytes : Bytes} {count : Nat} (encoded : json.toVec snapshot = .ok bytes)
      (created : faults.create = none) (free : storage.nextTmp ∉ storage.files)
      (reached : ∀ failure ∈ faults.write, count ≤ failure.1) :
      Interrupted json storage faults snapshot (storage.files.insert storage.nextTmp (bytes.take count))
  -- The temporary file was moved or removed, or it could not be; only the parent is still to be synced.
  | ended : Interrupted json storage faults snapshot (storage.writeSnapshotAtomic json faults snapshot).2.files

variable {json : Json} {storage : Storage} {faults : Faults} {snapshot : MetadataSnapshot}

private theorem processId_of_tmpName {pid other : Nat} {seq seq' : UInt64}
    (same : tmpName pid seq = tmpName other seq') : pid = other := by
  have texts := congrArg String.toList same
  simp only [tmpName, String.toList_append, List.append_assoc] at texts
  exact toString_append_inj (by decide) (by decide)
    (List.append_cancel_left (List.append_cancel_left texts))

/-- The directory with another snapshot, after a write without errors. -/
def replaced (storage : Storage) (bytes : Bytes) : Storage where
  files := storage.files.insert metadataFileName bytes
  processId := storage.processId
  tmpCounter := storage.tmpCounter + 1

private theorem write_free (json : Json) (snapshot : MetadataSnapshot) (free : storage.nextTmp ∉ storage.files) :
    ∃ bytes, json.toVec snapshot = .ok bytes ∧
      storage.writeSnapshotAtomic json {} snapshot = (.ok (), storage.replaced bytes) := by
  obtain ⟨bytes, encoded, _⟩ := json.roundTrips snapshot
  refine ⟨bytes, encoded, ?_⟩
  -- The temporary file is gone again.
  have gone : (storage.files.insert storage.nextTmp bytes).erase storage.nextTmp = storage.files := by
    apply ExtTreeMap.ext_getElem?
    intro name
    by_cases own : storage.nextTmp = name
    · subst own
      simp [ExtTreeMap.getElem?_eq_none free]
    · simp [ExtTreeMap.getElem?_erase, ExtTreeMap.getElem?_insert, own]
  simp [writeSnapshotAtomic, encoded, free, publish, replaced, gone]

private theorem write_taken (json : Json) (snapshot : MetadataSnapshot) (taken : storage.nextTmp ∈ storage.files) :
    (storage.writeSnapshotAtomic json {} snapshot).1 = .error ⟨.alreadyExists, "File exists"⟩ := by
  obtain ⟨bytes, encoded, _⟩ := json.roundTrips snapshot
  simp [writeSnapshotAtomic, encoded, taken]

/-- A write that was interrupted leaves the snapshot before or the whole new one. -/
theorem Interrupted.snapshot_cases {left : ExtTreeMap String Bytes}
    (killed : storage.Interrupted json faults snapshot left) :
    left[metadataFileName]? = storage.files[metadataFileName]? ∨
      ∃ bytes, json.toVec snapshot = .ok bytes ∧ left[metadataFileName]? = some bytes := by
  cases killed with
  | before => exact .inl rfl
  | writing => exact .inl (by simp [ExtTreeMap.getElem?_insert, nextTmp, tmpName_ne])
  | ended =>
    have ends := storage.written json faults snapshot
    generalize storage.writeSnapshotAtomic json faults snapshot = result at ends ⊢
    cases ends with
    | kept same _ => exact .inl same
    | replaced encoded file _ _ => exact .inr ⟨_, encoded, file⟩

private theorem mem_cleanUp {name tmp : String} (other : name ≠ tmp) :
    name ∈ (storage.cleanUp faults tmp).files ↔ name ∈ storage.files := by
  unfold cleanUp
  split <;> simp [ExtTreeMap.mem_erase, Ne.symm other]

private theorem mem_written {name : String} (other : name ≠ storage.nextTmp) (temporary : name ≠ metadataFileName) :
    name ∈ (storage.writeSnapshotAtomic json faults snapshot).2.files ↔ name ∈ storage.files := by
  have aside (content : Bytes) : name ∈ storage.files.insert storage.nextTmp content ↔ name ∈ storage.files := by
    simp [ExtTreeMap.mem_insert, Ne.symm other]
  unfold writeSnapshotAtomic
  cases json.toVec snapshot with
  | error => rfl
  | ok bytes =>
    cases faults.create with
    | some error => rfl
    | none =>
      dsimp only
      by_cases taken : storage.files.contains storage.nextTmp = true
      · rw [if_pos taken]
      · rw [if_neg taken]
        cases faults.write with
        | some failure => exact (mem_cleanUp other).trans (aside _)
        | none =>
          cases faults.sync with
          | some error => exact (mem_cleanUp other).trans (aside _)
          | none =>
            unfold publish
            cases faults.rename with
            | some error => exact (mem_cleanUp other).trans (aside _)
            | none =>
              cases faults.openParent <;> cases faults.syncParent <;>
                simp [ExtTreeMap.mem_insert, ExtTreeMap.mem_erase, Ne.symm other, Ne.symm temporary]

/-- A write that was interrupted leaves no other temporary files than its own. -/
theorem Interrupted.mem_iff {left : ExtTreeMap String Bytes}
    (killed : storage.Interrupted json faults snapshot left) {pid : Nat}
    (other : pid ≠ storage.processId) (seq : UInt64) :
    tmpName pid seq ∈ left ↔ tmpName pid seq ∈ storage.files := by
  have apart : tmpName pid seq ≠ storage.nextTmp := mt processId_of_tmpName other
  cases killed with
  | before => rfl
  | writing => simp [ExtTreeMap.mem_insert, Ne.symm apart]
  | ended => exact mem_written apart (tmpName_ne _ _)

end Storage

namespace Registry

variable {json : Json} {sha : Sha256} {reg : Registry}

/-- A mutation is answered without an error, and what it persists is the snapshot on disk. -/
def Persists (json : Json) (reg : Registry) (mutation : Mutation) : Prop :=
  ∀ applied, mutation.applied reg.state = some applied →
    ∃ answer storage bytes,
      mutation.run (InMemoryState.persistLocked json true {}) reg.state reg.storage =
        (.ok answer, applied, storage) ∧
      json.toVec applied.snapshot = .ok bytes ∧ storage.files[metadataFileName]? = some bytes

/-- All mutations of a sequence persist, on a file system without errors. -/
def AllPersist (json : Json) : Registry → List Mutation → Prop
  | _, [] => True
  | reg, mutation :: rest =>
    Persists json reg mutation ∧ AllPersist json (reg.call json ⟨mutation, {}⟩) rest

variable {mutation : Mutation} {applied : InMemoryState}

private theorem run_free (json : Json) (free : reg.storage.nextTmp ∉ reg.storage.files)
    (change : mutation.applied reg.state = some applied) : ∃ bytes, json.toVec applied.snapshot = .ok bytes ∧
      mutation.run (InMemoryState.persistLocked json true {}) reg.state reg.storage =
        (.ok mutation.answer, applied, reg.storage.replaced bytes) := by
  obtain ⟨bytes, encoded, ends⟩ := Storage.write_free json applied.snapshot free
  refine ⟨bytes, encoded, ?_⟩
  rw [Mutation.run_eq]
  simp [change, InMemoryState.persistLocked, ends]

private theorem not_persists_of_mem (taken : reg.storage.nextTmp ∈ reg.storage.files)
    (change : mutation.applied reg.state = some applied) : ¬ Persists json reg mutation := by
  intro persists
  obtain ⟨answer, storage, bytes, ran, _⟩ := persists applied change
  have failed := Storage.write_taken json applied.snapshot taken
  rw [Mutation.run_eq] at ran
  simp only [change, InMemoryState.persistLocked, if_true] at ran
  generalize reg.storage.writeSnapshotAtomic json {} applied.snapshot = result at failed ran
  obtain ⟨_, after⟩ := result
  cases failed
  cases ran

/-- Without temporary files under its own number, a process persists every mutation. -/
theorem allPersist_of_free (free : ∀ seq, tmpName reg.storage.processId seq ∉ reg.storage.files)
    (mutations : List Mutation) : AllPersist json reg mutations := by
  induction mutations generalizing reg with
  | nil => trivial
  | cons mutation rest ih =>
    refine ⟨fun applied change => ?_, ?_⟩
    · obtain ⟨bytes, encoded, ran⟩ := run_free json (free _) change
      exact ⟨_, _, bytes, ran, encoded, by simp [Storage.replaced]⟩
    · -- The temporary file of the call is gone after it.
      cases change : mutation.applied reg.state with
      | none =>
        have same : reg.call json ⟨mutation, {}⟩ = reg := by
          simp only [Registry.call, Mutation.run_eq, change]
        rw [same]
        exact ih free
      | some applied =>
        obtain ⟨bytes, _, ran⟩ := run_free json (free _) change
        apply ih
        simp only [Registry.call, ran]
        intro seq
        simpa [Storage.replaced, ExtTreeMap.mem_insert, (tmpName_ne _ _).symm] using free seq

private theorem not_allPersist_of_mem (put : Mutation)
    (writes : ∀ state, ∃ applied, put.applied state = some applied)
    (count : Nat) (left : tmpName reg.storage.processId (reg.storage.tmpCounter + UInt64.ofNat count) ∈
      reg.storage.files) : ¬ AllPersist json reg (List.replicate (count + 1) put) := by
  intro all
  obtain ⟨applied, change⟩ := writes reg.state
  have free : reg.storage.nextTmp ∉ reg.storage.files := fun taken => not_persists_of_mem taken change all.1
  induction count generalizing reg applied with
  | zero => exact free (by simpa [Storage.nextTmp] using left)
  | succ count ih =>
    -- The next call is one name closer to the file that was left.
    obtain ⟨bytes, _, ran⟩ := run_free json free change
    have after : reg.call json ⟨put, {}⟩ = ⟨applied, reg.storage.replaced bytes⟩ := by
      simp only [Registry.call, ran]
    have rest := all.2
    rw [after] at rest
    obtain ⟨applied', change'⟩ := writes applied
    refine ih ?_ rest applied' change' fun taken => not_persists_of_mem taken change' rest.1
    have next : reg.storage.tmpCounter + 1 + UInt64.ofNat count =
        reg.storage.tmpCounter + UInt64.ofNat (count + 1) := by
      rw [UInt64.ofNat_add, UInt64.add_assoc, UInt64.add_comm 1]
      rfl
    simp only [Storage.replaced, next, ExtTreeMap.mem_insert]
    exact .inr left

/-- After a process was killed while it wrote a snapshot, the next one loads the snapshot before or the whole
new one. It persists every mutation of every sequence exactly if there is no temporary file under its own
number; those that the killed process has left are under its number alone. -/
theorem restart_after_kill_iff (json : Json) (sha : Sha256) (storage : Storage) (faults : Faults)
    (snapshot : MetadataSnapshot) (left : ExtTreeMap String Bytes)
    (killed : storage.Interrupted json faults snapshot left) (pid : Nat) :
    let restarted : Storage := ⟨left, pid, 0⟩
    (restarted.readSnapshot = storage.readSnapshot ∨ InMemoryState.loadSnapshot json sha restarted.readSnapshot =
        .ok (some (InMemoryState.ofSnapshot sha snapshot))) ∧
    ((∀ mutations, AllPersist json (start json sha restarted) mutations) ↔ ∀ seq, tmpName pid seq ∉ left) ∧
    (pid ≠ storage.processId → ∀ seq, tmpName pid seq ∈ left ↔ tmpName pid seq ∈ storage.files) := by
  refine ⟨?_, ⟨fun always seq taken => ?_, fun free => allPersist_of_free free⟩, killed.mem_iff⟩
  · rcases killed.snapshot_cases with same | ⟨bytes, encoded, file⟩
    · exact .inl (readSnapshot_congr same)
    · refine .inr ?_
      obtain ⟨written, sameBytes, decoded⟩ := json.roundTrips snapshot
      rw [encoded] at sameBytes
      cases sameBytes
      simp only [Storage.readSnapshot, file, InMemoryState.loadSnapshot, decoded]
  · -- Some put reaches the number of the file that was left.
    refine not_allPersist_of_mem (putEmpty {}).mutation (fun _ => ⟨_, rfl⟩) seq.toNat ?_ (always _)
    simpa [start] using taken

private theorem interrupted_empty : (⟨∅, 1, 0⟩ : Storage).Interrupted Json.counting {}
    ({} : InMemoryState).snapshot ((∅ : ExtTreeMap String Bytes).insert (tmpName 1 0) []) := by
  obtain ⟨bytes, encoded, _⟩ := Json.counting.roundTrips ({} : InMemoryState).snapshot
  have none : ∀ failure ∈ ({} : Faults).write, 0 ≤ failure.1 := fun _ _ => Nat.zero_le _
  exact .writing encoded rfl (by simp) none

/-- A process with another number is not kept from persisting by a file that was left. -/
theorem restart_after_kill_other : AllPersist Json.counting
    (start Json.counting shaTable ⟨(∅ : ExtTreeMap String Bytes).insert (tmpName 1 0) [], 2, 0⟩)
    [(putEmpty {}).mutation] := by
  have restart := restart_after_kill_iff Json.counting shaTable ⟨∅, 1, 0⟩ {} _ _ interrupted_empty 2
  refine restart.2.1.mpr (fun seq taken => ?_) _
  have before := (restart.2.2 (by decide) seq).mp taken
  simp at before

/-- A process with the number of one that was killed after it had created its file fails to persist its first put. -/
theorem put_blocked_after_kill : ¬ ∀ (json : Json) (sha : Sha256) (storage : Storage) (snapshot : MetadataSnapshot)
      (left : ExtTreeMap String Bytes), storage.files = ∅ → storage.Interrupted json {} snapshot left →
        ∀ mutations, AllPersist json (start json sha ⟨left, storage.processId, 0⟩) mutations := by
  intro always
  have persists := always Json.counting shaTable ⟨∅, 1, 0⟩ _ _ rfl interrupted_empty [(putEmpty {}).mutation]
  refine not_persists_of_mem ?_ rfl persists.1
  simp [start, Storage.nextTmp]

end Registry

end FerroProtocols.Oci
