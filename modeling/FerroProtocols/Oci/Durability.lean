import FerroProtocols.Lib.Enumeration
import FerroProtocols.Oci.Repositories
import FerroProtocols.Oci.Snapshot

/-! Whether the snapshot on disk follows the state in memory. -/

namespace FerroProtocols.Oci

open BlobStore Enumeration Std SparseMap Mutation

namespace InMemoryState

/-- No subject has an empty list of referrers. -/
def SparseSubjects (state : InMemoryState) : Prop :=
  ∀ name, Sparse (valueAt state.referrers name)

/-- A repository has no entry that holds nothing. -/
def Tidy (state : InMemoryState) (name : String) : Prop :=
  state.manifests[name]? ≠ some ∅ ∧ state.tags[name]? ≠ some ∅ ∧ state.referrers[name]? ≠ some ∅

variable {state : InMemoryState}

private theorem Tidy.pruneEmptyRepo_eq {name : String} (tidy : state.Tidy name) :
    state.pruneEmptyRepo name = state := by
  simp only [pruneEmptyRepo, prune_eq_self tidy.1, prune_eq_self tidy.2.1, prune_eq_self tidy.2.2]

/-- Tidying subjects that have no empty lists changes nothing. -/
theorem SparseSubjects.tidySubjects_eq (sparse : state.SparseSubjects) (name : String)
    {tidy : SubjectMap → SubjectMap}
    (same : ∀ subjects, Sparse subjects → tidy subjects = subjects) : state.tidySubjects name tidy = state := by
  have referrers : state.referrers.modify name tidy = state.referrers := by
    apply modify_eq_self
    intro subjects stored
    apply same
    have here := sparse name
    rwa [valueAt, stored, Option.getD_some] at here
  simp only [tidySubjects, referrers]

/-- Pruning one subject changes nothing where no list is empty. -/
theorem tidySubject_eq (subject : Option String) {subjects : SubjectMap} (sparse : Sparse subjects) :
    tidySubject subject subjects = subjects := by
  cases subject with
  | none => rfl
  | some subject => exact prune_eq_self (sparse subject)

end InMemoryState

namespace Mutation

/-- The repository whose empty entries a failed mutation removes. -/
def prunes : Mutation → Option String
  | .putManifestWithReferrer name _ _ _ _ _ => some name
  | .registerReferrer name _ _ => some name
  | .deleteManifest _ _ => none

/-- A manifest is put under the digest of its body, as the handler of the request computes it. -/
def Addressed (sha : Sha256) : Mutation → Prop
  | .putManifestWithReferrer _ _ digest _ body _ => digest = Digest.sha256Of sha body
  | .registerReferrer _ _ _ => True
  | .deleteManifest _ _ => True

variable {mutation : Mutation} {state after : InMemoryState}

private theorem undone_eq (sparse : state.SparseSubjects)
    (tidy : ∀ name ∈ mutation.prunes, state.Tidy name) : mutation.undone state = state := by
  cases mutation with
  | putManifestWithReferrer name | registerReferrer name =>
    rw [undone, sparse.tidySubjects_eq name fun _ => InMemoryState.tidySubject_eq _]
    exact (tidy name rfl).pruneEmptyRepo_eq
  | deleteManifest name ref => exact sparse.tidySubjects_eq name fun _ => Sparse.sweep_eq

private theorem sparse_pushReferrer {referrers : ExtTreeMap String SubjectMap}
    (sparse : ∀ name, Sparse (valueAt referrers name)) (name subject : String)
    (desc : ReferrerDescriptor) (other : String) :
    Sparse (valueAt (InMemoryState.pushReferrer referrers name subject desc) other) := by
  rw [InMemoryState.pushReferrer, valueAt_update]
  split
  · exact (sparse name).update subject (by simp [EmptyCollection.emptyCollection])
  · exact sparse other

/-- What a mutation persists has no empty lists either. -/
theorem sparseSubjects_applied (sparse : state.SparseSubjects) (persisted : mutation.applied state = some after) :
    after.SparseSubjects := by
  cases mutation with
  | putManifestWithReferrer name ref digest mediaType body referrer =>
    cases persisted
    cases referrer with
    | none => cases ref <;> exact sparse
    | some entry =>
      cases ref <;>
        exact sparse_pushReferrer sparse name entry.1.toString entry.2
  | registerReferrer name subject desc =>
    cases persisted
    exact sparse_pushReferrer sparse name subject.toString desc
  | deleteManifest name ref =>
    cases ref with
    | tag tag => cases persisted
    | digest digest =>
      obtain ⟨manifest, _, rfl⟩ := Option.map_eq_some_iff.mp persisted
      intro other
      -- The lists of the repository were swept, and the others are as before.
      simp only [InMemoryState.applyDelete, valueAt, ExtTreeMap.getElem?_modify]
      split
      · cases state.referrers[name]? with
        | none => exact sparse_empty
        | some subjects => exact sparse_sweep _
      · exact sparse other

/-- What a mutation persists has every manifest under the digest of its body. -/
theorem addressed_applied {sha : Sha256} (addressed : state.Addressed sha) (own : mutation.Addressed sha)
    (persisted : mutation.applied state = some after) : after.Addressed sha := by
  -- The digest a manifest is put under is part of what the mutation stores.
  have stores : mutation.Stores fun digestStr manifest =>
      digestStr = (Digest.sha256Of sha manifest.2).toString := by
    cases mutation with
    | putManifestWithReferrer name ref digest mediaType body referrer => exact congrArg Digest.toString own
    | registerReferrer | deleteManifest => trivial
  exact allManifests_applied addressed stores persisted

end Mutation

/-- A process with persistence enabled: its memory and its directory. -/
structure Registry where
  state : InMemoryState
  storage : Storage

/-- A mutation, and the steps of the file system that fail under it. -/
structure Call where
  mutation : Mutation
  faults : Faults

namespace Registry

/-- A process that starts on a directory. -/
def start (json : Json) (sha : Sha256) (storage : Storage) : Registry :=
  ⟨.withPersistence json sha storage.readSnapshot, storage⟩

/-- A process that starts on an empty directory. -/
def fresh (json : Json) (sha : Sha256) (pid : Nat) : Registry :=
  start json sha ⟨∅, pid, 0⟩

/-- One call, whatever it answers. -/
def call (json : Json) (reg : Registry) (call : Call) : Registry :=
  let (_, state, storage) := call.mutation.run
    (InMemoryState.persistLocked json true call.faults) reg.state reg.storage
  ⟨state, storage⟩

/-- A sequence of calls. -/
def calls (json : Json) (reg : Registry) (steps : List Call) : Registry :=
  steps.foldl (call json) reg

/-- Loading the snapshot gives the durable part of the state; without a snapshot that part is empty. -/
def Synced (json : Json) (sha : Sha256) (reg : Registry) : Prop :=
  InMemoryState.loadSnapshot json sha reg.storage.readSnapshot =
      .ok (some reg.state.durable) ∨
    InMemoryState.loadSnapshot json sha reg.storage.readSnapshot = .ok none ∧
      reg.state.durable = {}

/-- A call after which memory and disk still agree. -/
structure Safe (sha : Sha256) (reg : Registry) (call : Call) : Prop where
  addressed : call.mutation.Addressed sha
  -- The directory can be opened and synced after a rename.
  parent : call.faults.early = false →
    call.faults.openParent = none ∧ call.faults.syncParent = none
  -- A put or a registration that is to fail finds no entries of its repository that hold nothing.
  tidy : ∀ name ∈ call.mutation.prunes,
    reg.state.Tidy name ∨
      call.faults.early = false ∧ reg.storage.nextTmp ∉ reg.storage.files

/-- Every call of a sequence is safe where it is made. -/
def AllSafe (json : Json) (sha : Sha256) : Registry → List Call → Prop
  | _, [] => True
  | reg, step :: rest =>
    Safe sha reg step ∧ AllSafe json sha (reg.call json step) rest

/-- What holds between safe calls. -/
structure Consistent (json : Json) (sha : Sha256) (reg : Registry) : Prop where
  synced : reg.Synced json sha
  addressed : reg.state.Addressed sha
  sparse : reg.state.SparseSubjects

/-- A fresh registry has nothing on disk and nothing in memory. -/
theorem fresh_consistent (json : Json) (sha : Sha256) (pid : Nat) :
    (fresh json sha pid).Consistent json sha := by
  refine ⟨.inr ⟨rfl, rfl⟩, ?_, ?_⟩
  · intro name digestStr manifest found
    have empty : (valueAt (∅ : ExtTreeMap String ManifestMap) name)[digestStr]? = some manifest := found
    simp [valueAt] at empty
  · intro name
    have empty : valueAt (∅ : ExtTreeMap String SubjectMap) name = ∅ := by simp [valueAt]
    exact (congrArg Sparse empty).mpr sparse_empty

/-- What is read as the snapshot depends on its file alone. -/
theorem readSnapshot_congr {left right : Storage}
    (same : left.files[metadataFileName]? = right.files[metadataFileName]?) :
    left.readSnapshot = right.readSnapshot := by
  unfold Storage.readSnapshot
  rw [same]

variable {json : Json} {sha : Sha256} {reg : Registry}

/-- Loading a snapshot that was written for a state gives its durable part. -/
theorem loadSnapshot_written {state : InMemoryState}
    {storage : Storage} {bytes : Bytes} (addressed : state.Addressed sha)
    (encoded : json.toVec state.snapshot = .ok bytes) (file : storage.files[metadataFileName]? = some bytes) :
    InMemoryState.loadSnapshot json sha storage.readSnapshot = .ok (some state.durable) := by
  obtain ⟨written, sameBytes, decoded⟩ := json.roundTrips state.snapshot
  rw [encoded] at sameBytes
  cases sameBytes
  simp [Storage.readSnapshot, file, InMemoryState.loadSnapshot, decoded, InMemoryState.ofSnapshot_snapshot addressed]

/-- How a call ends, by what becomes of the file. -/
inductive Outcome (json : Json) (reg : Registry) (step : Call) : Registry → Prop where
  -- There was nothing to persist.
  | idle (nothing : step.mutation.applied reg.state = none) :
      Outcome json reg step reg
  -- The file is the one before, and the mutation was undone.
  | kept {after : Storage}
      (same : after.files[metadataFileName]? = reg.storage.files[metadataFileName]?)
      (early : step.faults.early = true ∨ reg.storage.nextTmp ∈ reg.storage.files) :
      Outcome json reg step ⟨step.mutation.undone reg.state, after⟩
  -- The file is the one of the mutation, which was kept.
  | persisted {applied : InMemoryState} {after : Storage} {bytes : Bytes}
      (change : step.mutation.applied reg.state = some applied)
      (encoded : json.toVec applied.snapshot = .ok bytes)
      (file : after.files[metadataFileName]? = some bytes)
      (opened : step.faults.openParent = none) (synced : step.faults.syncParent = none) :
      Outcome json reg step ⟨applied, after⟩
  -- The file is the one of the mutation, which was undone all the same.
  | torn {applied : InMemoryState} {after : Storage} {bytes : Bytes}
      (change : step.mutation.applied reg.state = some applied)
      (encoded : json.toVec applied.snapshot = .ok bytes)
      (file : after.files[metadataFileName]? = some bytes) (late : step.faults.early = false)
      (failed : step.faults.openParent.isSome ∨ step.faults.syncParent.isSome) :
      Outcome json reg step ⟨step.mutation.undone reg.state, after⟩

/-- Every call ends in one of these ways. -/
theorem outcome (json : Json) (reg : Registry) (step : Call) :
    Outcome json reg step (reg.call json step) := by
  obtain ⟨state, storage⟩ := reg
  obtain ⟨mutation, faults⟩ := step
  unfold Registry.call
  rw [run_eq]
  cases change : mutation.applied state with
  | none => exact .idle change
  | some applied =>
    have written := storage.written json faults applied.snapshot
    simp only [InMemoryState.persistLocked, if_true]
    generalize storage.writeSnapshotAtomic json faults applied.snapshot = result at written ⊢
    cases written with
    | kept same early => exact .kept same early
    | replaced encoded file late reported =>
      rcases reported with ⟨rfl, opened, synced⟩ | ⟨⟨error, rfl⟩, failed⟩
      · exact .persisted change encoded file opened synced
      · exact .torn change encoded file late failed

/-- A safe call keeps memory and disk together. -/
theorem Consistent.call (consistent : reg.Consistent json sha) {step : Call} (safe : Safe sha reg step) :
    (reg.call json step).Consistent json sha := by
  have ends := reg.outcome json step
  generalize reg.call json step = after at ends ⊢
  cases ends with
  | idle _ => exact consistent
  | kept same early =>
    have tidy : ∀ name ∈ step.mutation.prunes, reg.state.Tidy name := by
      intro name pruned
      rcases safe.tidy name pruned with tidy | ⟨late, free⟩
      · exact tidy
      · -- The call would not have failed before the rename.
        rcases early with early | taken
        · exact absurd (early.symm.trans late) (by decide)
        · exact absurd taken free
    rw [undone_eq consistent.sparse tidy]
    refine ⟨?_, consistent.addressed, consistent.sparse⟩
    unfold Synced
    rw [readSnapshot_congr same]
    exact consistent.synced
  | persisted change encoded file _ _ =>
    have addressed := addressed_applied consistent.addressed safe.addressed change
    exact ⟨.inl (loadSnapshot_written addressed encoded file), addressed,
      sparseSubjects_applied consistent.sparse change⟩
  | torn change encoded file late failed =>
    -- A safe call does not fail after the rename.
    obtain ⟨opened, synced⟩ := safe.parent late
    rw [opened, synced] at failed
    simp at failed

/-- A sequence of safe calls keeps memory and disk together. -/
theorem Consistent.calls (consistent : reg.Consistent json sha) {steps : List Call}
    (safe : AllSafe json sha reg steps) : (reg.calls json steps).Consistent json sha := by
  induction steps generalizing reg with
  | nil => exact consistent
  | cons step rest ih => exact ih (consistent.call safe.1) safe.2

private theorem Synced.start_eq (synced : reg.Synced json sha) :
    (start json sha reg.storage).state = reg.state.durable := by
  unfold start InMemoryState.withPersistence
  rcases synced with loaded | ⟨missing, empty⟩
  · simp only [loaded]
  · simp only [missing, empty]

/-- After any sequence of safe calls on an empty directory, memory and disk agree. -/
theorem calls_synced (json : Json) (sha : Sha256) (pid : Nat) (steps : List Call)
    (safe : AllSafe json sha (fresh json sha pid) steps) :
    let after := (fresh json sha pid).calls json steps
    after.Synced json sha ∧ (start json sha after.storage).state = after.state.durable := by
  have synced := ((fresh_consistent json sha pid).calls safe).synced
  exact ⟨synced, synced.start_eq⟩

end Registry

section Codec

private theorem countable_descriptor : Countable ReferrerDescriptor := by
  have := countable_string
  have annotations : Countable (ExtTreeMap String String) := countable_map
  have digests : Countable Digest := Digest.toString_injective.countable
  have sizes : Countable UInt64 :=
    Function.Injective.countable (show Function.Injective UInt64.toNat from fun _ _ => UInt64.toNat_inj.mp)
  have fields : Function.Injective fun desc : ReferrerDescriptor =>
      (desc.mediaType, desc.digest, desc.size, desc.artifactType, desc.annotations) := by
    rintro ⟨_, _, _, _, _⟩ ⟨_, _, _, _, _⟩ same
    cases same
    rfl
  exact fields.countable

/-- Snapshots can be enumerated. -/
theorem countable_snapshot : Countable MetadataSnapshot := by
  have := countable_string
  have := countable_descriptor
  have manifests : Countable PersistedManifest := by
    have fields : Function.Injective fun manifest : PersistedManifest =>
        (manifest.mediaType, manifest.bodyHex) := by
      rintro ⟨_, _⟩ ⟨_, _⟩ same
      cases same
      rfl
    exact fields.countable
  have byDigest : Countable (ExtTreeMap String PersistedManifest) := countable_map
  have tags : Countable TagMap := countable_map
  have subjects : Countable SubjectMap := countable_map
  have repositories {β : Type} [Countable β] : Countable (ExtTreeMap String β) := countable_map
  have fields : Function.Injective fun snapshot : MetadataSnapshot =>
      (snapshot.manifests, snapshot.tags, snapshot.referrers) := by
    rintro ⟨_, _, _⟩ ⟨_, _, _⟩ same
    cases same
    rfl
  exact fields.countable

open Classical in
/-- A codec that writes as many zeros as the number of a snapshot. -/
noncomputable def Json.counting : Json :=
  have := countable_snapshot
  let number := Classical.choose (exists_injective_nat MetadataSnapshot)
  have injective := Classical.choose_spec (exists_injective_nat MetadataSnapshot)
  { toVec := fun snapshot => .ok (List.replicate (number snapshot) 0)
    fromSlice := fun bytes =>
      if found : ∃ snapshot, number snapshot = bytes.length then .ok found.choose
      else .error "no snapshot"
    roundTrips := by
      intro snapshot
      refine ⟨_, rfl, ?_⟩
      have found : ∃ other, number other = (List.replicate (number snapshot) (0 : UInt8)).length :=
        ⟨snapshot, by simp⟩
      rw [dif_pos found]
      have same : number found.choose = number snapshot :=
        found.choose_spec.trans List.length_replicate
      rw [injective same] }

end Codec

namespace Registry

/-- A manifest without a tag is put, under given failures. -/
def putEmpty (faults : Faults) : Call :=
  ⟨.putManifestWithReferrer "a" (.digest emptySha) emptySha "m" [] none, faults⟩

/-- A put that goes through and a delete whose rename fails are safe. -/
theorem calls_synced_put_delete : let steps : List Call := [putEmpty {},
      ⟨.deleteManifest "a" (.digest emptySha), { rename := some ⟨.other, "denied"⟩ }⟩]
    let after := (fresh Json.counting shaTable 1).calls Json.counting steps
    after.Synced Json.counting shaTable ∧
      (start Json.counting shaTable after.storage).state = after.state.durable := by
  apply calls_synced
  refine ⟨⟨rfl, fun _ => ⟨rfl, rfl⟩, ?_⟩, ⟨trivial, ?_, ?_⟩, trivial⟩
  · intro name pruned
    cases pruned
    have empty : (fresh Json.counting shaTable 1).state = {} := rfl
    rw [empty]
    exact .inl ⟨by simp, by simp, by simp⟩
  · intro late
    exact absurd late (by decide)
  · intro name pruned
    cases pruned

/-- A put that fails only after the rename is on disk and not in memory. -/
theorem calls_diverge_after_rename : ¬ ∀ (json : Json) (sha : Sha256) (pid : Nat) (steps : List Call),
      (∀ step ∈ steps, step.mutation.Addressed sha) →
        ((fresh json sha pid).calls json steps).Synced json sha := by
  intro always
  let failing := putEmpty { syncParent := some ⟨.other, "denied"⟩ }
  have synced := always Json.counting shaTable 1 [failing] (by
    intro step member
    cases List.mem_singleton.mp member
    rfl)
  have ends := (fresh Json.counting shaTable 1).outcome Json.counting failing
  change ((fresh Json.counting shaTable 1).call Json.counting failing).Synced _ _ at synced
  generalize (fresh Json.counting shaTable 1).call Json.counting failing = after at ends synced
  cases ends with
  | idle nothing => cases nothing
  | kept same early =>
    rcases early with early | taken
    · exact absurd early (by decide)
    · have empty : (fresh Json.counting shaTable 1).storage.files = ∅ := rfl
      rw [empty] at taken
      simp at taken
  | persisted change encoded file opened synced' => cases synced'
  | torn change encoded file late failed =>
    have addressed := addressed_applied
      (fresh_consistent Json.counting shaTable 1).addressed
      (show failing.mutation.Addressed shaTable from rfl) change
    have loaded := loadSnapshot_written addressed encoded file
    cases change
    -- The file lists the repository, and memory does not.
    rcases synced with agrees | ⟨missing, _⟩
    · rw [loaded] at agrees
      have repositories := congrArg (fun state => state.manifests.isEmpty)
        (Option.some.inj (Except.ok.inj agrees))
      have listed : (({} : InMemoryState).applyPut "a" (.digest emptySha) emptySha "m" []
          none).1.durable.manifests.isEmpty = false := by decide +kernel
      have gone : (failing.mutation.undone {}).durable.manifests.isEmpty = true := by decide +kernel
      exact absurd (listed.symm.trans (repositories.trans gone)) (by decide)
    · rw [loaded] at missing
      cases missing

end Registry

end FerroProtocols.Oci
