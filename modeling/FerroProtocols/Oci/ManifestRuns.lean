import FerroProtocols.Oci.Durability
import FerroProtocols.Oci.ManifestHandlers

/-! The registry over its whole life: requests that change manifests, failing writes, and restarts. -/

namespace FerroProtocols.Oci

open BlobStore Std SparseMap Registry Mutation

/-- One step of the life of a registry. -/
inductive ManifestStep where
  -- A request, what the blob store holds meanwhile, and the steps of the file system that fail.
  | serve (req : ManifestRequest) (contains : BlobView) (faults : Faults)
  -- A new process takes over the directory.
  | restart (pid : Nat)

namespace ManifestServer

variable (server : ManifestServer) (json : Json)

/-- Take one step. -/
def step (reg : Registry) : ManifestStep → Registry
  | .serve req contains faults =>
    let (_, state, storage) := server.handle (InMemoryState.persistLocked json true faults) contains
      req reg.state reg.storage
    ⟨state, storage⟩
  | .restart pid =>
    -- The counter of temporary files starts again with the process.
    Registry.start json server.sha { reg.storage with processId := pid, tmpCounter := 0 }

/-- Take steps one after the other. -/
def run (reg : Registry) (steps : List ManifestStep) : Registry :=
  steps.foldl (server.step json) reg

private theorem step_serve (reg : Registry) (req : ManifestRequest) (contains : BlobView) (faults : Faults) :
    server.step json reg (.serve req contains faults) =
      match server.issued contains reg.state req with
      | none => reg
      | some mutation => reg.call json ⟨mutation, faults⟩ := by
  have handled := server.handle_issued (InMemoryState.persistLocked json true faults) contains
    req reg.state reg.storage
  simp only [step]
  generalize server.handle (InMemoryState.persistLocked json true faults) contains req
    reg.state reg.storage = outcome at handled ⊢
  -- The answer is dropped; what is left is the state and the directory.
  obtain ⟨answer, state, storage⟩ := outcome
  cases chosen : server.issued contains reg.state req with
  | none =>
    simp only [chosen] at handled ⊢
    cases handled
    rfl
  | some mutation =>
    simp only [chosen] at handled ⊢
    simp only [Registry.call, ← handled]

variable {server json} in
/-- What every step of a run preserves holds after the run. -/
theorem run_invariant {motive : Registry → Prop} {reg : Registry} {steps : List ManifestStep}
    (initial : motive reg)
    (keeps : ∀ before, motive before → ∀ step ∈ steps, motive (server.step json before step)) :
    motive (server.run json reg steps) :=
  List.foldlRecOn steps _ initial keeps

end ManifestServer

section Addressing

variable {sha : Sha256}

/-- Every manifest is stored under a text of the digest of its body, in whatever case. -/
def InMemoryState.Keyed (sha : Sha256) (state : InMemoryState) : Prop :=
  state.AllManifests fun digestStr manifest =>
    Digest.parse digestStr = .ok (Digest.sha256Of sha manifest.2)

private theorem parse_of_loadManifest {digestStr : String} {persisted : PersistedManifest}
    {manifest : String × Bytes}
    (loaded : InMemoryState.loadManifest sha digestStr persisted = some manifest) :
    Digest.parse digestStr = .ok (Digest.sha256Of sha manifest.2) := by
  unfold InMemoryState.loadManifest at loaded
  split at loaded
  · cases loaded
  rename_i bytes decoded
  split at loaded
  · cases loaded
  rename_i keyDigest parsed
  split at loaded
  · cases loaded
  rename_i algo
  split at loaded
  · cases loaded
  rename_i hex
  cases loaded
  -- A digest is determined by its algorithm and its hex text.
  rw [parsed]
  obtain ⟨keyAlgo, keyHex, sized, lower⟩ := keyDigest
  simp only [ne_eq, not_not] at algo hex
  subst algo hex
  rfl

private theorem keyed_ofSnapshot (snapshot : MetadataSnapshot) :
    (InMemoryState.ofSnapshot sha snapshot).Keyed sha := by
  intro name digestStr manifest found
  simp only [InMemoryState.ofSnapshot, valueAt, ExtTreeMap.getElem?_map] at found
  -- Entries whose key is not the digest of their body are not loaded.
  cases stored : snapshot.manifests[name]? with
  | none =>
    rw [stored] at found
    simp at found
  | some byDigest =>
    rw [stored, Option.map_some, Option.getD_some, ExtTreeMap.getElem?_filterMap', Option.bind_eq_some_iff] at found
    obtain ⟨persisted, _, loaded⟩ := found
    exact parse_of_loadManifest loaded

private theorem keyed_withPersistence (json : Json) (read : Except IoError Bytes) :
    (InMemoryState.withPersistence json sha read).Keyed sha := by
  have blank : InMemoryState.Keyed sha {} := by
    intro name digestStr manifest found
    simp [valueAt] at found
  unfold InMemoryState.withPersistence
  cases loaded : InMemoryState.loadSnapshot json sha read with
  | error error => exact blank
  | ok state =>
    cases state with
    | none => exact blank
    | some state =>
      -- Only a file that was read and decoded gives a state.
      unfold InMemoryState.loadSnapshot at loaded
      split at loaded
      · split at loaded <;> cases loaded
      · split at loaded
        · cases loaded
        · cases loaded
          exact keyed_ofSnapshot _

private theorem ManifestRequest.Issues.stores_keyed {req : ManifestRequest} {mutation : Mutation}
    (issues : req.Issues sha mutation) : mutation.Stores fun digestStr manifest =>
      Digest.parse digestStr = .ok (Digest.sha256Of sha manifest.2) := by
  cases issues with
  | put => exact Digest.parse_toString _
  | delete => trivial

private theorem Registry.allManifests_call {holds : String → String × Bytes → Prop} {reg : Registry}
    (all : reg.state.AllManifests holds) {json : Json} {step : Call}
    (own : step.mutation.Stores holds) : (reg.call json step).state.AllManifests holds := by
  have ends := reg.outcome json step
  generalize reg.call json step = after at ends ⊢
  cases ends with
  | idle _ => exact all
  | kept | torn => exact allManifests_undone all _
  | persisted change encoded file opened synced => exact allManifests_applied all own change

/-- A manifest that is found in a keyed state comes with the digest of its body. -/
theorem InMemoryState.Keyed.getManifest {state : InMemoryState} (keyed : state.Keyed sha)
    {name : String} {ref : Reference} {digest : Digest} {mediaType : String} {body : Bytes}
    (returned : state.getManifest name ref = .ok (some (digest, mediaType, body))) :
    digest = Digest.sha256Of sha body ∧ ∀ asked, ref = .digest asked → digest = asked := by
  rw [getManifest_eq, Repository.getManifest] at returned
  split at returned
  · cases returned
  rename_i digestStr resolved
  split at returned
  · cases returned
  rename_i found
  split at returned
  · cases returned
  rename_i parsed
  cases returned
  have key : Digest.parse digestStr = _ := keyed name digestStr (mediaType, body) found
  constructor
  · rw [parsed] at key
    exact Except.ok.inj key
  · -- The text of the digest asked for is the one that was looked up.
    intro asked same
    rw [same, Repository.resolve] at resolved
    rw [← Option.some.inj resolved, Digest.parse_toString] at parsed
    exact (Except.ok.inj parsed).symm

end Addressing

namespace ManifestServer

private theorem keyed_step (server : ManifestServer) (json : Json) {reg : Registry}
    (keyed : reg.state.Keyed server.sha) (step : ManifestStep) :
    (server.step json reg step).state.Keyed server.sha := by
  cases step with
  | serve req contains faults =>
    rw [step_serve]
    cases chosen : server.issued contains reg.state req with
    | none => exact keyed
    | some mutation => exact allManifests_call keyed (server.issues_of_issued chosen).stores_keyed
  | restart pid => exact keyed_withPersistence json _

/-- Whatever a registry starts from and goes through, its manifests come with their digests. -/
theorem manifests_content_addressed (server : ManifestServer) (json : Json)
    (storage : Storage) (steps : List ManifestStep) (name : String) (ref : Reference)
    {digest : Digest} {mediaType : String} {body : Bytes}
    (returned : (server.run json (Registry.start json server.sha storage) steps).state.getManifest
      name ref = .ok (some (digest, mediaType, body))) : digest = Digest.sha256Of server.sha body ∧
      ∀ asked, ref = .digest asked → digest = asked := by
  have keyed : (server.run json (Registry.start json server.sha storage) steps).state.Keyed
      server.sha :=
    run_invariant (motive := fun reg => reg.state.Keyed server.sha)
      (keyed_withPersistence json _) fun _ before step _ => server.keyed_step json before step
  exact keyed.getManifest returned

/-- A server that can read no manifest. -/
def idle : ManifestServer := ⟨shaTable, fun _ => .error ""⟩

/-- A registry that finds a manifest on disk returns it under its tag, also after a restart. -/
theorem manifests_content_addressed_restarted : ∃ (storage : Storage) (digest : Digest),
      (idle.run Json.counting (Registry.start Json.counting shaTable storage)
        [.restart 2]).state.getManifest "a" (.tag "t") = .ok (some (digest, "m", [1])) ∧
      digest = Digest.sha256Of shaTable [1] := by
  -- The directory holds the snapshot of a state with one manifest.
  let put := Mutation.putManifestWithReferrer "a" (.tag "t") (.sha256Of shaTable [1]) "m" [1] none
  let state := (({} : InMemoryState).applyPut "a" (.tag "t") (.sha256Of shaTable [1]) "m" [1] none).1
  have addressed : state.Addressed shaTable :=
    addressed_applied (fresh_consistent Json.counting shaTable 1).addressed
      (show put.Addressed shaTable from rfl) rfl
  obtain ⟨bytes, encoded, _⟩ := Json.counting.roundTrips state.snapshot
  let storage : Storage := ⟨{(metadataFileName, bytes)}, 1, 0⟩
  have file : storage.files[metadataFileName]? = some bytes := by simp [storage]
  have loaded := loadSnapshot_written addressed encoded file
  have started : (idle.run Json.counting (Registry.start Json.counting shaTable storage)
      [.restart 2]).state = state.durable := by
    change InMemoryState.withPersistence Json.counting shaTable storage.readSnapshot = _
    simp only [InMemoryState.withPersistence, loaded]
  have returned : (idle.run Json.counting (Registry.start Json.counting shaTable storage)
      [.restart 2]).state.getManifest "a" (.tag "t") = .ok (some (.sha256Of shaTable [1], "m", [1])) := by
    rw [started]
    decide +kernel
  have found := manifests_content_addressed idle Json.counting storage [.restart 2] "a" (.tag "t")
    returned
  exact ⟨storage, _, returned, found.1⟩

end ManifestServer

namespace Registry

variable {json : Json} {holds : InMemoryState → Prop} {reg : Registry}

/-- A property of the memory, and of the state that was written to the file. -/
structure Stored (json : Json) (holds : InMemoryState → Prop) (reg : Registry) : Prop where
  memory : holds reg.state
  -- After a failed write the file may be the one of another state than the memory.
  file : reg.storage.files[metadataFileName]? = none ∨
    ∃ state bytes, holds state ∧ json.toVec state.snapshot = .ok bytes ∧
      reg.storage.files[metadataFileName]? = some bytes

/-- A call keeps a property that the change and its undoing keep. -/
theorem Stored.call (stored : reg.Stored json holds) {step : Call}
    (applied : ∀ after, step.mutation.applied reg.state = some after → holds after)
    (undone : holds (step.mutation.undone reg.state)) : (reg.call json step).Stored json holds := by
  have ends := reg.outcome json step
  generalize reg.call json step = after at ends ⊢
  -- The file is the one before, or the one of the change, whatever became of the memory.
  cases ends with
  | idle _ => exact stored
  | kept same early =>
    refine ⟨undone, ?_⟩
    rw [same]
    exact stored.file
  | persisted change encoded file opened synced =>
    have kept := applied _ change
    exact ⟨kept, .inr ⟨_, _, kept, encoded, file⟩⟩
  | torn change encoded file late failed => exact ⟨undone, .inr ⟨_, _, applied _ change, encoded, file⟩⟩

/-- A property that can be kept over failures and restarts. -/
structure Lasting (sha : Sha256) (holds : InMemoryState → Prop) : Prop where
  blank : holds {}
  durable : ∀ {state}, holds state → holds state.durable
  undone : ∀ {state} (mutation : Mutation), holds state → holds (mutation.undone state)
  addressed : ∀ {state}, holds state → state.Addressed sha

/-- A new process on the directory finds a state with the property. -/
theorem Stored.start {sha : Sha256} (stored : reg.Stored json holds)
    (lasting : Lasting sha holds) {storage : Storage} (same : storage.files = reg.storage.files) :
    (Registry.start json sha storage).Stored json holds := by
  have file := stored.file
  rw [← same] at file
  refine ⟨?_, file⟩
  unfold Registry.start InMemoryState.withPersistence
  rcases file with missing | ⟨state, bytes, kept, encoded, found⟩
  · -- A process that finds no file starts empty.
    simp only [Storage.readSnapshot, missing, InMemoryState.loadSnapshot, if_true]
    exact lasting.blank
  · simp only [loadSnapshot_written (lasting.addressed kept) encoded found]
    exact lasting.durable kept

/-- A registry on an empty directory has the property. -/
theorem stored_fresh {sha : Sha256} (lasting : Lasting sha holds) (pid : Nat) :
    (fresh json sha pid).Stored json holds := by
  refine ⟨lasting.blank, .inl ?_⟩
  change (∅ : ExtTreeMap String Bytes)[metadataFileName]? = none
  simp

end Registry

namespace ManifestServer

variable {server : ManifestServer} {json : Json} {holds : InMemoryState → Prop}

/-- A step keeps a lasting property if what its mutation persists has it. -/
theorem stored_step (lasting : Registry.Lasting server.sha holds) {reg : Registry}
    (stored : reg.Stored json holds) {step : ManifestStep}
    (serves : ∀ req contains faults mutation after, step = .serve req contains faults →
      server.issued contains reg.state req = some mutation →
      mutation.applied reg.state = some after → holds after) :
    (server.step json reg step).Stored json holds := by
  cases step with
  | serve req contains faults =>
    rw [step_serve]
    cases chosen : server.issued contains reg.state req with
    | none => exact stored
    | some mutation =>
      exact stored.call (fun after change => serves _ _ _ _ after rfl chosen change)
        (lasting.undone mutation stored.memory)
  | restart pid => exact stored.start lasting rfl

/-- A lasting property holds after any steps from an empty directory if what requests persist has it. -/
theorem lasting_run (lasting : Registry.Lasting server.sha holds) (pid : Nat) {steps : List ManifestStep}
    (serves : ∀ req contains faults, .serve req contains faults ∈ steps →
      ∀ state mutation after, holds state → server.issued contains state req = some mutation →
        mutation.applied state = some after → holds after) :
    holds (server.run json (Registry.fresh json server.sha pid) steps).state := by
  -- The property is also carried by what is on disk, so that it survives the restarts.
  have stored : (server.run json (Registry.fresh json server.sha pid) steps).Stored json
      holds := by
    apply run_invariant (stored_fresh lasting pid)
    intro before stored step member
    apply stored_step lasting stored
    rintro req contains faults mutation after rfl chosen change
    exact serves req contains faults member _ _ _ stored.memory chosen change
  exact stored.memory

/-- Having every manifest under the digest of its body is lasting. -/
theorem lasting_addressed (sha : Sha256) : Registry.Lasting sha (InMemoryState.Addressed sha) where
  blank := by
    intro name digestStr manifest found
    simp [valueAt] at found
  durable := fun addressed => addressed
  undone := fun mutation addressed => allManifests_undone addressed mutation
  addressed := fun addressed => addressed

/-- What a request puts is under the digest of its body. -/
theorem addressed_of_issues {sha : Sha256} {req : ManifestRequest} {mutation : Mutation}
    (issues : req.Issues sha mutation) : mutation.Addressed sha := by
  cases issues with
  | put => rfl
  | delete => trivial

private theorem addressed_run (server : ManifestServer) (json : Json) (pid : Nat) (steps : List ManifestStep) :
    (server.run json (Registry.fresh json server.sha pid) steps).state.Addressed server.sha := by
  apply lasting_run (lasting_addressed server.sha)
  intro req contains faults _ state mutation after addressed chosen change
  exact addressed_applied addressed (addressed_of_issues (server.issues_of_issued chosen))
    change

/-- A registry loads from its own snapshot what it has in memory, and drops nothing. -/
theorem snapshot_loads (server : ManifestServer) (json : Json) (pid : Nat) (steps : List ManifestStep) :
    let state := (server.run json (Registry.fresh json server.sha pid) steps).state
    (∀ (storage after : Storage) (faults : Faults),
      InMemoryState.persistLocked json true faults state storage = (.ok (), after) →
        InMemoryState.loadSnapshot json server.sha after.readSnapshot = .ok (some { state with uploads := ∅ })) ∧
      (∀ storage : Storage, storage.nextTmp ∉ storage.files →
        (InMemoryState.persistLocked json true {} state storage).1 = .ok ()) ∧
      ∀ (name digestStr : String) (byDigest : ExtTreeMap String PersistedManifest)
        (persisted : PersistedManifest), state.snapshot.manifests[name]? = some byDigest →
        byDigest[digestStr]? = some persisted →
          (InMemoryState.loadManifest server.sha digestStr persisted).isSome := by
  intro state
  have addressed : state.Addressed server.sha := server.addressed_run json pid steps
  refine ⟨?_, ?_, ?_⟩
  · intro storage after faults written
    -- A write that reports success has put the new snapshot in place.
    have ends := storage.written json faults state.snapshot
    simp only [InMemoryState.persistLocked, if_true] at written
    rw [written] at ends
    cases ends with
    | replaced encoded file late reported => exact loadSnapshot_written addressed encoded file
  · intro storage free
    have ends := storage.written json {} state.snapshot
    simp only [InMemoryState.persistLocked, if_true]
    generalize storage.writeSnapshotAtomic json {} state.snapshot = result at ends ⊢
    cases ends with
    | kept same early =>
      rcases early with early | taken
      · exact absurd early (by decide)
      · exact absurd taken free
    | replaced encoded file late reported =>
      rcases reported with ⟨rfl, _⟩ | ⟨_, failed⟩
      · rfl
      · simp at failed
  · intro name digestStr byDigest persisted repository found
    simp only [InMemoryState.snapshot, ExtTreeMap.getElem?_map, Option.map_eq_some_iff] at repository
    obtain ⟨stored, there, rfl⟩ := repository
    rw [ExtTreeMap.getElem?_map, Option.map_eq_some_iff] at found
    obtain ⟨manifest, held, rfl⟩ := found
    -- The key of the entry is the digest that loading computes from its body.
    have key := addressed name digestStr manifest (by rw [valueAt, there]; exact held)
    rw [key, InMemoryState.loadManifest_persisted]
    rfl

end ManifestServer

end FerroProtocols.Oci
