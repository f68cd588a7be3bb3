import FerroProtocols.Cargo.Immutability
import FerroProtocols.Cargo.Persist
import FerroProtocols.Lib.Enumeration

/-! Whether a restart finds the crates that were in memory. -/

namespace FerroProtocols.Cargo

open BlobStore Enumeration Std Interleaving

variable {ω ι : Type}

/-- What the environment decides about a turn of a server with a data directory. -/
structure DiskEvent where
  faults : SaveFaults := {}
  fault : Option BlobStoreError := none

namespace CargoServer

/-- The snapshot is written in each turn that changes the crates. -/
def onDisk (json : SnapshotJson) (step : ι × DiskEvent) : ι × CargoEvent DataDir :=
  (step.1, { persist := persistLocked json true step.2.faults, fault := step.2.fault })

/-- A server that starts on a data directory, with the store as it is. -/
def withPersistence (json : SnapshotJson) (blobs : InMemoryBlobStore) (dir : DataDir) : CargoSystem DataDir ι :=
  ⟨⟨blobs, (load json dir.readState).1, dir, none⟩, fun _ => .ready⟩

variable {server : CargoServer} {reqs : ι → CargoRequest} {json : SnapshotJson}
  {system : CargoSystem DataDir ι}

private theorem withPersistence_empty (json : SnapshotJson) (blobs : InMemoryBlobStore) (pid : Nat) :
    withPersistence json blobs ⟨∅, pid, 0⟩ =
      (CargoSystem.opening blobs ⟨∅, pid, 0⟩ : CargoSystem DataDir ι) := rfl

section Follows

variable {faults : SaveFaults} {crates : CrateMap} {dir after : DataDir}

private theorem load_of_save_eq_ok {digits : DigitTable} (consistent : crates.Consistent digits)
    (saved : crates.save json dir faults = (.ok (), after)) : load json after.readState = (crates, []) := by
  obtain ⟨bytes, encoded, ends⟩ := replaced_save json crates dir faults
  rw [saved] at ends
  cases ends with
  | written file => exact load_of_stateFile consistent encoded file

private theorem load_of_save_eq_error {error : IoError} (settled : faults.syncParentDir = .ok ())
    (failed : crates.save json dir faults = (.error error, after)) :
    load json after.readState = load json dir.readState := by
  obtain ⟨bytes, encoded, ends⟩ := replaced_save json crates dir faults
  rw [failed] at ends
  cases ends with
  | kept same => rw [readState_congr same]
  | torn file late => grind

variable (server reqs json)

/-- What is on disk is what is in memory. -/
structure Follows (system : CargoSystem DataDir ι) : Prop where
  sound : Sound server reqs system
  loaded : load json system.shared.disk.readState = (system.shared.crates, [])

variable {server reqs json}

/-- A turn keeps disk and memory together, if the directory can be synced after a rename. -/
theorem Follows.turn [DecidableEq ι] (follows : Follows server reqs json system) {step : ι × DiskEvent}
    (settled : step.2.faults.syncParentDir = .ok ()) : Follows server reqs json
      (Interleaving.turn (server.program reqs) system (onDisk json step)) := by
  have loaded := follows.loaded
  have sound := follows.sound.turn (onDisk json step)
  have consistent := sound.consistent
  refine ⟨sound, ?_⟩
  obtain ⟨after, next, moved, turned⟩ := follows.sound.exists_moves (onDisk json step)
  rw [turned] at consistent ⊢
  cases moved with
  | publishes _ _ _ _ _ written | commits _ _ _ _ _ _ written => exact load_of_save_eq_ok consistent written
  | withdraws _ _ _ _ _ _ failed | discards _ _ _ _ _ _ failed | restores _ _ _ _ _ failed =>
    exact (load_of_save_eq_error settled failed).trans loaded
  | stays | answers | finds | locks | unstored | drops => exact loaded

end Follows

section Codec

private theorem countable_of_fields {α β : Type} [Countable β] (fields : α → β) (build : β → α)
    (whole : ∀ value, build (fields value) = value) : Countable α :=
  (Function.LeftInverse.injective whole).countable

private theorem countable_entry : Countable IndexEntry := by
  have := countable_string
  have features : Countable FeatureMap := countable_map
  have numbers : Countable UInt32 :=
    Function.Injective.countable (show Function.Injective UInt32.toNat from fun _ _ => UInt32.toNat_inj.mp)
  have deps : Countable IndexDep := countable_of_fields (fun dep => (dep.name, dep.req, dep.features, dep.optional,
    dep.defaultFeatures, dep.target, dep.kind, dep.registry, dep.package))
    (fun (a, b, c, d, e, f, g, h, i) => ⟨a, b, c, d, e, f, g, h, i⟩) fun _ => rfl
  exact countable_of_fields (fun entry =>
    (entry.name, entry.vers, entry.deps, entry.cksum, entry.features, entry.yanked,
    entry.links, entry.v, entry.features2, entry.rustVersion))
    (fun (a, b, c, d, e, f, g, h, i, j) => ⟨a, b, c, d, e, f, g, h, i, j⟩) fun _ => rfl

/-- Snapshots can be enumerated. -/
theorem countable_snapshot : Countable Snapshot := by
  have := countable_string
  have := countable_entry
  have owners : Countable Owner := countable_of_fields (fun owner => (owner.id, owner.login, owner.name))
    (fun (id, login, name) => ⟨id, login, name⟩) fun _ => rfl
  have records : Countable PersistedRecord := countable_of_fields (fun record => (record.entries, record.owners))
    (fun (entries, owners) => ⟨entries, owners⟩) fun _ => rfl
  have maps : Countable (ExtTreeMap String PersistedRecord) := countable_map
  exact countable_of_fields Snapshot.crates Snapshot.mk fun _ => rfl

private theorem nonempty_json : Nonempty SnapshotJson := by
  have := countable_snapshot
  obtain ⟨encode, decode, decoded⟩ := exists_codec Snapshot
  refine ⟨⟨fun snapshot => .ok (encode snapshot), fun bytes => (decode bytes).elim (.error "no snapshot") .ok, ?_⟩⟩
  intro snapshot
  refine ⟨encode snapshot, rfl, ?_⟩
  rw [decoded]
  rfl

end Codec

section Saves

variable (json : SnapshotJson) (server : CargoServer) [DecidableEq ι] (reqs : ι → CargoRequest)

/-- Whatever crates the requests lead to, loading what was saved gives them back, with nothing dropped; and without
failures they can be saved where a name for the temporary file is free. -/
theorem load_save (blobs : InMemoryBlobStore) (disk : ω) (events : List (ι × CargoEvent ω)) (dir : DataDir)
    (faults : SaveFaults) : let system := run (server.program reqs) (CargoSystem.opening blobs disk) events
    let crates := system.shared.crates
    (∀ after, crates.save json dir faults = (.ok (), after) → load json after.readState = (crates, [])) ∧
    ((∃ count < 16, tmpName dir.processId (dir.saveSeq + UInt64.ofNat count) ∉ dir.files) →
      ∃ after, crates.save json dir {} = (.ok (), after)) := by
  intro system crates
  have sound : Sound server reqs system := sound_run blobs disk events
  constructor
  · intro after saved
    exact load_of_save_eq_ok sound.consistent saved
  · intro free
    obtain ⟨bytes, encoded, _⟩ := json.roundTrips crates.snapshot
    unfold CrateMap.save
    rw [encoded]
    exact DataDir.attempts_eq_ok bytes none free

end Saves

/-- The crates of the demonstration are saved to an empty directory and loaded from there. -/
theorem load_save_demo : let crates := (run (demo.program demoRequests) (CargoSystem.opening .new ())
      demoEvents).shared.crates
    crates.contains "foo_bar" = true ∧ ∃ json after, crates.save json ⟨∅, 1, 0⟩ {} = (.ok (), after) ∧
      load json after.readState = (crates, []) := by
  intro crates
  have filled : crates.contains "foo_bar" = true := by decide +kernel
  obtain ⟨json⟩ := nonempty_json
  obtain ⟨loads, saves⟩ := load_save json demo demoRequests .new () demoEvents ⟨∅, 1, 0⟩ {}
  obtain ⟨after, saved⟩ := saves ⟨0, by decide, ExtTreeMap.not_mem_empty⟩
  exact ⟨filled, json, after, saved, loads after saved⟩

section Restarts

variable [DecidableEq ι]

private theorem Sound.crates_turn {ω : Type} {system : CargoSystem ω ι} (sound : Sound server reqs system)
    (step : ι × CargoEvent ω) (quiet : ∀ answer,
      ((Interleaving.turn (server.program reqs) system step).points step.1).answer = some answer →
        ¬ answer.Acknowledges) :
    (Interleaving.turn (server.program reqs) system step).shared.crates = system.shared.crates := by
  obtain ⟨after, next, moved, turned⟩ := sound.exists_moves step
  rw [turned] at quiet ⊢
  dsimp only at quiet ⊢
  rw [if_pos rfl] at quiet
  cases moved with
  | publishes => exact absurd trivial (quiet .published rfl)
  | commits crates disk msg => exact absurd trivial (quiet (.changed msg) rfl)
  | stays | answers | finds | locks | unstored | withdraws | discards | drops | restores => rfl

private theorem follows_run (json : SnapshotJson) (blobs : InMemoryBlobStore) (pid : Nat)
    {events : List (ι × DiskEvent)} (settled : ∀ step ∈ events, step.2.faults.syncParentDir = .ok ()) :
    Follows server reqs json (run (server.program reqs)
      (withPersistence json blobs ⟨∅, pid, 0⟩) (events.map (onDisk json))) := by
  have initial : Follows server reqs json (withPersistence json blobs ⟨∅, pid, 0⟩) := by
    rw [withPersistence_empty]
    exact ⟨sound_opening blobs _, rfl⟩
  refine run_invariant_of_forall
    (fun system event (allowed : ∃ step : ι × DiskEvent, event = onDisk json step ∧
      step.2.faults.syncParentDir = .ok ()) (follows : Follows server reqs json system) => ?_) initial ?_
  · obtain ⟨step, rfl, fine⟩ := allowed
    exact follows.turn fine
  · intro event member
    obtain ⟨step, inside, rfl⟩ := List.mem_map.mp member
    exact ⟨step, rfl, settled step inside⟩

variable (json : SnapshotJson) (server : CargoServer) (reqs : ι → CargoRequest)

/-- As long as the directory can be synced after each rename, a restart finds the crates that are in memory, whatever
else fails; so every version it finds can be downloaded, and a turn that acknowledges nothing has no part in it. -/
theorem disk_follows_memory (blobs : InMemoryBlobStore) (pid : Nat) (events : List (ι × DiskEvent))
    (settled : ∀ step ∈ events, step.2.faults.syncParentDir = .ok ()) :
    let system := run (server.program reqs)
      (withPersistence json blobs ⟨∅, pid, 0⟩) (events.map (onDisk json))
    load json system.shared.disk.readState = (system.shared.crates, []) ∧
    (∀ (key : String) (record : CrateRecord) (entry : IndexEntry),
      (load json system.shared.disk.readState).1[key]? = some record → entry ∈ record.entries →
        ∃ digest bytes, record.tarballs[entry.vers]? = some digest ∧ system.shared.blobs.get digest = .ok bytes) ∧
    ∀ step : ι × DiskEvent, step.2.faults.syncParentDir = .ok () →
      let after := Interleaving.turn (server.program reqs) system (onDisk json step)
      (∀ answer, (after.points step.1).answer = some answer → ¬ answer.Acknowledges) →
        load json after.shared.disk.readState = load json system.shared.disk.readState := by
  intro system
  have follows : Follows server reqs json system := follows_run json blobs pid settled
  refine ⟨follows.loaded, ?_, ?_⟩
  · intro key record entry found member
    rw [follows.loaded] at found
    obtain ⟨digest, mapped, _⟩ := (follows.sound.consistent key record found).mapped entry member
    obtain ⟨_, plan, _, _, there⟩ := follows.sound.backed digest ⟨key, record, entry.vers, found, mapped⟩
    refine ⟨digest, plan.tarball, mapped, ?_⟩
    simp only [InMemoryBlobStore.get, there]
  · intro step fine after quiet
    rw [(follows.turn fine).loaded, follows.loaded]
    exact congrArg (fun crates => (crates, [])) (follows.sound.crates_turn (onDisk json step) quiet)

/-- A publish whose rename fails, and one after it on a file system that cannot sync directories at all. -/
theorem disk_follows_memory_demo : ∃ json, ∃ events : List (Nat × DiskEvent),
      events = [(0, {}), (0, { faults := { rename := some ⟨.other, "denied"⟩ } }), (0, {}), (1, {}),
        (1, { faults := { syncDir := some ⟨.invalidInput, "not supported"⟩ } })] ∧
      let system := run (demo.program demoRequests)
        (withPersistence json .new ⟨∅, 1, 0⟩) (events.map (onDisk json))
      load json system.shared.disk.readState = (system.shared.crates, []) := by
  obtain ⟨json⟩ := nonempty_json
  refine ⟨json, _, rfl, (disk_follows_memory json demo demoRequests .new 1 _ ?_).1⟩
  intro step member
  simp only [List.mem_cons, List.not_mem_nil, or_false] at member
  rcases member with rfl | rfl | rfl | rfl | rfl <;> rfl

end Restarts

section Torn

variable [DecidableEq ι] {thread : ι} {body : Bytes} {plan : PublishPlan}

private theorem put_prepared (prepared : server.Prepared plan) (blobs : InMemoryBlobStore) :
    blobs.put server.hashes plan.digest plan.tarball = .ok ⟨blobs.inner.insert plan.digest plan.tarball⟩ := by
  have digest : server.hashes.digestOf plan.digest.algo plan.tarball = plan.digest := by
    rw [prepared.digest]
    rfl
  simp [InMemoryBlobStore.put, digest]

/-- A publish of a new tarball whose write fails at the directory is refused and taken back, with its tarball; but a
restart finds the version. -/
theorem torn_publish (json : SnapshotJson) (thread : ι) (faults : SaveFaults) (error : IoError)
    (sound : Sound server reqs system) (asked : reqs thread = .publish body)
    (made : server.preparePublish body = .ok plan) (ready : system.points thread = .ready)
    (free : system.shared.writer = none) (vacant : system.shared.crates.checkVacant plan = .ok ())
    (unreferenced : ¬ system.shared.crates.Referenced plan.digest)
    (create : faults.create system.shared.disk.saveSeq = none) (write : faults.write = none)
    (sync : faults.sync = none) (rename : faults.rename = none) (late : faults.syncParentDir = .error error)
    (unused : tmpName system.shared.disk.processId system.shared.disk.saveSeq ∉ system.shared.disk.files) :
    let after := run (server.program reqs) system
      ([(thread, {}), (thread, { faults }), (thread, {})].map (onDisk json))
    after.points thread = .answered (.refused (.persistence error.message)) ∧
      after.shared.crates = system.shared.crates ∧ after.shared.blobs.contains plan.digest = false ∧
      load json after.shared.disk.readState = (system.shared.crates.addVersion plan, []) := by
  have prepared := server.prepared_of_preparePublish made
  have back := rollbackPublish_addVersion sound.consistent vacant
  have stored := put_prepared prepared system.shared.blobs
  have orphaned : system.shared.crates.digestReferencedIn plan.digest = false :=
    Bool.eq_false_of_not_eq_true fun found => unreferenced (CrateMap.digestReferencedIn_iff.mp found)
  obtain ⟨bytes, encoded, _⟩ := json.roundTrips (system.shared.crates.addVersion plan).snapshot
  obtain ⟨dir, failed, file⟩ := DataDir.writeAtomicDurable_torn bytes create write sync rename late unused
  have saved : (system.shared.crates.addVersion plan).save json system.shared.disk faults =
      (.error error, dir) := by
    simp only [CrateMap.save, encoded, failed]
  let locked : CargoState DataDir ι := { system.shared with writer := some thread }
  let torn : CargoState DataDir ι :=
    ⟨⟨system.shared.blobs.inner.insert plan.digest plan.tarball⟩, system.shared.crates, dir, some thread⟩
  have first : server.handlePublish thread body (onDisk json (thread, {})).2 system.shared .ready =
      (locked, .storing plan) := by
    simp only [handlePublish, made, free, vacant]
    rfl
  have second : server.handlePublish thread body (onDisk json (thread, { faults })).2 locked (.storing plan) =
      (torn, .discarding plan.digest error) := by
    simp [handlePublish, onDisk, CargoEvent.call, locked, stored, persistLocked, saved, back, orphaned, torn]
  have third : server.handlePublish thread body (onDisk json (thread, {})).2 torn
      (.discarding plan.digest error) =
      ({ torn with blobs := torn.blobs.delete plan.digest, writer := none },
        .answered (.refused (.persistence error.message))) := rfl
  -- Each turn starts where the one before has led.
  have publishes (event : CargoEvent DataDir) (state : CargoState DataDir ι) (point : CargoPoint) :
      server.program reqs thread event state point = server.handlePublish thread body event state point := by
    simp only [program, asked, turn]
  have one := turn_eq_of _ ⟨rfl, ready⟩ ((publishes _ _ _).trans first)
  have two := turn_eq_of _ one ((publishes _ _ _).trans second)
  have ended := turn_eq_of _ two ((publishes _ _ _).trans third)
  intro after
  change after.shared = _ ∧ after.points thread = _ at ended
  rw [ended.1]
  refine ⟨ended.2, rfl, ?_, ?_⟩
  · -- The blob is gone.
    simp [torn, InMemoryBlobStore.contains, InMemoryBlobStore.delete]
  · exact load_of_stateFile (consistent_addVersion sound.consistent vacant prepared) encoded file

/-- A publish whose directory cannot be opened after the rename is refused, and memory has no trace of it; but
a restart finds its version, and the tarball is gone. -/
theorem disk_overtakes_memory : ∃ (json : SnapshotJson) (events : List (Nat × DiskEvent)),
      let system := run (demo.program demoRequests)
        (withPersistence json .new ⟨∅, 1, 0⟩) (events.map (onDisk json))
      system.points 0 = .answered (.refused (.persistence "denied")) ∧
      (load json system.shared.disk.readState).1 ≠ system.shared.crates ∧
      ∃ (key : String) (record : CrateRecord) (vers : String) (digest : Digest),
        (load json system.shared.disk.readState).1[key]? = some record ∧
        record.tarballs[vers]? = some digest ∧ system.shared.blobs.contains digest = false := by
  obtain ⟨json⟩ := nonempty_json
  have parsed : (demo.preparePublish (demoBody 0)).toOption.isSome = true := by decide +kernel
  obtain ⟨plan, made⟩ := Fallible.exists_of_isSome parsed
  refine ⟨json, [(0, {}), (0, { faults := { openDir := some ⟨.other, "denied"⟩ } }), (0, {})], ?_⟩
  rw [withPersistence_empty]
  have vacant : (∅ : CrateMap).checkVacant plan = .ok () := by simp [CrateMap.checkVacant]
  have bare : ¬ (∅ : CrateMap).Referenced plan.digest := by
    intro referenced
    obtain ⟨key, record, vers, stored, _⟩ := referenced
    simp at stored
  have sound : Sound demo demoRequests (CargoSystem.opening .new (⟨∅, 1, 0⟩ : DataDir)) := sound_opening _ _
  obtain ⟨refused, crates, gone, loaded⟩ := torn_publish json 0
    { openDir := some ⟨.other, "denied"⟩ } ⟨.other, "denied"⟩ sound rfl made rfl rfl vacant bare rfl rfl rfl rfl
    rfl ExtTreeMap.not_mem_empty
  have listed : ((∅ : CrateMap).addVersion plan)[plan.key]? = some (grown ∅ plan) :=
    ExtTreeMap.getElem?_insert_self
  intro system
  change system.shared.crates = ∅ at crates
  change load json system.shared.disk.readState = ((∅ : CrateMap).addVersion plan, []) at loaded
  rw [loaded, crates]
  refine ⟨refused, ?_, plan.key, grown ∅ plan, plan.entry.vers, plan.digest, listed,
    ExtTreeMap.getElem?_insert_self, gone⟩
  -- The version is in the one and not in the other.
  intro same
  dsimp only at same
  rw [same] at listed
  simp at listed

end Torn

end CargoServer

end FerroProtocols.Cargo
