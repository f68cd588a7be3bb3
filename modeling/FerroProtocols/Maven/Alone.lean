import FerroProtocols.Maven.Keys

/-! Requests that have the repository to themselves are answered after a few turns. -/

namespace FerroProtocols.Maven

open BlobStore Std Texts

variable {ι : Type}

namespace MavenServer

/-- Turns of one request, without others in between. -/
def advance (server : MavenServer) (thread : ι) (req : MavenRequest) (reached : MavenState ι × MavenPoint)
    (events : List MavenEvent) : MavenState ι × MavenPoint :=
  events.foldl (fun reached event => server.step thread req event reached.1 reached.2) reached

/-- The largest number of turns of a request that never waits. -/
def maxTurns : Nat := 7

/-- A request from its first turn to its last one, given what the environment decides about each. -/
def perform (server : MavenServer) (thread : ι) (req : MavenRequest) (events : Nat → MavenEvent)
    (state : MavenState ι) : MavenState ι × MavenPoint :=
  server.advance thread req (state, .ready) ((List.range maxTurns).map events)

variable {server : MavenServer} {thread : ι} {req : MavenRequest} {events : Nat → MavenEvent} {state : MavenState ι}

/-- Events are used up by one turn each. -/
private theorem advance_cons (reached : MavenState ι × MavenPoint) (event : MavenEvent) (rest : List MavenEvent) :
    server.advance thread req reached (event :: rest) =
      server.advance thread req (server.step thread req event reached.1 reached.2) rest := rfl

/-- A request that has its answer does nothing more. -/
private theorem advance_answered (state : MavenState ι) (answer : MavenAnswer) (rest : List MavenEvent) :
    server.advance thread req (state, .answered answer) rest = (state, .answered answer) := by
  induction rest with
  | nil => rfl
  | cons event rest ih => exact ih

private theorem perform_eq : server.perform thread req events state = server.advance thread req (state, .ready)
      [events 0, events 1, events 2, events 3, events 4, events 5, events 6] := rfl

private theorem advance_of_handle {point next : MavenPoint} {after : MavenState ι} {event : MavenEvent}
    {rest : List MavenEvent} (handled : server.handle thread req event state point = (after, next))
    (pending : point.isAnswered = false) : server.advance thread req (state, point) (event :: rest) =
      server.advance thread req (after, next) rest := by
  rw [advance_cons, step_of_pending pending, handled]

section Upload

variable {repo path : String} {coord : Coordinate} {body : Bytes} {blobs : InMemoryBlobStore}

/-- The state in which a build is entered and announced. -/
def registered (server : MavenServer) (repo : String) (coord : Coordinate) (body : Bytes)
    (events : Nat → MavenEvent) (state : MavenState ι) : MavenState ι :=
  let buildNumber := state.nextBuild (coord.counterKey repo)
  ((state.count (coord.counterKey repo)).enter
      (coord.timestampedKey (events 2).now buildNumber repo) (server.digestOf body)).cache
    (coord.snapshotKey repo)
    (coord.snapshotDocument buildNumber (events 2).now (events 3).now (events 3).later)

/-- The state in which an artifact is entered, before the index is made. -/
def entered (server : MavenServer) (repo path : String) (coord : Coordinate) (body : Bytes)
    (events : Nat → MavenEvent) (state : MavenState ι) : MavenState ι :=
  (if isSnapshotVersion coord.version then server.registered repo coord body events state
    else state).enter (buildKey repo path) (server.digestOf body)

/-- The state in which the index is made. -/
def indexed (repo : String) (coord : Coordinate) (now : DateTime) (state : MavenState ι) : MavenState ι :=
  state.cache (coord.indexKey repo) (.artifactIndex coord.groupId coord.artifactId
    (versionsOf (coord.entryStart repo) state.layout) now)

/-- The time of an index that was made alone. -/
def indexTime (coord : Coordinate) (events : Nat → MavenEvent) : DateTime :=
  if isSnapshotVersion coord.version then (events 6).now else (events 3).now

/-- The state after the upload of an artifact. -/
def uploaded (server : MavenServer) (repo path : String) (coord : Coordinate) (body : Bytes)
    (events : Nat → MavenEvent) (state : MavenState ι) : MavenState ι :=
  indexed repo coord (indexTime coord events) (server.entered repo path coord body events state)

/-- The answer to the upload of an artifact. -/
def uploadAnswer (server : MavenServer) (body : Bytes) : MavenAnswer :=
  .responded (storedResponse [("X-Checksum-Sha256", (server.digestOf body).hex)])

/-- Entering and indexing an upload changes no blob. -/
theorem blobs_uploaded : (server.uploaded repo path coord body events state).blobs = state.blobs := by
  rw [uploaded, indexed, entered]
  split <;> rfl

/-- Entering and indexing an upload locks nothing. -/
theorem writer_uploaded : (server.uploaded repo path coord body events state).writer = state.writer := by
  rw [uploaded, indexed, entered]
  split <;> rfl

/-- The paths under which an upload is entered. -/
def uploadPaths (repo path : String) (coord : Coordinate) (events : Nat → MavenEvent) (state : MavenState ι) :
    List String :=
  (if isSnapshotVersion coord.version then
    [coord.buildPath (events 2).now (state.nextBuild (coord.counterKey repo))] else []) ++ [path]

/-- An upload is entered under its paths, and nowhere else. -/
theorem layout_uploaded (key : String) : (server.uploaded repo path coord body events state).layout[key]? =
    if ∃ entry ∈ uploadPaths repo path coord events state, buildKey repo entry = key then
      some (server.digestOf body) else state.layout[key]? := by
  have entered : (server.uploaded repo path coord body events state).layout[key]? =
      ((if isSnapshotVersion coord.version then server.registered repo coord body events state
        else state).enter (buildKey repo path) (server.digestOf body)).layout[key]? := rfl
  rw [entered, MavenState.getElem?_enter, uploadPaths]
  by_cases snapshot : isSnapshotVersion coord.version = true
  · have registered : (server.registered repo coord body events state).layout[key]? = ((state.enter
        (buildKey repo (coord.buildPath (events 2).now (state.nextBuild (coord.counterKey repo))))
        (server.digestOf body))).layout[key]? := rfl
    rw [if_pos snapshot, if_pos snapshot, registered, MavenState.getElem?_enter]
    by_cases own : buildKey repo path = key <;> simp [own]
  · rw [if_neg snapshot, if_neg snapshot]
    simp

/-- An upload makes the index of its artifact, and no other one. -/
theorem index_uploaded {key : MetadataKey} (index : key.base = none) :
    (server.uploaded repo path coord body events state).metadata[key]? = if coord.indexKey repo = key then
        some (.artifactIndex coord.groupId coord.artifactId (versionsOf (coord.entryStart repo)
          (server.uploaded repo path coord body events state).layout) (indexTime coord events))
      else state.metadata[key]? := by
  have kept : (server.entered repo path coord body events state).metadata[key]? = state.metadata[key]? := by
    rw [entered]
    split
    · -- The document of a build has a version in its key.
      have other : coord.snapshotKey repo ≠ key := by
        rintro rfl
        cases index
      change (server.registered repo coord body events state).metadata[key]? = state.metadata[key]?
      rw [registered, MavenState.getElem?_cache, if_neg other]
      rfl
    · rfl
  rw [← kept, uploaded, indexed, MavenState.getElem?_cache]
  rfl

section Turns

variable (parsed : parseLayoutPath path = .ok ⟨coord, .artifact⟩) (event : MavenEvent)

include parsed

/-- The blob of an artifact is stored. -/
theorem handle_stores (checked : server.checkPom coord body = .ok ())
    (put : event.call (state.blobs.put server.hashes.store (server.digestOf body) body) = .ok blobs) :
    server.handle thread (.put repo path body) event state .ready =
      ({ state with blobs }, if isSnapshotVersion coord.version then .counting else .inserting) := by
  rw [handle_artifact parsed, putArtifact.eq_def]
  simp only [checked, put]

/-- A build gets its number. -/
theorem handle_counts : server.handle thread (.put repo path body) event state .counting =
    (state.count (coord.counterKey repo), .registering (state.nextBuild (coord.counterKey repo))) :=
  handle_artifact parsed event .counting

private theorem handle_announces (buildNumber : Nat) (stamp : DateTime) :
    server.handle thread (.put repo path body) event state (.announcing buildNumber stamp) =
      (state.cache (coord.snapshotKey repo)
        (coord.snapshotDocument buildNumber stamp event.now event.later), .inserting) :=
  handle_artifact parsed event (.announcing buildNumber stamp)

private theorem handle_indexes (versions : List String) :
    server.handle thread (.put repo path body) event state (.indexing versions) =
      (state.cache (coord.indexKey repo)
        (.artifactIndex coord.groupId coord.artifactId versions event.now),
        .answered (server.uploadAnswer body)) :=
  handle_artifact parsed event (.indexing versions)

variable (unlocked : state.writer = none)

include unlocked

/-- A build is entered. -/
theorem handle_registers (buildNumber : Nat) :
    server.handle thread (.put repo path body) event state (.registering buildNumber) =
      (state.enter (coord.timestampedKey event.now buildNumber repo) (server.digestOf body),
        .announcing buildNumber event.now) := by
  obtain ⟨timestamped, made, key⟩ := coord.exists_timestamped event.now buildNumber repo
  rw [handle_artifact parsed, putArtifact.eq_def]
  simp [made, key, unlocked]

private theorem handle_inserts :
    server.handle thread (.put repo path body) event state .inserting =
      (state.enter (buildKey repo path) (server.digestOf body), .scanning) := by
  rw [handle_artifact parsed, putArtifact.eq_def]
  simp [unlocked]

private theorem handle_scans :
    server.handle thread (.put repo path body) event state .scanning =
      (state, .indexing (versionsOf (coord.entryStart repo) state.layout)) := by
  rw [handle_artifact parsed, putArtifact.eq_def]
  simp [unlocked]

private theorem advance_inserting (first second third : MavenEvent) (rest : List MavenEvent) :
    server.advance thread (.put repo path body) (state, .inserting) (first :: second :: third :: rest) =
      (indexed repo coord third.now (state.enter (buildKey repo path) (server.digestOf body)),
        .answered (server.uploadAnswer body)) := by
  have free : (state.enter (buildKey repo path) (server.digestOf body)).writer = none := unlocked
  rw [advance_of_handle (handle_inserts parsed first unlocked) rfl,
    advance_of_handle (handle_scans parsed second free) rfl,
    advance_of_handle (handle_indexes parsed third _) rfl, advance_answered]
  rfl

private theorem advance_counting (rest : List MavenEvent) :
    server.advance thread (.put repo path body) (state, .counting) (events 1 :: events 2 :: events 3 :: rest) =
      server.advance thread (.put repo path body) (server.registered repo coord body events state, .inserting)
        rest := by
  have free : (state.count (coord.counterKey repo)).writer = none := unlocked
  rw [advance_of_handle (handle_counts parsed (events 1)) rfl,
    advance_of_handle (handle_registers parsed (events 2) free _) rfl,
    advance_of_handle (handle_announces parsed (events 3) _ _) rfl]
  rfl

end Turns

/-- An upload alone goes through all of its turns. -/
private theorem perform_upload (unlocked : state.writer = none)
    (parsed : parseLayoutPath path = .ok ⟨coord, .artifact⟩)
    (checked : server.checkPom coord body = .ok ())
    (put : (events 0).call (state.blobs.put server.hashes.store (server.digestOf body) body) = .ok blobs) :
    server.perform thread (.put repo path body) events state =
      (server.uploaded repo path coord body events { state with blobs }, .answered (server.uploadAnswer body)) := by
  rw [perform_eq, advance_of_handle (handle_stores parsed (events 0) checked put) rfl, uploaded, entered, indexTime]
  have free : ({ state with blobs } : MavenState ι).writer = none := unlocked
  generalize { state with blobs } = stored at free ⊢
  by_cases snapshot : isSnapshotVersion coord.version = true
  · have announced : (server.registered repo coord body events stored).writer = none := free
    rw [if_pos snapshot, if_pos snapshot, if_pos snapshot, advance_counting parsed free,
      advance_inserting parsed announced]
  · rw [if_neg snapshot, if_neg snapshot, if_neg snapshot, advance_inserting parsed free]

end Upload

section Download

variable {repo path : String} {coord : Coordinate} {algo : ChecksumAlgo} {withBody : Bool} {digest : Digest}

/-- A request that is answered in its first turn. -/
theorem perform_of_answered {after : MavenState ι} {answer : MavenAnswer}
    (handled : server.handle thread req (events 0) state .ready = (after, .answered answer)) :
    server.perform thread req events state = (after, .answered answer) := by
  rw [perform_eq, advance_of_handle handled rfl, advance_answered]

section Artifact

variable (unlocked : state.writer = none) (parsed : parseLayoutPath path = .ok ⟨coord, .artifact⟩)

include unlocked parsed

/-- There is nothing to download. -/
theorem perform_get_absent (absent : state.layout[buildKey repo path]? = none) :
    server.perform thread (.get repo path withBody) events state =
      (state, .answered (.refused (.notFound path))) := by
  apply perform_of_answered
  simp [handle, serve, parsed, serveArtifact, unlocked, absent]

/-- An artifact is downloaded from the blob of its entry. -/
theorem perform_get_artifact (found : state.layout[buildKey repo path]? = some digest) :
    server.perform thread (.get repo path withBody) events state =
      (state, .answered (server.fetchedArtifact coord digest withBody
        ((events 1).call (state.blobs.get digest)))) := by
  have looked : server.handle thread (.get repo path withBody) (events 0) state .ready =
      (state, .fetching digest) := by
    simp [handle, serve, parsed, serveArtifact, unlocked, found]
  have fetched : server.handle thread (.get repo path withBody) (events 1) state (.fetching digest) =
      (state, .answered (server.fetchedArtifact coord digest withBody
        ((events 1).call (state.blobs.get digest)))) := by
    simp only [handle, serve, parsed, serveArtifact]
  rw [perform_eq, advance_of_handle looked rfl, advance_of_handle fetched rfl, advance_answered]

end Artifact

/-- The error if there is no artifact for a checksum. -/
def noChecksum (algo : ChecksumAlgo) (path : String) : MavenError :=
  match stripSuffix ("." ++ algo.extension) path with
  | none => .notFound ("sidecar path " ++ path ++ " has no algo suffix")
  | some _ => .notFound path

section Checksum

variable (unlocked : state.writer = none) (parsed : parseLayoutPath path = .ok ⟨coord, .checksum algo⟩)

include unlocked parsed

/-- A sidecar that is stored is downloaded as it is. -/
theorem perform_get_sidecar (found : state.layout[buildKey repo path]? = some digest) :
    server.perform thread (.get repo path withBody) events state =
      (state, .answered (fetchedSidecar withBody ((events 1).call (state.blobs.get digest)))) := by
  have looked : server.handle thread (.get repo path withBody) (events 0) state .ready =
      (state, .fetching digest) := by
    simp [handle, serve, parsed, serveChecksum, unlocked, found]
  have fetched : server.handle thread (.get repo path withBody) (events 1) state (.fetching digest) =
      (state, .answered (fetchedSidecar withBody ((events 1).call (state.blobs.get digest)))) := by
    simp only [handle, serve, parsed, serveChecksum]
  rw [perform_eq, advance_of_handle looked rfl, advance_of_handle fetched rfl, advance_answered]

private theorem perform_get_lookingUp (absent : state.layout[buildKey repo path]? = none) :
    server.perform thread (.get repo path withBody) events state =
      server.advance thread (.get repo path withBody) (state, .lookingUp)
        [events 1, events 2, events 3, events 4, events 5, events 6] := by
  have looked : server.handle thread (.get repo path withBody) (events 0) state .ready = (state, .lookingUp) := by
    simp [handle, serve, parsed, serveChecksum, unlocked, absent]
  rw [perform_eq, advance_of_handle looked rfl]

/-- The checksum of a stored artifact is computed. -/
theorem perform_get_computed {mainPath : String} (absent : state.layout[buildKey repo path]? = none)
    (joined : path = mainPath ++ ("." ++ algo.extension))
    (found : state.layout[buildKey repo mainPath]? = some digest) :
    server.perform thread (.get repo path withBody) events state =
      (state, .answered (server.computedSidecar algo withBody ((events 2).call (state.blobs.get digest)))) := by
  have stripped := stripSuffix_eq_some_iff.mpr joined
  have looked : server.handle thread (.get repo path withBody) (events 1) state .lookingUp =
      (state, .computing digest) := by
    simp [handle, serve, parsed, serveChecksum, unlocked, stripped, found]
  have computed : server.handle thread (.get repo path withBody) (events 2) state (.computing digest) =
      (state, .answered (server.computedSidecar algo withBody ((events 2).call (state.blobs.get digest)))) := by
    simp only [handle, serve, parsed, serveChecksum]
  rw [perform_get_lookingUp unlocked parsed absent, advance_of_handle looked rfl,
    advance_of_handle computed rfl, advance_answered]

/-- Without the artifact there is no checksum. -/
theorem perform_get_no_checksum (absent : state.layout[buildKey repo path]? = none)
    (missing : ∀ mainPath, path = mainPath ++ ("." ++ algo.extension) →
      state.layout[buildKey repo mainPath]? = none) :
    server.perform thread (.get repo path withBody) events state =
      (state, .answered (.refused (noChecksum algo path))) := by
  rw [perform_get_lookingUp unlocked parsed absent]
  cases stripped : stripSuffix ("." ++ algo.extension) path with
  | none =>
    have looked : server.handle thread (.get repo path withBody) (events 1) state .lookingUp =
        (state, .answered (.refused (noChecksum algo path))) := by
      simp only [handle, serve, parsed, serveChecksum, stripped, noChecksum]
    rw [advance_of_handle looked rfl, advance_answered]
  | some mainPath =>
    have nothing := missing mainPath (stripSuffix_eq_some_iff.mp stripped)
    have looked : server.handle thread (.get repo path withBody) (events 1) state .lookingUp =
        (state, .answered (.refused (noChecksum algo path))) := by
      simp [handle, serve, parsed, serveChecksum, unlocked, stripped, nothing, noChecksum]
    rw [advance_of_handle looked rfl, advance_answered]

end Checksum

/-- A download from a path returns bytes, as long as the blob store does not fail. -/
def Serves (server : MavenServer) (state : MavenState ι) (repo path : String) (bytes : Bytes) : Prop :=
  ∀ (thread : ι) (events : Nat → MavenEvent), (∀ turn, (events turn).fault = none) →
    ∃ response, server.perform thread (.get repo path true) events state = (state, .answered (.responded response)) ∧
      response.status = 200 ∧ response.body = bytes

/-- What the entry of a path stands for is what is downloaded from there. -/
theorem serves_of_entry {layout : LayoutPath} {bytes : Bytes} (unlocked : state.writer = none)
    (parsed : parseLayoutPath path = .ok layout)
    (stored : ∀ versionLevel checksum, layout.pathClass ≠ .metadata versionLevel checksum)
    (found : state.layout[buildKey repo path]? = some digest) (blob : state.blobs.get digest = .ok bytes) :
    server.Serves state repo path bytes := by
  intro thread events faultless
  have fetched : (events 1).call (state.blobs.get digest) = .ok bytes := by
    simp only [MavenEvent.call, faultless 1, blob]
  obtain ⟨coord, pathClass⟩ := layout
  cases pathClass with
  | artifact =>
    refine ⟨buildArtifactResponse server.hashes coord digest bytes true, ?_, rfl, rfl⟩
    rw [perform_get_artifact unlocked parsed found, fetched]
    rfl
  | checksum algo =>
    refine ⟨buildRawResponse bytes true, ?_, rfl, rfl⟩
    rw [perform_get_sidecar unlocked parsed found, fetched]
    rfl
  | metadata versionLevel checksum => exact absurd rfl (stored versionLevel checksum)

/-- A document is downloaded as its text. -/
theorem serves_document {layout : LayoutPath} {versionLevel : Bool} {doc : MavenMetadata}
    (parsed : parseLayoutPath path = .ok layout) (addressed : layout.pathClass = .metadata versionLevel none)
    (cached : state.metadata[layout.metadataKey repo versionLevel]? = some doc) :
    server.Serves state repo path (textBytes doc.toXml) := by
  intro thread events _
  refine ⟨buildRawResponse (textBytes doc.toXml) true, perform_of_answered ?_, rfl, rfl⟩
  simp only [handle, serve, parsed, addressed, serveMetadata, loadMetadataXml, cached]

end Download

end MavenServer

/-- All that a request alone can do. -/
inductive Performs (server : MavenServer) (req : MavenRequest) (events : Nat → MavenEvent) (state : MavenState ι) :
    MavenState ι × MavenPoint → Prop
  | answers (answer : MavenAnswer)
    (quiet : (∃ repo path withBody, req = .get repo path withBody) ∨ ∃ error, answer = .refused error) :
    Performs server req events state (state, .answered answer)
  | uploads (repo path : String) (coord : Coordinate) (body : Bytes) (blobs : InMemoryBlobStore)
    (upload : req.Uploads repo path coord body) (checked : server.checkPom coord body = .ok ())
    (put : state.blobs.put server.hashes.store (server.digestOf body) body = .ok blobs) :
    Performs server req events state
      (server.uploaded repo path coord body events { state with blobs }, .answered (server.uploadAnswer body))
  | attaches (repo path mainPath declared : String) (algo : ChecksumAlgo) (body : Bytes) (blobs : InMemoryBlobStore)
    (attached : req.Attaches repo path algo body) (joined : path = mainPath ++ ("." ++ algo.extension))
    (parsed : parseSidecar algo body = .ok declared)
    (compared : ∀ digest, state.layout[buildKey repo mainPath]? = some digest →
      ∃ bytes, state.blobs.get digest = .ok bytes ∧ computeChecksum server.hashes algo bytes = some declared)
    (put : state.blobs.put server.hashes.store (server.digestOf body) body = .ok blobs) :
    Performs server req events state
      (({ state with blobs } : MavenState ι).enter (buildKey repo path) (server.digestOf body),
        .answered (.responded (storedResponse [])))
  | documents (repo path : String) (layout : LayoutPath) (versionLevel : Bool) (checksum : Option ChecksumAlgo)
    (body : Bytes) (doc : MavenMetadata) (asked : req = .put repo path body)
    (parsed : parseLayoutPath path = .ok layout) (addressed : layout.pathClass = .metadata versionLevel checksum) :
    Performs server req events state
      (state.cache (layout.metadataKey repo versionLevel) doc, .answered (.responded (storedResponse [])))
  | deletes (repo path : String) (digest : Digest) (blobs : InMemoryBlobStore) (answer : MavenAnswer)
    (asked : req = .delete repo path) (found : state.layout[buildKey repo path]? = some digest)
    (collected : blobs = state.blobs ∨ blobs = state.blobs.delete digest ∧
      ∀ key : String, (state.layout.erase (buildKey repo path))[key]? ≠ some digest) :
    Performs server req events state
      ({ state with blobs, layout := state.layout.erase (buildKey repo path) }, .answered answer)

/-- The upload of an artifact is refused, or entered and indexed. -/
theorem Performs.of_uploads {server : MavenServer} {req : MavenRequest} {events : Nat → MavenEvent}
    {state : MavenState ι} {result : MavenState ι × MavenPoint} {repo path : String} {coord : Coordinate}
    {body : Bytes} (performed : Performs server req events state result)
    (upload : req.Uploads repo path coord body) : (∃ error, result = (state, .answered (.refused error))) ∨
      ∃ blobs, state.blobs.put server.hashes.store (server.digestOf body) body = .ok blobs ∧
        result = (server.uploaded repo path coord body events { state with blobs },
          .answered (server.uploadAnswer body)) := by
  cases performed with
  | answers answer quiet =>
    rcases quiet with ⟨_, _, _, asked⟩ | ⟨error, rfl⟩
    · cases upload.asked.symm.trans asked
    · exact .inl ⟨error, rfl⟩
  | uploads _ _ _ _ blobs same checked put =>
    obtain ⟨rfl, rfl, rfl, rfl⟩ := upload.unique same
    exact .inr ⟨blobs, put, rfl⟩
  | attaches _ _ _ _ _ _ _ attached => exact absurd attached upload.not_attaches
  | documents _ _ _ _ _ _ _ asked parsed addressed => exact absurd addressed (upload.not_metadata asked parsed)
  | deletes _ _ _ _ _ asked => cases upload.asked.symm.trans asked

namespace MavenServer

section Performs

variable {server : MavenServer} {events : Nat → MavenEvent} {state : MavenState ι}

/-- A request that is refused has done nothing. -/
private theorem performs_of_refused {thread : ι} {req : MavenRequest} {error : MavenError}
    (done : server.perform thread req events state = (state, .answered (.refused error))) :
    Performs server req events state (server.perform thread req events state) := by
  rw [done]
  exact .answers _ (.inr ⟨error, rfl⟩)

private theorem performs_get (thread : ι) (unlocked : state.writer = none) (repo path : String) (withBody : Bool) :
    Performs server (.get repo path withBody) events state
      (server.perform thread (.get repo path withBody) events state) := by
  have answered {answer : MavenAnswer}
      (done : server.perform thread (.get repo path withBody) events state = (state, .answered answer)) :
      Performs server (.get repo path withBody) events state
        (server.perform thread (.get repo path withBody) events state) := by
    rw [done]
    exact .answers answer (.inl ⟨repo, path, withBody, rfl⟩)
  cases parsed : parseLayoutPath path with
  | error error =>
    have handled : server.handle thread (.get repo path withBody) (events 0) state .ready =
        (state, .answered (.refused error)) := by
      simp only [handle, serve, parsed]
    exact answered (perform_of_answered handled)
  | ok layout =>
    obtain ⟨coord, pathClass⟩ := layout
    cases pathClass with
    | artifact =>
      cases found : state.layout[buildKey repo path]? with
      | none => exact answered (perform_get_absent unlocked parsed found)
      | some digest => exact answered (perform_get_artifact unlocked parsed found)
    | checksum algo =>
      cases found : state.layout[buildKey repo path]? with
      | some digest => exact answered (perform_get_sidecar unlocked parsed found)
      | none =>
        by_cases stored : ∃ mainPath digest, path = mainPath ++ ("." ++ algo.extension) ∧
          state.layout[buildKey repo mainPath]? = some digest
        · obtain ⟨mainPath, digest, joined, main⟩ := stored
          exact answered (perform_get_computed unlocked parsed found joined main)
        · exact answered (perform_get_no_checksum unlocked parsed found fun mainPath joined =>
            Option.eq_none_iff_forall_ne_some.mpr fun digest main => stored ⟨mainPath, digest, joined, main⟩)
    | metadata versionLevel checksum =>
      -- Documents are served in one turn.
      obtain ⟨answer, handled⟩ : ∃ answer, server.handle thread (.get repo path withBody) (events 0) state .ready =
          (state, .answered answer) := by
        simp only [handle, serve, parsed, serveMetadata]
        split
        · exact ⟨_, rfl⟩
        · split
          · exact ⟨_, rfl⟩
          · split <;> exact ⟨_, rfl⟩
      exact answered (perform_of_answered handled)

section Attach

variable {thread : ι} {repo path : String} {coord : Coordinate} {algo : ChecksumAlgo} {body : Bytes}
  (sidecar : parseLayoutPath path = .ok ⟨coord, .checksum algo⟩)

include sidecar

private theorem advance_keeping (unlocked : state.writer = none) (first second : MavenEvent)
    (rest : List MavenEvent) :
    (∃ error, server.advance thread (.put repo path body) (state, .keeping) (first :: second :: rest) =
      (state, .answered (.refused error))) ∨
    ∃ blobs, state.blobs.put server.hashes.store (server.digestOf body) body = .ok blobs ∧
      server.advance thread (.put repo path body) (state, .keeping) (first :: second :: rest) =
        (({ state with blobs } : MavenState ι).enter (buildKey repo path) (server.digestOf body),
          .answered (.responded (storedResponse []))) := by
  cases put : first.call (state.blobs.put server.hashes.store (server.digestOf body) body) with
  | error error =>
    have keeping : server.handle thread (.put repo path body) first state .keeping =
        (state, .answered (.refused (.storage error))) := by
      simp only [handle, handlePut, sidecar, putChecksum, put]
    exact .inl ⟨_, by rw [advance_of_handle keeping rfl, advance_answered]⟩
  | ok blobs =>
    have keeping : server.handle thread (.put repo path body) first state .keeping =
        ({ state with blobs }, .linking) := by
      simp only [handle, handlePut, sidecar, putChecksum, put]
    have free : ({ state with blobs } : MavenState ι).writer = none := unlocked
    have linking (before : MavenState ι) (free : before.writer = none) :
        server.handle thread (.put repo path body) second before .linking =
          (before.enter (buildKey repo path) (server.digestOf body),
            .answered (.responded (storedResponse []))) := by
      simp [handle, handlePut, sidecar, putChecksum, free]
    refine .inr ⟨blobs, of_call_ok put, ?_⟩
    rw [advance_of_handle keeping rfl, advance_of_handle (linking _ free) rfl, advance_answered]

private theorem advance_verifying {declared : String} (parsed : parseSidecar algo body = .ok declared)
    (digest : Digest)
    (first : MavenEvent) (rest : List MavenEvent) :
    (∃ error, server.advance thread (.put repo path body) (state, .verifying digest) (first :: rest) =
      (state, .answered (.refused error))) ∨
    (∃ bytes, state.blobs.get digest = .ok bytes ∧ computeChecksum server.hashes algo bytes = some declared) ∧
      server.advance thread (.put repo path body) (state, .verifying digest) (first :: rest) =
        server.advance thread (.put repo path body) (state, .keeping) rest := by
  have turn : server.handle thread (.put repo path body) first state (.verifying digest) =
      server.putChecksum repo path algo body first state (.verifying digest) := by
    simp only [handle, handlePut, sidecar]
  have refused {error : MavenError}
      (verified : server.handle thread (.put repo path body) first state (.verifying digest) =
        (state, .answered (.refused error))) :
      ∃ error, server.advance thread (.put repo path body) (state, .verifying digest) (first :: rest) =
        (state, .answered (.refused error)) :=
    ⟨error, by rw [advance_of_handle verified rfl, advance_answered]⟩
  cases fetched : first.call (state.blobs.get digest) with
  | error error =>
    simp only [putChecksum, fetched] at turn
    exact .inl (refused turn)
  | ok bytes =>
    cases computed : computeChecksum server.hashes algo bytes with
    | none =>
      simp only [putChecksum, fetched, computed] at turn
      exact .inl (refused turn)
    | some actual =>
      simp only [putChecksum, fetched, computed, parsed] at turn
      by_cases same : actual = declared
      · rw [if_neg (not_not.mpr same)] at turn
        refine .inr ⟨⟨bytes, of_call_ok fetched, same ▸ computed⟩, ?_⟩
        rw [advance_of_handle turn rfl]
      · rw [if_pos same] at turn
        exact .inl (refused turn)

private theorem performs_attach (unlocked : state.writer = none) : Performs server (.put repo path body) events state
    (server.perform thread (.put repo path body) events state) := by
  have turn : server.handle thread (.put repo path body) (events 0) state .ready =
      server.putChecksum repo path algo body (events 0) state .ready := by
    simp only [handle, handlePut, sidecar]
  cases parsed : parseSidecar algo body with
  | error error =>
    simp only [putChecksum, parsed] at turn
    exact performs_of_refused (perform_of_answered turn)
  | ok declared =>
    cases stripped : stripSuffix ("." ++ algo.extension) path with
    | none =>
      simp only [putChecksum, parsed, stripped] at turn
      exact performs_of_refused (perform_of_answered turn)
    | some mainPath =>
      simp only [putChecksum, parsed, stripped, unlocked, Option.isSome_none, Bool.false_eq_true, if_false] at turn
      have joined := stripSuffix_eq_some_iff.mp stripped
      -- Once nothing speaks against the sidecar, it is kept and entered.
      have kept (compared : ∀ digest, state.layout[buildKey repo mainPath]? = some digest →
          ∃ bytes, state.blobs.get digest = .ok bytes ∧ computeChecksum server.hashes algo bytes = some declared)
          {first second : MavenEvent} {rest : List MavenEvent}
          (reached : server.perform thread (.put repo path body) events state =
            server.advance thread (.put repo path body) (state, .keeping) (first :: second :: rest)) :
          Performs server (.put repo path body) events state
            (server.perform thread (.put repo path body) events state) := by
        rcases advance_keeping sidecar unlocked first second rest with ⟨error, done⟩ | ⟨blobs, put, done⟩
        · exact performs_of_refused (reached.trans done)
        · rw [reached, done]
          exact .attaches repo path mainPath declared algo body blobs ⟨rfl, coord, sidecar⟩ joined parsed compared
            put
      cases found : state.layout[buildKey repo mainPath]? with
      | none =>
        rw [found] at turn
        have reached := perform_eq.trans (advance_of_handle turn rfl)
        refine kept ?_ reached
        intro digest there
        rw [found] at there
        cases there
      | some digest =>
        rw [found] at turn
        have reached := perform_eq.trans (advance_of_handle turn rfl)
        rcases advance_verifying sidecar parsed digest (events 1) _ with ⟨error, done⟩ | ⟨verified, done⟩
        · exact performs_of_refused (reached.trans done)
        · refine kept ?_ (reached.trans done)
          intro other there
          rw [found, Option.some.injEq] at there
          exact there ▸ verified

end Attach

private theorem performs_put (thread : ι) (unlocked : state.writer = none) (repo path : String) (body : Bytes) :
    Performs server (.put repo path body) events state
      (server.perform thread (.put repo path body) events state) := by
  have refused {error : MavenError}
      (handled : server.handle thread (.put repo path body) (events 0) state .ready =
        (state, .answered (.refused error))) := performs_of_refused (perform_of_answered handled)
  cases parsed : parseLayoutPath path with
  | error error =>
    apply @refused error
    simp only [handle, handlePut, parsed]
  | ok layout =>
    obtain ⟨coord, pathClass⟩ := layout
    cases pathClass with
    | artifact =>
      cases checked : server.checkPom coord body with
      | error error =>
        apply @refused error
        simp only [handle, handlePut, parsed, putArtifact, checked]
      | ok accepted =>
        cases put : (events 0).call (state.blobs.put server.hashes.store (server.digestOf body) body) with
        | error error =>
          apply @refused (.storage error)
          simp only [handle, handlePut, parsed, putArtifact, checked, put]
        | ok blobs =>
          rw [perform_upload unlocked parsed checked put]
          exact .uploads repo path coord body blobs ⟨rfl, parsed⟩ checked (of_call_ok put)
    | checksum algo => exact performs_attach parsed unlocked
    | metadata versionLevel checksum =>
      cases decoded : fromUtf8 body with
      | none =>
        apply @refused (.invalidMetadata "metadata body is not UTF-8")
        simp only [handle, handlePut, parsed, putMetadata, decoded]
      | some xml =>
        cases accepted : MavenMetadata.fromXml server.readMetadata xml with
        | error error =>
          apply @refused error
          simp only [handle, handlePut, parsed, putMetadata, decoded, accepted]
        | ok doc =>
          have handled : server.handle thread (.put repo path body) (events 0) state .ready =
              (state.cache ((⟨coord, .metadata versionLevel checksum⟩ : LayoutPath).metadataKey repo versionLevel)
                doc, .answered (.responded (storedResponse []))) := by
            simp only [handle, handlePut, parsed, putMetadata, decoded, accepted]
          rw [perform_of_answered handled]
          exact .documents repo path _ versionLevel checksum body doc rfl parsed rfl

/-- A deletion finds no entry, or removes it, with its blob or without. -/
theorem perform_delete (thread : ι) (unlocked : state.writer = none) (repo path : String) :
    state.layout[buildKey repo path]? = none ∧ server.perform thread (.delete repo path) events state =
        (state, .answered (.refused (.notFound path))) ∨
      ∃ digest blobs answer, state.layout[buildKey repo path]? = some digest ∧ (blobs = state.blobs ∨
          blobs = state.blobs.delete digest ∧
            ∀ key : String, (state.layout.erase (buildKey repo path))[key]? ≠ some digest) ∧
        server.perform thread (.delete repo path) events state =
          ({ state with blobs, layout := state.layout.erase (buildKey repo path) }, .answered answer) := by
  cases found : state.layout[buildKey repo path]? with
  | none =>
    have handled : server.handle thread (.delete repo path) (events 0) state .ready =
        (state, .answered (.refused (.notFound path))) := by
      simp [handle, handleDelete, unlocked, found]
    exact .inl ⟨rfl, perform_of_answered handled⟩
  | some digest =>
    by_cases shared : (((state.layout.erase (buildKey repo path)).toList.any fun entry =>
        decide (entry.2 = digest)) = true)
    · have handled : server.handle thread (.delete repo path) (events 0) state .ready =
          ({ state with layout := state.layout.erase (buildKey repo path) },
            .answered (.responded ⟨204, [], []⟩)) := by
        simp [handle, handleDelete, unlocked, found, shared]
      exact .inr ⟨digest, state.blobs, _, rfl, .inl rfl, perform_of_answered handled⟩
    · -- The lock is kept until the blob is gone, or could not be deleted.
      have locked : server.handle thread (.delete repo path) (events 0) state .ready =
          ({ state with layout := state.layout.erase (buildKey repo path), writer := some thread },
            .deleting digest) := by
        simp [handle, handleDelete, unlocked, found, shared]
      have last (key : String) : (state.layout.erase (buildKey repo path))[key]? ≠ some digest :=
        fun there => shared (any_toList_iff.mpr ⟨key, there⟩)
      have ended : ∃ blobs answer, (blobs = state.blobs ∨ blobs = state.blobs.delete digest) ∧
          server.handle thread (.delete repo path) (events 1)
            { state with layout := state.layout.erase (buildKey repo path), writer := some thread }
            (.deleting digest) =
          ({ state with blobs, layout := state.layout.erase (buildKey repo path), writer := none },
            .answered answer) := by
        simp only [handle, handleDelete]
        split
        · exact ⟨_, _, .inl rfl, rfl⟩
        · rename_i deleted
          cases of_call_ok deleted
          exact ⟨_, _, .inr rfl, rfl⟩
      obtain ⟨blobs, answer, collected, deleted⟩ := ended
      refine .inr ⟨digest, blobs, answer, rfl, collected.imp_right fun gone => ⟨gone, last⟩, ?_⟩
      rw [perform_eq, advance_of_handle locked rfl, advance_of_handle deleted rfl, advance_answered, ← unlocked]

private theorem performs_delete (thread : ι) (unlocked : state.writer = none) (repo path : String) :
    Performs server (.delete repo path) events state (server.perform thread (.delete repo path) events state) := by
  rcases perform_delete thread unlocked repo path with ⟨_, done⟩ | ⟨digest, blobs, answer, found, collected, done⟩
  · exact performs_of_refused done
  · rw [done]
    exact .deletes repo path digest blobs answer rfl found collected

/-- Every request alone does one of these things. -/
theorem performs (server : MavenServer) (thread : ι) (req : MavenRequest) (events : Nat → MavenEvent)
    {state : MavenState ι} (unlocked : state.writer = none) :
    Performs server req events state (server.perform thread req events state) := by
  cases req with
  | get repo path withBody => exact performs_get thread unlocked repo path withBody
  | put repo path body => exact performs_put thread unlocked repo path body
  | delete repo path => exact performs_delete thread unlocked repo path

end Performs

end MavenServer

/-- What a request uploads. -/
def MavenRequest.upload : MavenRequest → Option Bytes
  | .put _ _ body => some body
  | .get _ _ _ | .delete _ _ => none

/-- A request, and what the environment decides about its turns. -/
structure MavenCall where
  request : MavenRequest
  events : Nat → MavenEvent

namespace MavenServer

section Calls

variable (server : MavenServer) (thread : ι)

/-- The state after a request alone. -/
def afterCall (state : MavenState ι) (call : MavenCall) : MavenState ι :=
  (server.perform thread call.request call.events state).1

/-- The state after requests one after the other. -/
def afterCalls (state : MavenState ι) (calls : List MavenCall) : MavenState ι :=
  calls.foldl (server.afterCall thread) state

/-- One more request. -/
theorem afterCalls_concat (state : MavenState ι) (calls : List MavenCall) (call : MavenCall) :
    server.afterCalls thread state (calls ++ [call]) =
      server.afterCall thread (server.afterCalls thread state calls) call := by
  rw [afterCalls, List.foldl_append]
  rfl

/-- A request alone leaves nothing locked. -/
theorem writer_afterCall {state : MavenState ι} (unlocked : state.writer = none) (call : MavenCall) :
    (server.afterCall thread state call).writer = none := by
  rw [afterCall]
  have performed := server.performs thread call.request call.events unlocked
  generalize server.perform thread call.request call.events state = result at performed ⊢
  cases performed with
  | answers | attaches | documents | deletes => exact unlocked
  | uploads repo path coord body blobs => exact writer_uploaded.trans unlocked

/-- The upload of an artifact that is accepted. -/
def Accepts (state : MavenState ι) (call : MavenCall) : Prop :=
  (∃ repo path coord body, call.request.Uploads repo path coord body) ∧
    ∃ response, (server.perform thread call.request call.events state).2 = .answered (.responded response)

/-- What an accepted upload does. -/
theorem Accepts.uploaded {server : MavenServer} {thread : ι} {state : MavenState ι} {call : MavenCall}
    (accepted : server.Accepts thread state call) (unlocked : state.writer = none) :
    ∃ repo path coord body blobs, call.request.Uploads repo path coord body ∧
      state.blobs.put server.hashes.store (server.digestOf body) body = .ok blobs ∧
      server.afterCall thread state call =
        server.uploaded repo path coord body call.events { state with blobs } := by
  obtain ⟨⟨repo, path, coord, body, upload⟩, response, answered⟩ := accepted
  have performed := server.performs thread call.request call.events unlocked
  rw [afterCall]
  generalize server.perform thread call.request call.events state = result at performed answered ⊢
  rcases performed.of_uploads upload with ⟨error, rfl⟩ | ⟨blobs, put, rfl⟩
  · cases answered
  · exact ⟨repo, path, coord, body, blobs, upload, put, rfl⟩

end Calls

/-- SHA-1, with the digests of a few inputs. -/
def sha1Table : Sha1 where
  hash bytes := bytesOf 20 <| match bytes with
    | [] => 0xda39a3ee5e6b4b0d3255bfef95601890afd80709
    | [1] => 0xbf8b4530d8d246dd74ac53a13471bba17941dff7
    | [1, 2] => 0x0ca623e2855f2c75c842ad302fe820e41b4d197d
    | _ => 0
  sized _ := length_bytesOf 20 _

/-- A repository that knows a few digests and reads no XML. -/
def sample : MavenServer where
  hashes := ⟨sha1Table, .table⟩
  readPom := fun _ => .failed "no XML"
  readMetadata := fun _ => .failed "no XML"

end MavenServer

/-- A turn at the first second of the year 2026. -/
def MavenEvent.sample : MavenEvent where
  now := ⟨2026, 1, 1, 0, 0, 0, by decide⟩
  later := ⟨2026, 1, 1, 0, 0, 0, by decide⟩

/-- The upload of a file to one repository, at that moment. -/
def deploy (path : String) (body : Bytes) : MavenCall := ⟨.put "releases" path body, fun _ => .sample⟩

/-- A release. -/
def demo : Coordinate where
  groupId := "org"
  artifactId := "demo"
  version := "1.0"
  classifier := none
  extension := "jar"
  group := (validateField_ok_iff "groupId" _).mp (by decide)
  artifact := (validateField_ok_iff "artifactId" _).mp (by decide)
  versioned := (validateField_ok_iff "version" _).mp (by decide)
  extended := (validateField_ok_iff "extension" _).mp (by decide)
  classified := nofun

/-- What the release was before. -/
def demoSnapshot : Coordinate where
  groupId := "org"
  artifactId := "demo"
  version := "1.0-SNAPSHOT"
  classifier := none
  extension := "jar"
  group := demo.group
  artifact := demo.artifact
  versioned := (validateField_ok_iff "version" "1.0-SNAPSHOT").mp (by decide)
  extended := demo.extended
  classified := demo.classified

/-- What its builds are counted under. -/
def demoCounter : CounterKey := demoSnapshot.counterKey "releases"

/-- Turns of two requests. -/
def turnsOf (threads : List (Fin 2)) : List (Fin 2 × MavenEvent) := threads.map fun thread => (thread, .sample)

open MavenServer

/-- A deletion that fails leaves the layout as it was exactly if there was no entry to delete. -/
theorem failed_delete_unchanged_iff {ι : Type} {server : MavenServer} {thread : ι} {events : Nat → MavenEvent}
    {state after : MavenState ι} {repo path : String} {error : MavenError} (unlocked : state.writer = none)
    (failed : server.perform thread (.delete repo path) events state = (after, .answered (.refused error))) :
    after.layout = state.layout ↔ state.layout[buildKey repo path]? = none := by
  rcases perform_delete thread unlocked repo path with ⟨absent, done⟩ | ⟨digest, blobs, answer, found, _, done⟩
  · cases done.symm.trans failed
    exact ⟨fun _ => absent, fun _ => rfl⟩
  · cases done.symm.trans failed
    refine ⟨fun same => ?_, fun absent => by cases found.symm.trans absent⟩
    rw [← same]
    simp

/-- A deletion of what is not there fails and leaves what is. -/
theorem failed_delete_unchanged_absent :
    let stored := sample.afterCalls () (MavenState.new Unit) [deploy "org/demo/1.0/demo-1.0.jar" [1]]
    let failed := sample.perform () (.delete "releases" "org/demo/2.0/demo-2.0.jar") (fun _ => .sample) stored
    failed.1.layout = stored.layout ∧
      stored.layout[buildKey "releases" "org/demo/1.0/demo-1.0.jar"]? = some (sample.digestOf [1]) := by
  intro stored failed
  obtain ⟨unlocked, absent, kept, refused⟩ : stored.writer = none ∧
      stored.layout[buildKey "releases" "org/demo/2.0/demo-2.0.jar"]? = none ∧
      stored.layout[buildKey "releases" "org/demo/1.0/demo-1.0.jar"]? = some (sample.digestOf [1]) ∧
      failed.2 = .answered (.refused (.notFound "org/demo/2.0/demo-2.0.jar")) := by
    decide +kernel
  exact ⟨(failed_delete_unchanged_iff unlocked (Prod.ext rfl refused)).mpr absent, kept⟩

/-- A deletion that fails in the blob store has removed the entry. -/
theorem failed_delete_loses_entry :
    let stored := sample.afterCalls () (MavenState.new Unit) [deploy "org/demo/1.0/demo-1.0.jar" [1]]
    let failed := sample.perform () (.delete "releases" "org/demo/1.0/demo-1.0.jar")
      (fun _ => { MavenEvent.sample with fault := some (.io ⟨.other, "disk"⟩) }) stored
    stored.layout[buildKey "releases" "org/demo/1.0/demo-1.0.jar"]? = some (sample.digestOf [1]) ∧
      failed.2 = .answered (.refused (.storage (.io ⟨.other, "disk"⟩))) ∧
      failed.1.layout[buildKey "releases" "org/demo/1.0/demo-1.0.jar"]? = none := by
  decide +kernel

end FerroProtocols.Maven
