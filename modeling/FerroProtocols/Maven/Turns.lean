import FerroProtocols.Maven.Repository

/-! What a turn of a request can do: every branch of the handlers is one of the moves below. -/

namespace FerroProtocols.Maven

open BlobStore Std Texts

/-- An upload of an artifact. -/
structure MavenRequest.Uploads (req : MavenRequest) (repo path : String) (coord : Coordinate)
    (body : Bytes) : Prop where
  asked : req = .put repo path body
  parsed : parseLayoutPath path = .ok ⟨coord, .artifact⟩

/-- An upload of a sidecar. -/
structure MavenRequest.Attaches (req : MavenRequest) (repo path : String) (algo : ChecksumAlgo)
    (body : Bytes) : Prop where
  asked : req = .put repo path body
  parsed : ∃ coord, parseLayoutPath path = .ok ⟨coord, .checksum algo⟩

namespace MavenRequest

/-- What the build is counted under that a request uploads. -/
def counter : MavenRequest → Option CounterKey
  | .put repo path _ =>
    match parseLayoutPath path with
    | .ok ⟨coord, .artifact⟩ =>
      if isSnapshotVersion coord.version then some (coord.counterKey repo) else none
    | _ => none
  | _ => none

/-- Only uploads of SNAPSHOT versions are counted. -/
theorem counter_eq_some_iff {req : MavenRequest} {key : CounterKey} : req.counter = some key ↔
    ∃ repo path coord body, req.Uploads repo path coord body ∧
      isSnapshotVersion coord.version = true ∧ coord.counterKey repo = key := by
  constructor
  · intro counted
    unfold counter at counted
    split at counted
    · rename_i repo path body
      split at counted
      · rename_i coord parsed
        split at counted
        · rename_i snapshot
          exact ⟨repo, path, coord, body, ⟨rfl, parsed⟩, snapshot, Option.some.inj counted⟩
        · cases counted
      · cases counted
    · cases counted
  · rintro ⟨repo, path, coord, body, ⟨rfl, parsed⟩, snapshot, rfl⟩
    simp [counter, parsed, snapshot]

end MavenRequest

/-- The lock of the layout is kept for a blob that goes. -/
def MavenPoint.Holds : MavenPoint → Prop
  | .deleting _ => True
  | _ => False

/-- A download goes on, or ends. -/
def MavenPoint.Reads : MavenPoint → Prop
  | .fetching _ | .lookingUp | .computing _ | .answered _ => True
  | _ => False

namespace Coordinate

variable (coord : Coordinate) (time : DateTime) (buildNumber : Nat)

/-- The name of a file of a build. -/
def timestampedFilename : String :=
  filenameOf coord.artifactId (time.composeVersion coord.version buildNumber) coord.classifier
    coord.extension

/-- The path of a file of a build. -/
def buildPath : String := coord.pathTo (coord.timestampedFilename time buildNumber)

/-- The entry of a file of a build. -/
def timestampedKey (repo : String) : String := buildKey repo (coord.buildPath time buildNumber)

/-- A build always has a coordinate. -/
theorem exists_timestamped (repo : String) : ∃ timestamped, coord.timestamped time buildNumber = .ok timestamped ∧
    buildKey repo (coord.pathTo timestamped.filename) = coord.timestampedKey time buildNumber repo := by
  -- Only the version is another one, and it passes the checks as the version of the upload does.
  have versioned := time.isField_composeVersion buildNumber coord.versioned
  refine ⟨⟨coord.groupId, coord.artifactId, _, coord.classifier, coord.extension,
    coord.group, coord.artifact, versioned, coord.extended, coord.classified⟩, ?_, rfl⟩
  exact new_eq_ok_iff.mpr ⟨rfl, rfl, rfl, rfl, rfl⟩

end Coordinate

variable {ι : Type}

/-- All that a turn of the upload of an artifact can do. -/
inductive UploadMoves (server : MavenServer) (repo path : String) (coord : Coordinate) (body : Bytes)
    (event : MavenEvent) (state : MavenState ι) (point : MavenPoint) : MavenState ι × MavenPoint → Prop
  -- The lock is awaited, or the upload has ended.
  | stays : UploadMoves server repo path coord body event state point (state, point)
  | refuses (error : MavenError) (ready : point = .ready) :
    UploadMoves server repo path coord body event state point (state, .answered (.refused error))
  | stores (blobs : InMemoryBlobStore) (ready : point = .ready) (checked : server.checkPom coord body = .ok ())
    (put : state.blobs.put server.hashes.store (server.digestOf body) body = .ok blobs) :
    UploadMoves server repo path coord body event state point
      ({ state with blobs }, if isSnapshotVersion coord.version then .counting else .inserting)
  | counts (counting : point = .counting) :
    UploadMoves server repo path coord body event state point (state.count (coord.counterKey repo),
      .registering (state.nextBuild (coord.counterKey repo)))
  | registers (buildNumber : Nat) (registering : point = .registering buildNumber) (unlocked : state.writer = none) :
    UploadMoves server repo path coord body event state point
      (state.enter (coord.timestampedKey event.now buildNumber repo) (server.digestOf body),
        .announcing buildNumber event.now)
  | announces (buildNumber : Nat) (stamp : DateTime) (announcing : point = .announcing buildNumber stamp) :
    UploadMoves server repo path coord body event state point
      (state.cache (coord.snapshotKey repo)
        (coord.snapshotDocument buildNumber stamp event.now event.later), .inserting)
  | inserts (inserting : point = .inserting) (unlocked : state.writer = none) :
    UploadMoves server repo path coord body event state point
      (state.enter (buildKey repo path) (server.digestOf body), .scanning)
  | scans (scanning : point = .scanning) (unlocked : state.writer = none) :
    UploadMoves server repo path coord body event state point
      (state, .indexing (versionsOf (coord.entryStart repo) state.layout))
  | indexes (versions : List String) (indexing : point = .indexing versions) :
    UploadMoves server repo path coord body event state point
      (state.cache (coord.indexKey repo)
        (.artifactIndex coord.groupId coord.artifactId versions event.now),
        .answered (.responded (storedResponse [("X-Checksum-Sha256", (server.digestOf body).hex)])))

/-- All that a turn can do. -/
inductive Moves (server : MavenServer) (req : MavenRequest) (thread : ι) (event : MavenEvent)
    (state : MavenState ι) (point : MavenPoint) : MavenState ι × MavenPoint → Prop
  -- The lock is awaited, or the request has ended.
  | stays : Moves server req thread event state point (state, point)
  | refuses (error : MavenError) (free : point.Holds → ∀ repo path, req ≠ .delete repo path) :
    Moves server req thread event state point (state, .answered (.refused error))
  | reads (repo path : String) (withBody : Bool) (next : MavenPoint) (asked : req = .get repo path withBody)
    (reading : next.Reads) : Moves server req thread event state point (state, next)
  | stores (repo path : String) (coord : Coordinate) (body : Bytes) (blobs : InMemoryBlobStore)
    (ready : point = .ready) (upload : req.Uploads repo path coord body)
    (checked : server.checkPom coord body = .ok ())
    (put : state.blobs.put server.hashes.store (server.digestOf body) body = .ok blobs) :
    Moves server req thread event state point
      ({ state with blobs }, if isSnapshotVersion coord.version then .counting else .inserting)
  | counts (repo path : String) (coord : Coordinate) (body : Bytes) (counting : point = .counting)
    (upload : req.Uploads repo path coord body) :
    Moves server req thread event state point (state.count (coord.counterKey repo),
      .registering (state.nextBuild (coord.counterKey repo)))
  | registers (repo path : String) (coord : Coordinate) (body : Bytes) (buildNumber : Nat)
    (registering : point = .registering buildNumber) (upload : req.Uploads repo path coord body)
    (unlocked : state.writer = none) :
    Moves server req thread event state point
      (state.enter (coord.timestampedKey event.now buildNumber repo) (server.digestOf body),
        .announcing buildNumber event.now)
  | announces (repo path : String) (coord : Coordinate) (body : Bytes) (buildNumber : Nat) (stamp : DateTime)
    (announcing : point = .announcing buildNumber stamp) (upload : req.Uploads repo path coord body) :
    Moves server req thread event state point
      (state.cache (coord.snapshotKey repo)
        (coord.snapshotDocument buildNumber stamp event.now event.later), .inserting)
  | inserts (repo path : String) (coord : Coordinate) (body : Bytes) (inserting : point = .inserting)
    (upload : req.Uploads repo path coord body) (unlocked : state.writer = none) :
    Moves server req thread event state point
      (state.enter (buildKey repo path) (server.digestOf body), .scanning)
  | scans (repo path : String) (coord : Coordinate) (body : Bytes) (scanning : point = .scanning)
    (upload : req.Uploads repo path coord body) (unlocked : state.writer = none) :
    Moves server req thread event state point
      (state, .indexing (versionsOf (coord.entryStart repo) state.layout))
  | indexes (repo path : String) (coord : Coordinate) (body : Bytes) (versions : List String)
    (indexing : point = .indexing versions) (upload : req.Uploads repo path coord body) :
    Moves server req thread event state point
      (state.cache (coord.indexKey repo)
        (.artifactIndex coord.groupId coord.artifactId versions event.now),
        .answered (.responded (storedResponse [("X-Checksum-Sha256", (server.digestOf body).hex)])))
  | compares (repo path mainPath declared : String) (algo : ChecksumAlgo) (body : Bytes) (digest : Digest)
    (ready : point = .ready) (attached : req.Attaches repo path algo body)
    (joined : path = mainPath ++ ("." ++ algo.extension)) (parsed : parseSidecar algo body = .ok declared)
    (found : state.layout[buildKey repo mainPath]? = some digest) :
    Moves server req thread event state point (state, .verifying digest)
  -- There is no artifact to compare the sidecar with.
  | stages (repo path mainPath declared : String) (algo : ChecksumAlgo) (body : Bytes) (ready : point = .ready)
    (attached : req.Attaches repo path algo body) (joined : path = mainPath ++ ("." ++ algo.extension))
    (parsed : parseSidecar algo body = .ok declared) (absent : state.layout[buildKey repo mainPath]? = none) :
    Moves server req thread event state point (state, .keeping)
  | verifies (repo path declared : String) (algo : ChecksumAlgo) (body bytes : Bytes) (digest : Digest)
    (verifying : point = .verifying digest) (attached : req.Attaches repo path algo body)
    (parsed : parseSidecar algo body = .ok declared) (found : state.blobs.get digest = .ok bytes)
    (matched : computeChecksum server.hashes algo bytes = some declared) :
    Moves server req thread event state point (state, .keeping)
  | keeps (repo path : String) (algo : ChecksumAlgo) (body : Bytes) (blobs : InMemoryBlobStore)
    (keeping : point = .keeping) (attached : req.Attaches repo path algo body)
    (put : state.blobs.put server.hashes.store (server.digestOf body) body = .ok blobs) :
    Moves server req thread event state point ({ state with blobs }, .linking)
  | links (repo path : String) (algo : ChecksumAlgo) (body : Bytes) (linking : point = .linking)
    (attached : req.Attaches repo path algo body) (unlocked : state.writer = none) :
    Moves server req thread event state point
      (state.enter (buildKey repo path) (server.digestOf body), .answered (.responded (storedResponse [])))
  | documents (repo path : String) (layout : LayoutPath) (versionLevel : Bool) (checksum : Option ChecksumAlgo)
    (body : Bytes) (xml : String) (doc : MavenMetadata) (ready : point = .ready)
    (asked : req = .put repo path body) (parsed : parseLayoutPath path = .ok layout)
    (addressed : layout.pathClass = .metadata versionLevel checksum) (decoded : fromUtf8 body = some xml)
    (accepted : MavenMetadata.fromXml server.readMetadata xml = .ok doc) :
    Moves server req thread event state point
      (state.cache (layout.metadataKey repo versionLevel) doc, .answered (.responded (storedResponse [])))
  -- The entry goes; its blob stays for another entry.
  | unlinks (repo path : String) (digest : Digest) (ready : point = .ready) (asked : req = .delete repo path)
    (unlocked : state.writer = none) (found : state.layout[buildKey repo path]? = some digest)
    (shared : ∃ key : String, (state.layout.erase (buildKey repo path))[key]? = some digest) :
    Moves server req thread event state point
      ({ state with layout := state.layout.erase (buildKey repo path) }, .answered (.responded ⟨204, [], []⟩))
  | locks (repo path : String) (digest : Digest) (ready : point = .ready) (asked : req = .delete repo path)
    (unlocked : state.writer = none) (found : state.layout[buildKey repo path]? = some digest)
    (last : ∀ key : String, (state.layout.erase (buildKey repo path))[key]? ≠ some digest) :
    Moves server req thread event state point
      ({ state with layout := state.layout.erase (buildKey repo path), writer := some thread }, .deleting digest)
  | drops (repo path : String) (digest : Digest) (deleting : point = .deleting digest)
    (asked : req = .delete repo path) :
    Moves server req thread event state point
      ({ state with blobs := state.blobs.delete digest, writer := none }, .answered (.responded ⟨204, [], []⟩))
  | fails (repo path : String) (digest : Digest) (error : BlobStoreError) (deleting : point = .deleting digest)
    (asked : req = .delete repo path) (failed : event.fault = some error) :
    Moves server req thread event state point
      ({ state with writer := none }, .answered (.refused (.storage error)))

/-- The moves of an upload are moves. -/
theorem UploadMoves.moves {server : MavenServer} {req : MavenRequest} {thread : ι} {repo path : String}
    {coord : Coordinate} {body : Bytes} {event : MavenEvent} {state : MavenState ι} {point : MavenPoint}
    {result : MavenState ι × MavenPoint} (move : UploadMoves server repo path coord body event state point result)
    (upload : req.Uploads repo path coord body) : Moves server req thread event state point result := by
  cases move with
  | stays => exact .stays
  | refuses error ready => exact .refuses error fun held => (ready ▸ held : MavenPoint.ready.Holds).elim
  | stores blobs ready checked put => exact .stores repo path coord body blobs ready upload checked put
  | counts counting => exact .counts repo path coord body counting upload
  | registers buildNumber registering unlocked =>
    exact .registers repo path coord body buildNumber registering upload unlocked
  | announces buildNumber stamp announcing =>
    exact .announces repo path coord body buildNumber stamp announcing upload
  | inserts inserting unlocked => exact .inserts repo path coord body inserting upload unlocked
  | scans scanning unlocked => exact .scans repo path coord body scanning upload unlocked
  | indexes versions indexing => exact .indexes repo path coord body versions indexing upload

/-- A request has been answered. -/
def MavenPoint.isAnswered : MavenPoint → Bool
  | .answered _ => true
  | _ => false

namespace MavenServer

variable {server : MavenServer} {thread : ι} {req : MavenRequest} {event : MavenEvent} {state : MavenState ι}
  {point : MavenPoint}

/-- A call that has returned something has not failed. -/
theorem of_call_ok {α : Type} {result : Except BlobStoreError α} {value : α}
    (returned : event.call result = .ok value) :
    result = .ok value := by
  unfold MavenEvent.call at returned
  split at returned
  · cases returned
  · exact returned

private theorem writer_eq_none (free : ¬ state.writer.isSome = true) : state.writer = none := by simpa using free

variable {repo path : String} {body : Bytes} {coord : Coordinate}

private theorem free_of_put (asked : req = .put repo path body) :
    point.Holds → ∀ repo path, req ≠ .delete repo path := by
  rw [asked]
  exact nofun

private theorem putArtifact_moves (server : MavenServer) (repo path : String) (coord : Coordinate) (body : Bytes)
    (event : MavenEvent) (state : MavenState ι) (point : MavenPoint) :
    UploadMoves server repo path coord body event state point
      (server.putArtifact repo path coord body event state point) := by
  unfold putArtifact
  split
  · -- Nothing is stored of a POM that does not fit.
    split
    · exact .refuses _ rfl
    · rename_i checked
      split
      · exact .refuses _ rfl
      · rename_i put
        exact .stores _ rfl checked (of_call_ok put)
  · exact .counts rfl
  · rename_i buildNumber
    -- A build always has a coordinate, and so it is not refused any more.
    obtain ⟨timestamped, made, key⟩ := coord.exists_timestamped event.now buildNumber repo
    rw [made]
    dsimp only
    split
    · exact .stays
    · rename_i unlocked
      rw [key]
      exact .registers buildNumber rfl (writer_eq_none unlocked)
  · exact .announces _ _ rfl
  · split
    · exact .stays
    · rename_i unlocked
      exact .inserts rfl (writer_eq_none unlocked)
  · split
    · exact .stays
    · rename_i unlocked
      exact .scans rfl (writer_eq_none unlocked)
  · exact .indexes _ rfl
  · exact .stays

private theorem putChecksum_moves {algo : ChecksumAlgo} (attached : req.Attaches repo path algo body) :
    Moves server req thread event state point (server.putChecksum repo path algo body event state point) := by
  have refused (error : MavenError) : Moves server req thread event state point
      (state, .answered (.refused error)) :=
    .refuses error (free_of_put attached.asked)
  unfold putChecksum
  split
  · split
    · exact refused _
    · rename_i declared parsed
      split
      · exact refused _
      · rename_i mainPath stripped
        have joined := stripSuffix_eq_some_iff.mp stripped
        split
        · exact .stays
        · split
          · exact .compares repo path mainPath declared algo body _ rfl attached joined parsed (by assumption)
          · exact .stages repo path mainPath declared algo body rfl attached joined parsed (by assumption)
  · split
    · exact refused _
    · rename_i bytes fetched
      split
      · exact refused _
      · rename_i actual computed
        split
        · exact refused _
        · rename_i declared parsed
          split
          · exact refused _
          · rename_i same
            rw [not_not] at same
            exact .verifies repo path declared algo body bytes _ rfl attached parsed (of_call_ok fetched)
              (same ▸ computed)
  · split
    · exact refused _
    · rename_i put
      exact .keeps repo path algo body _ rfl attached (of_call_ok put)
  · split
    · exact .stays
    · rename_i unlocked
      exact .links repo path algo body rfl attached (writer_eq_none unlocked)
  · exact .stays

private theorem handlePut_moves (thread : ι) (repo path : String) (body : Bytes) :
    Moves server (.put repo path body) thread event state point
      (server.handlePut repo path body event state point) := by
  unfold handlePut
  split
  · exact .refuses _ (free_of_put rfl)
  · rename_i layout parsed
    obtain ⟨coord, pathClass⟩ := layout
    cases pathClass with
    | artifact => exact (server.putArtifact_moves repo path coord body event state point).moves ⟨rfl, parsed⟩
    | checksum algo => exact putChecksum_moves ⟨rfl, _, parsed⟩
    | metadata versionLevel checksum =>
      dsimp only
      unfold putMetadata
      split
      · split
        · exact .refuses _ (free_of_put rfl)
        · rename_i xml decoded
          split
          · exact .refuses _ (free_of_put rfl)
          · rename_i doc accepted
            exact .documents repo path _ versionLevel checksum body xml doc rfl rfl parsed rfl decoded accepted
      · exact .stays

private theorem serve_moves (thread : ι) (repo path : String) (withBody : Bool) :
    Moves server (.get repo path withBody) thread event state point
      (server.serve repo path withBody event state point) := by
  have free : point.Holds → ∀ other file, MavenRequest.get repo path withBody ≠ .delete other file := nofun
  have read (next : MavenPoint) (reading : next.Reads) :
      Moves server (.get repo path withBody) thread event state point (state, next) :=
    .reads repo path withBody next rfl reading
  unfold serve
  split
  · exact .refuses _ free
  · rename_i layout parsed
    split
    · unfold serveArtifact
      split
      · split
        · exact .stays
        · split <;> exact read _ trivial
      · exact read _ trivial
      · exact .stays
    · unfold serveChecksum
      split
      · split
        · exact .stays
        · split <;> exact read _ trivial
      · exact read _ trivial
      · split
        · exact read _ trivial
        · split
          · exact .stays
          · split <;> exact read _ trivial
      · exact read _ trivial
      · exact .stays
    · unfold serveMetadata
      split
      · split
        · exact read _ trivial
        · split
          · exact read _ trivial
          · split <;> exact read _ trivial
      · exact .stays

/-- The scan of a deletion finds an entry with the digest, if there is one. -/
theorem any_toList_iff {layout : ExtTreeMap String Digest} {digest : Digest} :
    (layout.toList.any fun entry => decide (entry.2 = digest)) = true ↔ ∃ key :
    String, layout[key]? = some digest := by
  rw [List.any_eq_true]
  constructor
  · rintro ⟨entry, member, same⟩
    rw [← of_decide_eq_true same]
    exact ⟨entry.1, ExtTreeMap.mem_toList_iff_getElem?_eq_some.mp member⟩
  · rintro ⟨key, there⟩
    exact ⟨(key, digest), ExtTreeMap.mem_toList_iff_getElem?_eq_some.mpr there, decide_eq_true rfl⟩

private theorem handleDelete_moves (server : MavenServer) (thread : ι) (repo path : String) :
    Moves server (.delete repo path) thread event state point (handleDelete thread repo path event state point) := by
  unfold handleDelete
  split
  · split
    · exact .stays
    · rename_i unlocked
      split
      · exact .refuses _ (fun held => held.elim)
      · rename_i digest found
        dsimp only
        split
        · rename_i shared
          exact .unlinks repo path digest rfl rfl (writer_eq_none unlocked) found (any_toList_iff.mp shared)
        · rename_i last
          exact .locks repo path digest rfl rfl (writer_eq_none unlocked) found
            fun key there => last (any_toList_iff.mpr ⟨key, there⟩)
  · rename_i digest
    split
    · rename_i error failed
      refine .fails repo path digest error rfl rfl ?_
      unfold MavenEvent.call at failed
      split at failed
      · cases failed
        assumption
      · cases failed
    · rename_i blobs deleted
      cases of_call_ok deleted
      exact .drops repo path digest rfl rfl
  · exact .stays

/-- A request that is not answered yet is handled. -/
theorem step_of_pending (pending : point.isAnswered = false) :
    server.step thread req event state point = server.handle thread req event state point := by
  unfold step
  split
  · cases pending
  · rfl

/-- Every turn is one of the moves. -/
theorem step_moves (server : MavenServer) (thread : ι) (req : MavenRequest) (event : MavenEvent)
    (state : MavenState ι) (point : MavenPoint) :
    Moves server req thread event state point (server.step thread req event state point) := by
  unfold step
  split
  · exact .stays
  · unfold handle
    split
    · exact serve_moves thread _ _ _
    · exact handlePut_moves thread _ _ _
    · exact handleDelete_moves server thread _ _

/-- A turn of the upload of an artifact. -/
theorem handle_artifact
    (parsed : parseLayoutPath path = .ok ⟨coord, .artifact⟩) (event : MavenEvent) (point : MavenPoint) :
    server.handle thread (.put repo path body) event state point =
      server.putArtifact repo path coord body event state point := by
  change server.handlePut repo path body event state point = _
  rw [handlePut, parsed]

/-- Every turn of the upload of an artifact is one of its moves. -/
theorem step_uploadMoves (server : MavenServer) (thread : ι) (event : MavenEvent) (state : MavenState ι)
    (point : MavenPoint) (upload : req.Uploads repo path coord body) :
    UploadMoves server repo path coord body event state point (server.step thread req event state point) := by
  unfold step
  split
  · exact .stays
  · rw [upload.asked, handle_artifact upload.parsed]
    exact server.putArtifact_moves repo path coord body event state _

end MavenServer

section Uploads

variable {req : MavenRequest} {repo path repo' path' : String} {coord : Coordinate} {body body' : Bytes}
  (upload : req.Uploads repo path coord body)

include upload

/-- A request uploads one artifact to one path. -/
theorem MavenRequest.Uploads.unique {coordinate' : Coordinate}
    (other : req.Uploads repo' path' coordinate' body') :
    repo = repo' ∧ path = path' ∧ coord = coordinate' ∧ body = body' := by
  obtain ⟨rfl, rfl, rfl⟩ := MavenRequest.put.inj (upload.asked.symm.trans other.asked)
  cases upload.parsed.symm.trans other.parsed
  exact ⟨rfl, rfl, rfl, rfl⟩

/-- An artifact is not a sidecar. -/
theorem MavenRequest.Uploads.not_attaches {algo : ChecksumAlgo} : ¬ req.Attaches repo' path' algo body' := by
  rintro ⟨asked, other, parsed⟩
  obtain ⟨rfl, rfl, rfl⟩ := MavenRequest.put.inj (upload.asked.symm.trans asked)
  cases upload.parsed.symm.trans parsed

/-- An artifact is not a document. -/
theorem MavenRequest.Uploads.not_metadata {layout : LayoutPath} {versionLevel : Bool}
    {checksum : Option ChecksumAlgo}
    (asked : req = .put repo' path' body') (parsed : parseLayoutPath path' = .ok layout) :
    layout.pathClass ≠ .metadata versionLevel checksum := by
  obtain ⟨rfl, rfl, rfl⟩ := MavenRequest.put.inj (upload.asked.symm.trans asked)
  cases upload.parsed.symm.trans parsed
  exact nofun

end Uploads

end FerroProtocols.Maven
