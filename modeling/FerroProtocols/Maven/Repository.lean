import FerroProtocols.Lib.Interleaving
import FerroProtocols.Maven.Layout
import FerroProtocols.Maven.Metadata
import Mathlib.Data.List.Destutter
import Mathlib.Data.List.Sort

/-! The requests of a Maven repository, one turn at a time. A handler takes the lock of one map after the
other and calls the blob store in between; only a `DELETE` keeps a lock over a call of the blob store. -/

namespace FerroProtocols.Maven

open BlobStore Std Texts

/-- What the documents and the build numbers of an artifact are kept under. -/
structure ArtifactKey (β : Type) where
  repo : String
  groupPath : String
  artifactId : String
  base : β
  deriving DecidableEq

namespace ArtifactKey

variable {β : Type} [Ord β]

/-- Keys are compared field by field. -/
def compareKeys : ArtifactKey β → ArtifactKey β → Ordering :=
  compareLex (compareOn repo) (compareLex (compareOn groupPath)
    (compareLex (compareOn artifactId) (compareOn base)))

/-- Keys in the order of their fields. -/
instance instOrd : Ord (ArtifactKey β) := ⟨compareKeys⟩

/-- The order of the fields is transitive. -/
instance instTransOrd [TransOrd β] : TransOrd (ArtifactKey β) :=
  inferInstanceAs (TransCmp (compareLex (compareOn repo) (compareLex (compareOn groupPath)
    (compareLex (compareOn artifactId) (compareOn base)))))

/-- Only a key itself has the same fields. -/
instance instLawfulEqOrd [TransOrd β] [LawfulEqOrd β] : LawfulEqOrd (ArtifactKey β) where
  compare_self := ReflCmp.compare_self
  eq_of_compare := by
    intro left right same
    change compareKeys left right = .eq at same
    simp only [compareKeys, compareLex_eq_eq, compareOn, LawfulEqCmp.compare_eq_iff_eq] at same
    obtain ⟨sameRepo, sameGroup, sameArtifact, sameBase⟩ := same
    cases left
    cases sameRepo
    cases sameGroup
    cases sameArtifact
    cases sameBase
    rfl

end ArtifactKey

/-- The key of a document; the index of an artifact has no version. -/
abbrev MetadataKey := ArtifactKey (Option String)

/-- Documents are looked up by the order of their keys. -/
instance instTransOrdMetadataKey : TransOrd MetadataKey := ArtifactKey.instTransOrd

/-- The key of a counter of builds. -/
abbrev CounterKey := ArtifactKey String

/-- The number of values of a build number. -/
def buildNumberModulus : Nat := 2 ^ 32

/-- What all requests share; the lock of the layout is given by the request that keeps it. -/
structure MavenState (ι : Type) where
  blobs : InMemoryBlobStore
  layout : ExtTreeMap String Digest
  metadata : ExtTreeMap MetadataKey MavenMetadata
  snapshotCounter : ExtTreeMap CounterKey Nat
  writer : Option ι

namespace MavenState

variable {ι : Type} (state : MavenState ι)

/-- The state with an entry in the layout. -/
def enter (key : String) (digest : Digest) : MavenState ι := { state with layout := state.layout.insert key digest }

/-- The state with a document. -/
def cache (key : MetadataKey) (doc : MavenMetadata) : MavenState ι :=
  { state with metadata := state.metadata.insert key doc }

/-- The entries with one more, or another one. -/
theorem getElem?_enter (key other : String) (digest : Digest) :
    (state.enter key digest).layout[other]? = if key = other then some digest else state.layout[other]? := by
  simp only [enter, ExtTreeMap.getElem?_insert, LawfulEqCmp.compare_eq_iff_eq]

/-- The documents with one more, or another one. -/
theorem getElem?_cache (key other : MetadataKey) (doc : MavenMetadata) :
    (state.cache key doc).metadata[other]? = if key = other then some doc else state.metadata[other]? := by
  simp only [cache, ExtTreeMap.getElem?_insert, LawfulEqCmp.compare_eq_iff_eq]

/-- The number of the next build. -/
def nextBuild (key : CounterKey) : Nat := (state.snapshotCounter[key]?.getD 0 + 1) % buildNumberModulus

/-- The state in which a build has its number. -/
def count (key : CounterKey) : MavenState ι :=
  { state with snapshotCounter := state.snapshotCounter.insert key (state.nextBuild key) }

/-- The counters with one that has gone on. -/
theorem getElem?_count (key other : CounterKey) : (state.count key).snapshotCounter[other]? =
    if key = other then some (state.nextBuild key) else state.snapshotCounter[other]? := by
  simp only [count, ExtTreeMap.getElem?_insert, LawfulEqCmp.compare_eq_iff_eq]

end MavenState

/-- A request. -/
inductive MavenRequest where
  -- A `HEAD` is answered as a `GET` without the body.
  | get (repo path : String) (withBody : Bool)
  | put (repo path : String) (body : Bytes)
  | delete (repo path : String)

/-- A response that is not an error. -/
structure Response where
  status : Nat
  headers : List (String × String)
  body : Bytes
  deriving DecidableEq

/-- How a request is answered. -/
inductive MavenAnswer where
  | responded (response : Response)
  | refused (error : MavenError)
  deriving DecidableEq

/-- What a request does next. -/
inductive MavenPoint where
  | ready
  -- The blob of an artifact is stored: the number of a build, its timestamped entry and its document come first.
  | counting
  | registering (buildNumber : Nat)
  | announcing (buildNumber : Nat) (stamp : DateTime)
  | inserting
  -- The index is made from the entries that are found.
  | scanning
  | indexing (versions : List String)
  -- A sidecar is compared with its artifact, kept as a blob, and entered.
  | verifying (digest : Digest)
  | keeping
  | linking
  -- The entry is gone, and the lock is kept until the blob is gone too.
  | deleting (digest : Digest)
  -- A download of what was found, or of the checksum of the artifact instead.
  | fetching (digest : Digest)
  | lookingUp
  | computing (digest : Digest)
  | answered (answer : MavenAnswer)
  deriving DecidableEq

/-- What the environment decides about a turn: two readings of the clock, and whether the blob store fails. -/
structure MavenEvent where
  now : DateTime
  later : DateTime
  fault : Option BlobStoreError := none

/-- What a call to the blob store returns; a call that fails does nothing. -/
def MavenEvent.call {α : Type} (event : MavenEvent) (result : Except BlobStoreError α) : Except BlobStoreError α :=
  match event.fault with
  | some error => .error error
  | none => result

/-- The key of a path in the layout. -/
def buildKey (repo path : String) : String := repo ++ "/" ++ path

namespace Coordinate

/-- The path of a file next to the one of a coordinate. -/
def pathTo (coord : Coordinate) (name : String) : String :=
  coord.groupPath ++ "/" ++ coord.artifactId ++ "/" ++ coord.version ++ "/" ++ name

/-- The coordinate of a build. -/
def timestamped (coord : Coordinate) (time : DateTime) (buildNumber : Nat) :
    Except CoordinateParseError Coordinate :=
  new coord.groupId coord.artifactId (time.composeVersion coord.version buildNumber)
    coord.classifier coord.extension

/-- What the builds of a SNAPSHOT version are counted under. -/
def counterKey (coord : Coordinate) (repo : String) : CounterKey :=
  ⟨repo, coord.groupPath, coord.artifactId, baseVersion coord.version⟩

/-- What the document of a SNAPSHOT version is kept under. -/
def snapshotKey (coord : Coordinate) (repo : String) : MetadataKey :=
  ⟨repo, coord.groupPath, coord.artifactId, some (baseVersion coord.version)⟩

/-- What the index of an artifact is kept under. -/
def indexKey (coord : Coordinate) (repo : String) : MetadataKey :=
  ⟨repo, coord.groupPath, coord.artifactId, none⟩

/-- What the entries of an artifact begin with. -/
def entryStart (coord : Coordinate) (repo : String) : String :=
  repo ++ "/" ++ coord.groupPath ++ "/" ++ coord.artifactId ++ "/"

/-- The document of a build, with the file that was uploaded for it and no other. -/
def snapshotDocument (coord : Coordinate) (buildNumber : Nat) (stamp updated lastUpdated : DateTime) :
    MavenMetadata :=
  .snapshotMetadata coord.groupId coord.artifactId coord.version ⟨stamp.format, buildNumber⟩
    [⟨coord.classifier, coord.extension, stamp.composeVersion coord.version buildNumber,
      updated.formatLastUpdated⟩] lastUpdated

end Coordinate

namespace LayoutPath

/-- What the document of a path is kept under. -/
def metadataKey (layout : LayoutPath) (repo : String) (versionLevel : Bool) : MetadataKey :=
  if versionLevel then layout.coordinate.snapshotKey repo else layout.coordinate.indexKey repo

end LayoutPath

/-- The version of an entry that begins with a text: what follows up to the next slash. -/
def entryVersion (start key : String) : Option String :=
  match stripPrefix start key with
  | some tail => (splitOnce '/' tail).map Prod.fst
  | none => none

/-- The versions of all entries that begin with a text, in order and without repetitions. -/
def versionsOf (start : String) (layout : ExtTreeMap String Digest) : List String :=
  ((layout.keys.filterMap (entryVersion start)).insertionSort fun left right => left ≤ right).destutter
    fun left right => left ≠ right

section Responses

/-- The media type of an artifact. -/
def contentType (extension : String) : String :=
  if extension = "pom" ∨ extension = "xml" then "application/xml"
  else if extension = "jar" ∨ extension = "war" ∨ extension = "ear" then "application/java-archive"
  else if extension = "tar.gz" ∨ extension = "tgz" then "application/gzip"
  else if extension = "zip" then "application/zip"
  else "application/octet-stream"

/-- The response to the download of an artifact. -/
def buildArtifactResponse (hashes : ChecksumHashes) (coord : Coordinate) (digest : Digest) (bytes : Bytes)
    (withBody : Bool) : Response where
  status := 200
  headers := [("content-type", contentType coord.extension), ("content-length", toString bytes.length),
      ("etag", "\"sha256:" ++ digest.hex ++ "\""), ("X-Checksum-Sha256", digest.hex)] ++
    (computeChecksum hashes .sha1 bytes).toList.map fun sha1 => ("X-Checksum-Sha1", sha1)
  body := if withBody then bytes else []

/-- The response with a checksum that was computed. -/
def buildSidecarResponse (hex : String) (withBody : Bool) : Response where
  status := 200
  headers := [("content-type", "text/plain; charset=utf-8")]
  body := if withBody then textBytes hex else []

/-- The response with bytes as they are. -/
def buildRawResponse (bytes : Bytes) (withBody : Bool) : Response where
  status := 200
  headers := [("content-type", "application/xml"), ("content-length", toString bytes.length)]
  body := if withBody then bytes else []

/-- The response to an upload. -/
def storedResponse (headers : List (String × String)) : Response := ⟨201, headers, textBytes "stored"⟩

end Responses

/-- A repository: its hash functions, and the XML library. -/
structure MavenServer where
  hashes : ChecksumHashes
  readPom : String → XmlOutcome RawPom
  readMetadata : String → XmlOutcome RawMetadata

namespace MavenServer

variable {ι : Type} (server : MavenServer)

/-- The digest blobs are stored under. -/
def digestOf (body : Bytes) : Digest := Digest.sha256Of server.hashes.store.sha256 body

/-- The coordinate a POM must have: the one of its path. -/
def checkPom (coord : Coordinate) (body : Bytes) : Except MavenError Unit :=
  if coord.extension = "pom" then
    match fromUtf8 body with
    | none => .error (.invalidPom "POM body is not UTF-8")
    | some text =>
      match parsePom server.readPom text with
      | .error error => .error error
      | .ok pom =>
        if pom.groupId ≠ coord.groupId ∨ pom.artifactId ≠ coord.artifactId ∨
            pom.version ≠ coord.version then
          .error (.coordinateMismatch ("POM says " ++ pom.groupId ++ ":" ++ pom.artifactId ++ ":" ++ pom.version ++
            ", URL says " ++ coord.groupId ++ ":" ++ coord.artifactId ++ ":" ++ coord.version))
        else .ok ()
  else .ok ()

/-- One turn of the upload of an artifact. -/
def putArtifact (repo path : String) (coord : Coordinate) (body : Bytes) (event : MavenEvent)
    (state : MavenState ι) : MavenPoint → MavenState ι × MavenPoint
  | .ready =>
    match server.checkPom coord body with
    | .error error => (state, .answered (.refused error))
    | .ok () =>
      match event.call (state.blobs.put server.hashes.store (server.digestOf body) body) with
      | .error error => (state, .answered (.refused (.storage error)))
      | .ok blobs =>
        ({ state with blobs }, if isSnapshotVersion coord.version then .counting else .inserting)
  | .counting =>
    (state.count (coord.counterKey repo), .registering (state.nextBuild (coord.counterKey repo)))
  | .registering buildNumber =>
    match coord.timestamped event.now buildNumber with
    | .error error => (state, .answered (.refused (.invalidPath error.text)))
    | .ok timestamped =>
      -- The lock is awaited.
      if state.writer.isSome then (state, .registering buildNumber)
      else
        let key := buildKey repo (coord.pathTo timestamped.filename)
        (state.enter key (server.digestOf body), .announcing buildNumber event.now)
  | .announcing buildNumber stamp =>
    let doc := coord.snapshotDocument buildNumber stamp event.now event.later
    (state.cache (coord.snapshotKey repo) doc, .inserting)
  | .inserting =>
    if state.writer.isSome then (state, .inserting)
    else (state.enter (buildKey repo path) (server.digestOf body), .scanning)
  | .scanning =>
    if state.writer.isSome then (state, .scanning)
    else (state, .indexing (versionsOf (coord.entryStart repo) state.layout))
  | .indexing versions =>
    let doc := MavenMetadata.artifactIndex coord.groupId coord.artifactId versions event.now
    (state.cache (coord.indexKey repo) doc,
      .answered (.responded (storedResponse [("X-Checksum-Sha256", (server.digestOf body).hex)])))
  | point => (state, point)

/-- One turn of the upload of a sidecar. -/
def putChecksum (repo path : String) (algo : ChecksumAlgo) (body : Bytes) (event : MavenEvent)
    (state : MavenState ι) : MavenPoint → MavenState ι × MavenPoint
  | .ready =>
    match parseSidecar algo body with
    | .error error => (state, .answered (.refused error))
    | .ok _ =>
      match stripSuffix ("." ++ algo.extension) path with
      | none => (state, .answered (.refused (.invalidPath "sidecar without algo suffix")))
      | some mainPath =>
        if state.writer.isSome then (state, .ready)
        else
          match state.layout[buildKey repo mainPath]? with
          | some digest => (state, .verifying digest)
          -- The artifact may still come.
          | none => (state, .keeping)
  | .verifying digest =>
    match event.call (state.blobs.get digest) with
    | .error error => (state, .answered (.refused (.storage error)))
    | .ok bytes =>
      match computeChecksum server.hashes algo bytes with
      | none => (state, .answered (.refused (.checksumMismatch ("cannot compute " ++ algo.debugName))))
      | some actual =>
        match parseSidecar algo body with
        | .error error => (state, .answered (.refused error))
        | .ok declared =>
          if actual ≠ declared then
            (state, .answered (.refused (.checksumMismatch ("declared " ++ declared ++ ", actual " ++ actual))))
          else (state, .keeping)
  | .keeping =>
    match event.call (state.blobs.put server.hashes.store (server.digestOf body) body) with
    | .error error => (state, .answered (.refused (.storage error)))
    | .ok blobs => ({ state with blobs }, .linking)
  | .linking =>
    if state.writer.isSome then (state, .linking)
    else (state.enter (buildKey repo path) (server.digestOf body), .answered (.responded (storedResponse [])))
  | point => (state, point)

/-- The upload of a document; the uploads of its sidecars are handled alike. -/
def putMetadata (repo : String) (layout : LayoutPath) (versionLevel : Bool) (body : Bytes) (state : MavenState ι) :
    MavenPoint → MavenState ι × MavenPoint
  | .ready =>
    match fromUtf8 body with
    | none => (state, .answered (.refused (.invalidMetadata "metadata body is not UTF-8")))
    | some xml =>
      match MavenMetadata.fromXml server.readMetadata xml with
      | .error error => (state, .answered (.refused error))
      | .ok doc =>
        (state.cache (layout.metadataKey repo versionLevel) doc, .answered (.responded (storedResponse [])))
  | point => (state, point)

/-- One turn of a `PUT`. -/
def handlePut (repo path : String) (body : Bytes) (event : MavenEvent) (state : MavenState ι) (point : MavenPoint) :
    MavenState ι × MavenPoint :=
  match parseLayoutPath path with
  | .error error => (state, .answered (.refused error))
  | .ok layout =>
    match layout.pathClass with
    | .artifact => server.putArtifact repo path layout.coordinate body event state point
    | .checksum algo => server.putChecksum repo path algo body event state point
    | .metadata versionLevel _ => server.putMetadata repo layout versionLevel body state point

/-- The answer with the blob of an artifact. -/
def fetchedArtifact (coord : Coordinate) (digest : Digest) (withBody : Bool) :
    Except BlobStoreError Bytes → MavenAnswer
  | .error error => .refused (.storage error)
  | .ok bytes => .responded (buildArtifactResponse server.hashes coord digest bytes withBody)

/-- The answer with the blob of a sidecar. -/
def fetchedSidecar (withBody : Bool) : Except BlobStoreError Bytes → MavenAnswer
  | .error error => .refused (.storage error)
  | .ok bytes => .responded (buildRawResponse bytes withBody)

/-- The answer with the checksum of the blob of an artifact. -/
def computedSidecar (algo : ChecksumAlgo) (withBody : Bool) : Except BlobStoreError Bytes → MavenAnswer
  | .error error => .refused (.storage error)
  | .ok bytes =>
    match computeChecksum server.hashes algo bytes with
    | none => .refused (.checksumMismatch ("cannot compute " ++ algo.debugName ++ " on the fly"))
    | some hex => .responded (buildSidecarResponse hex withBody)

/-- One turn of the download of an artifact. -/
def serveArtifact (repo path : String) (coord : Coordinate) (withBody : Bool) (event : MavenEvent)
    (state : MavenState ι) : MavenPoint → MavenState ι × MavenPoint
  | .ready =>
    if state.writer.isSome then (state, .ready)
    else
      match state.layout[buildKey repo path]? with
      | none => (state, .answered (.refused (.notFound path)))
      | some digest => (state, .fetching digest)
  | .fetching digest =>
    (state, .answered (server.fetchedArtifact coord digest withBody (event.call (state.blobs.get digest))))
  | point => (state, point)

/-- One turn of the download of a sidecar. -/
def serveChecksum (repo path : String) (algo : ChecksumAlgo) (withBody : Bool) (event : MavenEvent)
    (state : MavenState ι) : MavenPoint → MavenState ι × MavenPoint
  | .ready =>
    if state.writer.isSome then (state, .ready)
    else
      match state.layout[buildKey repo path]? with
      | some digest => (state, .fetching digest)
      | none => (state, .lookingUp)
  | .fetching digest => (state, .answered (fetchedSidecar withBody (event.call (state.blobs.get digest))))
  -- The checksum is computed from the artifact.
  | .lookingUp =>
    match stripSuffix ("." ++ algo.extension) path with
    | none => (state, .answered (.refused (.notFound ("sidecar path " ++ path ++ " has no algo suffix"))))
    | some mainPath =>
      if state.writer.isSome then (state, .lookingUp)
      else
        match state.layout[buildKey repo mainPath]? with
        | none => (state, .answered (.refused (.notFound path)))
        | some digest => (state, .computing digest)
  | .computing digest =>
    (state, .answered (server.computedSidecar algo withBody (event.call (state.blobs.get digest))))
  | point => (state, point)

/-- The text of the document of a path. -/
def loadMetadataXml (repo : String) (layout : LayoutPath) (versionLevel : Bool) (state : MavenState ι) :
    Except MavenError Bytes :=
  match state.metadata[layout.metadataKey repo versionLevel]? with
  | none => .error (.notFound ("no maven-metadata.xml for " ++ layout.coordinate.groupPath ++ "/" ++
      layout.coordinate.artifactId))
  | some doc => .ok (textBytes doc.toXml)

/-- The download of a document, or of the checksum of its text. -/
def serveMetadata (repo : String) (layout : LayoutPath) (versionLevel : Bool) (checksum : Option ChecksumAlgo)
    (withBody : Bool) (state : MavenState ι) : MavenPoint → MavenState ι × MavenPoint
  | .ready =>
    match loadMetadataXml repo layout versionLevel state with
    | .error error => (state, .answered (.refused error))
    | .ok bytes =>
      match checksum with
      | none => (state, .answered (.responded (buildRawResponse bytes withBody)))
      | some algo =>
        match computeChecksum server.hashes algo bytes with
        | none => (state, .answered (.refused (.checksumMismatch ("cannot compute " ++ algo.debugName ++
            " for maven-metadata.xml"))))
        | some hex => (state, .answered (.responded (buildSidecarResponse hex withBody)))
  | point => (state, point)

/-- One turn of a `GET` or a `HEAD`. -/
def serve (repo path : String) (withBody : Bool) (event : MavenEvent) (state : MavenState ι) (point : MavenPoint) :
    MavenState ι × MavenPoint :=
  match parseLayoutPath path with
  | .error error => (state, .answered (.refused error))
  | .ok layout =>
    match layout.pathClass with
    | .artifact => server.serveArtifact repo path layout.coordinate withBody event state point
    | .checksum algo => server.serveChecksum repo path algo withBody event state point
    | .metadata versionLevel checksum => server.serveMetadata repo layout versionLevel checksum withBody state point

/-- One turn of a `DELETE`. -/
def handleDelete (thread : ι) (repo path : String) (event : MavenEvent) (state : MavenState ι) :
    MavenPoint → MavenState ι × MavenPoint
  | .ready =>
    if state.writer.isSome then (state, .ready)
    else
      match state.layout[buildKey repo path]? with
      | none => (state, .answered (.refused (.notFound path)))
      | some digest =>
        let layout := state.layout.erase (buildKey repo path)
        if layout.toList.any fun entry => decide (entry.2 = digest) then
          ({ state with layout }, .answered (.responded ⟨204, [], []⟩))
        else ({ state with layout, writer := some thread }, .deleting digest)
  | .deleting digest =>
    match event.call (.ok (state.blobs.delete digest)) with
    | .error error => ({ state with writer := none }, .answered (.refused (.storage error)))
    | .ok blobs => ({ state with blobs, writer := none }, .answered (.responded ⟨204, [], []⟩))
  | point => (state, point)

/-- One turn of a request that is not answered yet. -/
def handle (thread : ι) (req : MavenRequest) (event : MavenEvent) (state : MavenState ι) (point : MavenPoint) :
    MavenState ι × MavenPoint :=
  match req with
  | .get repo path withBody => server.serve repo path withBody event state point
  | .put repo path body => server.handlePut repo path body event state point
  | .delete repo path => handleDelete thread repo path event state point

/-- One turn of a request. -/
def step (thread : ι) (req : MavenRequest) (event : MavenEvent) (state : MavenState ι) :
    MavenPoint → MavenState ι × MavenPoint
  | .answered answer => (state, .answered answer)
  | point => server.handle thread req event state point

/-- The requests as threads that take turns. -/
def program (reqs : ι → MavenRequest) : Interleaving.Program ι (MavenState ι) MavenPoint MavenEvent :=
  fun thread event state point => server.step thread (reqs thread) event state point

end MavenServer

/-- A repository without anything in it. -/
def MavenState.new (ι : Type) : MavenState ι := ⟨.new, ∅, ∅, ∅, none⟩

/-- All requests before their first turn. -/
def MavenState.start {ι : Type} (state : MavenState ι) : Interleaving.State ι (MavenState ι) MavenPoint :=
  ⟨state, fun _ => .ready⟩

end FerroProtocols.Maven
