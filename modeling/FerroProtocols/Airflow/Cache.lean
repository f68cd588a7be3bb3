import FerroProtocols.Airflow.Markers
import FerroProtocols.Lib.Moments

/-! The cache of parsed files, and the calls that share it: one turn for each look at a file or at the table. -/

namespace FerroProtocols.Airflow

open Std Links Interleaving

section Outcomes

/-- What decides how a call goes on besides the files: whether the threads of the parser can be started, the
time, and what a directory has for a time and a size. -/
structure Turn where
  extractSpawn : Option String
  markerSpawn : Option String
  now : Nat
  directory : Nat × Nat

/-- What a file has been parsed as. -/
structure ParseOutcome where
  dags : List ExtractedDag
  dynamicMarkers : List DynamicMarker
  sourceHash : UInt64
  parsedAt : Nat
  sourcePath : Option RawPath

/-- Parse a source; patterns that cannot be detected count as none. -/
def parseDagFile (ruff : Ruff) (turn : Turn) (path : RawPath) (source : String) (hash : UInt64) :
    Except ParseError ParseOutcome := do
  let dags ← extractAll ruff turn.extractSpawn source
  let dynamicMarkers := (detectDynamicMarkers ruff turn.markerSpawn source).toOption.getD []
  .ok ⟨dags, dynamicMarkers, hash, turn.now, some path⟩

/-- The hash of a source, byte by byte. -/
def hashSource (source : String) : UInt64 :=
  (asBytes source).foldl (fun hash byte => (hash ^^^ byte.toUInt64) * 0x100000001b3) 0xcbf29ce484222325

end Outcomes

section Files

/-- The time of the last change of a file, in nanoseconds, and its size. -/
structure FileFingerprint where
  mtimeNs : Nat
  size : Nat
  deriving DecidableEq, Repr

/-- A file: when it was changed, unless that is unknown or too long ago, and its bytes. -/
structure SourceFile where
  modified : Option Nat
  bytes : List UInt8

/-- The fingerprint of a file. -/
def SourceFile.fingerprint (file : SourceFile) : FileFingerprint := ⟨file.modified.getD 0, file.bytes.length⟩

/-- The text of a file, if it is one. -/
def SourceFile.text (file : SourceFile) : Option String := String.fromUTF8? ⟨file.bytes.toArray⟩

/-- The file at a place. -/
def fileAt (fs : FileSystem SourceFile) (place : List String) : Option SourceFile :=
  match fs.nodes[place]? with
  | some (.file file) => some file
  | _ => none

/-- The fingerprint of what a path leads to. -/
def metadata (turn : Turn) (fs : FileSystem SourceFile) (path : RawPath) : Option FileFingerprint :=
  (fs.resolve path).map fun place =>
    match fileAt fs place with
    | some file => file.fingerprint
    | none => ⟨turn.directory.1, turn.directory.2⟩

/-- The text of the file that a path leads to. -/
def readToString (fs : FileSystem SourceFile) (path : RawPath) : Option String :=
  (fs.resolve path).bind fun place => (fileAt fs place).bind SourceFile.text

/-- The canonical path, and the path itself if it leads nowhere. -/
def canonicalise (fs : FileSystem SourceFile) (path : RawPath) : RawPath := (fs.canonicalize path).getD path

end Files

/-- What is kept of a file that has been parsed. -/
structure CacheEntry where
  sourceHash : UInt64
  fingerprint : FileFingerprint
  outcome : ParseOutcome

/-- The files, and the table of the cache by the components of paths. -/
structure Shared where
  fs : FileSystem SourceFile
  inner : ExtTreeMap (List String) CacheEntry

/-- What a thread is to do. -/
inductive CacheRequest where
  | getOrParse (path : RawPath)
  | invalidate (path : RawPath)
  | clear
  | rewrite (place : List String) (file : SourceFile)

/-- How far a thread has come. -/
inductive CachePoint where
  | ready
  | located (key : RawPath)
  | statted (key : RawPath) (fingerprint : FileFingerprint)
  | missed (key : RawPath) (fingerprint : FileFingerprint)
  | loaded (key : RawPath) (fingerprint : FileFingerprint) (source : String)
  | parsing (key : RawPath) (fingerprint : FileFingerprint) (source : String)
  | inserting (key : RawPath) (entry : CacheEntry)
  | answered (result : Except ParseError ParseOutcome)
  | forgetting (key : RawPath)
  -- So many parts of the table are still to be emptied.
  | clearing (shards : Nat)
  | finished

section Calls

/-- One turn of a call for a file. -/
def getOrParse (ruff : Ruff) (turn : Turn) (path : RawPath) (shared : Shared) : CachePoint → Shared × CachePoint
  | .ready => (shared, .located (canonicalise shared.fs path))
  | .located key =>
    match metadata turn shared.fs key with
    | none => (shared, .answered (.error (.io key)))
    | some fingerprint => (shared, .statted key fingerprint)
  | .statted key fingerprint =>
    match shared.inner[key.components]? with
    | some entry =>
      if entry.fingerprint = fingerprint then (shared, .answered (.ok entry.outcome))
        else (shared, .missed key fingerprint)
    | none => (shared, .missed key fingerprint)
  | .missed key fingerprint =>
    match readToString shared.fs key with
    | none => (shared, .answered (.error (.io key)))
    | some source => (shared, .loaded key fingerprint source)
  | .loaded key fingerprint source =>
    match shared.inner[key.components]? with
    | some entry =>
      -- The contents are the same although the fingerprint is not.
      if entry.sourceHash = hashSource source then (shared, .inserting key { entry with fingerprint })
      else (shared, .parsing key fingerprint source)
    | none => (shared, .parsing key fingerprint source)
  | .parsing key fingerprint source =>
    match parseDagFile ruff turn key source (hashSource source) with
    | .error error => (shared, .answered (.error error))
    | .ok outcome => (shared, .inserting key ⟨hashSource source, fingerprint, outcome⟩)
  | .inserting key entry =>
    ({ shared with inner := shared.inner.insert key.components entry }, .answered (.ok entry.outcome))
  | point => (shared, point)

/-- One turn of a call to drop the entry of a path. -/
def invalidate (path : RawPath) (shared : Shared) : CachePoint → Shared × CachePoint
  | .ready => (shared, .forgetting (canonicalise shared.fs path))
  | .forgetting key => ({ shared with inner := shared.inner.erase key.components }, .finished)
  | point => (shared, point)

/-- One turn of a call to drop all entries: the table is emptied part by part. -/
def clear (shards : Nat) (shardOf : List String → Nat) (shared : Shared) : CachePoint → Shared × CachePoint
  | .ready => (shared, .clearing shards)
  | .clearing 0 => (shared, .finished)
  | .clearing (left + 1) =>
    ({ shared with inner := shared.inner.filter fun key _ => shardOf key ≠ left }, .clearing left)
  | point => (shared, point)

/-- A file is rewritten in one turn. -/
def rewriteFile (place : List String) (file : SourceFile) (shared : Shared) : CachePoint → Shared × CachePoint
  | .ready => ({ shared with fs := shared.fs.rewrite place file }, .finished)
  | point => (shared, point)

/-- One turn of a request. -/
def cacheStep (ruff : Ruff) (shards : Nat) (shardOf : List String → Nat) (req : CacheRequest) (turn : Turn)
    (shared : Shared) (point : CachePoint) : Shared × CachePoint :=
  match req with
  | .getOrParse path => getOrParse ruff turn path shared point
  | .invalidate path => invalidate path shared point
  | .clear => clear shards shardOf shared point
  | .rewrite place file => rewriteFile place file shared point

/-- The turns of all threads, each with its request. -/
def cacheProgram {ι : Type} (ruff : Ruff) (shards : Nat) (shardOf : List String → Nat) (reqs : ι → CacheRequest) :
    Program ι Shared CachePoint Turn := fun thread => cacheStep ruff shards shardOf (reqs thread)

end Calls

section Resolution

variable {fs : FileSystem SourceFile}

private theorem fileAt_eq_some_iff {place : List String} {file : SourceFile} :
    fileAt fs place = some file ↔ fs.nodes[place]? = some (.file file) := by
  unfold fileAt
  split
  · rename_i other found
    rw [found]
    constructor
    · intro same
      cases same
      rfl
    · intro same
      cases same
      rfl
  · rename_i other
    exact ⟨fun impossible => (by cases impossible), fun found => absurd found (other file)⟩

/-- A rewrite replaces one file. -/
theorem fileAt_rewrite (place other : List String) (file : SourceFile) : fileAt (fs.rewrite place file) other =
    if place = other ∧ fs.isFile place = true then some file else fileAt fs other := by
  rw [fileAt, fileAt, FileSystem.getElem?_rewrite]
  by_cases there : place = other ∧ fs.isFile place = true
  · rw [if_pos there, if_pos there]
  · rw [if_neg there, if_neg there]

/-- A rewrite makes and removes no files. -/
theorem isSome_fileAt_rewrite (place other : List String) (file : SourceFile) :
    (fileAt (fs.rewrite place file) other).isSome = (fileAt fs other).isSome := by
  rw [fileAt_rewrite]
  split
  · rename_i there
    obtain ⟨before, found⟩ := FileSystem.isFile_iff.mp there.2
    rw [fileAt_eq_some_iff.mpr (there.1 ▸ found)]
    rfl
  · rfl

/-- A path that leads to a place is canonicalised to the place. -/
theorem canonicalise_of_resolve {path : RawPath} {place : List String} (reached : fs.resolve path = some place) :
    canonicalise fs path = ⟨true, place⟩ := by
  rw [canonicalise, FileSystem.canonicalize, reached]
  rfl

/-- A path that leads nowhere stays as it is. -/
theorem canonicalise_of_none {path : RawPath} (nowhere : fs.resolve path = none) : canonicalise fs path = path := by
  rw [canonicalise, FileSystem.canonicalize, nowhere]
  rfl

/-- What the canonicalised path leads to is what the path leads to. -/
theorem resolve_canonicalise (path : RawPath) : fs.resolve (canonicalise fs path) = fs.resolve path := by
  cases reached : fs.resolve path with
  | none => rw [canonicalise_of_none reached, reached]
  | some place => rw [canonicalise_of_resolve reached, FileSystem.resolve_canonical reached]

end Resolution

end FerroProtocols.Airflow
