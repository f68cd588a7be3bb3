import FerroProtocols.BlobStore.Memory
import FerroProtocols.Lib.FileTree

/-! The store that keeps blobs in files, one file system call a turn; a point says which one is next. -/

namespace FerroProtocols.BlobStore

open Files

/-- The number of values of the counter for names of temporary files. -/
def tmpSeqModulus : Nat := 2 ^ 64

/-- An error of the file system itself. -/
def IoError.ofFailure : Failure → IoError
  | .notFound => ⟨.notFound, "No such file or directory (os error 2)"⟩
  | .isADirectory => ⟨.other, "Is a directory (os error 21)"⟩
  | .notADirectory => ⟨.other, "Not a directory (os error 20)"⟩

namespace FsBlobStore

/-- The directory of an algorithm. -/
def algoDir (algo : DigestAlgo) : Path := [algo.prefixText]

/-- The directory for temporary files. -/
def tmpDir (algo : DigestAlgo) : Path := algoDir algo ++ [".tmp"]

/-- The first two digits of a digest, which name its directory. -/
def shard (digest : Digest) : String := String.ofList (digest.hex.toList.take 2)

/-- The other digits of a digest, which name its file. -/
def remainder (digest : Digest) : String := String.ofList (digest.hex.toList.drop 2)

/-- The directory of the file of a blob. -/
def shardDir (digest : Digest) : Path := algoDir digest.algo ++ [shard digest]

/-- The file of a blob. -/
def pathFor (digest : Digest) : Path := shardDir digest ++ [remainder digest]

/-- A temporary file of a process. -/
def tmpPath (digest : Digest) (pid number : Nat) : Path :=
  tmpDir digest.algo ++
    [digest.hex ++ "." ++ toString pid ++ "." ++ toString number ++ ".tmp"]

end FsBlobStore

/-- The names that reading a directory has still to return, and all that it has known of. -/
structure DirStream where
  pending : List String
  known : List String
  deriving DecidableEq

namespace DirStream

/-- Begin to read the names of a directory, which come in any order. -/
def start (names order : List String) : DirStream :=
  ⟨order.dedup.filter (fun name => decide (name ∈ names)) ++
    names.filter fun name => decide (name ∉ order), names⟩

/-- Names that have been added meanwhile may be returned, and names that are gone may not. -/
def refresh (names appeared missed : List String) (stream : DirStream) : DirStream :=
  let fresh := appeared.dedup.filter fun name => decide (name ∈ names ∧ name ∉ stream.known)
  ⟨stream.pending.filter (fun name => decide (name ∈ names ∨ name ∉ missed)) ++ fresh,
    stream.known ++ fresh⟩

end DirStream

/-- How far a listing has come in the directory of an algorithm. -/
structure FsScan where
  algo : DigestAlgo
  later : List DigestAlgo
  entries : DirStream
  out : List Digest
  deriving DecidableEq

/-- The call of the file system that comes next, and what has been learned for it. -/
inductive FsPoint where
  | ready
  | putTmpDir
  | putNumber
  | putCreate (tmp : Path)
  | putWrite (tmp : Path) (inode written : Nat)
  | putRename (tmp : Path)
  | putCleanUp (tmp : Path) (error : IoError)
  | putIsFile (error : IoError)
  | getRead (inode : Nat) (got : Bytes)
  | listExists (algos : List DigestAlgo) (out : List Digest)
  | listOpen (algo : DigestAlgo) (later : List DigestAlgo) (out : List Digest)
  | listNext (scan : FsScan)
  | listIsDir (scan : FsScan) (name : String)
  | listOpenShard (scan : FsScan) (name : String)
  | listNextFile (scan : FsScan) (name : String) (files : DirStream)
  | answered (answer : BlobAnswer)
  -- The process has ended before the call was answered.
  | killed
  deriving DecidableEq

/-- What the processes share, and the process that is running. -/
structure FsWorld where
  tree : FileTree
  pid : Nat
  -- The numbers taken so far; the counter itself starts again after its last value.
  tmpSeq : Nat

/-- What the environment decides about a turn. -/
structure FsEvent where
  -- The call of the file system fails.
  fault : Option IoError := none
  -- At most one byte more is moved, or so many directories are made before a failure.
  amount : Nat := 0
  -- The order in which a directory is read.
  order : List String := []
  -- Reading a directory learns of names that were added, and does not return names that are gone.
  refresh : Option (List String × List String) := none

namespace FsBlobStore

/-- The call fails with an error of the file system. -/
def failedIo (error : IoError) : FsPoint := .answered (.failed (.io error))

/-- Make a directory and all above it; when that fails some of them may have been made. -/
def makeDirectory (path : Path) (next : FsPoint) (event : FsEvent) (world : FsWorld) :
    FsWorld × FsPoint :=
  match event.fault with
  | some error =>
    match world.tree.createDirAll (path.take event.amount) with
    | .ok tree => ({ world with tree := tree }, failedIo error)
    | .error _ => (world, failedIo error)
  | none =>
    match world.tree.createDirAll path with
    | .ok tree => ({ world with tree := tree }, next)
    | .error failure => (world, failedIo (.ofFailure failure))

/-- What follows when some bytes have been written. -/
def afterWrite (bytes : Bytes) (tmp : Path) (inode written : Nat) : FsPoint :=
  if bytes.length ≤ written then .putRename tmp else .putWrite tmp inode written

/-- One turn of a put. -/
def put (hashes : Hashes) (digest : Digest) (bytes : Bytes) (event : FsEvent) (world : FsWorld) :
    FsPoint → FsWorld × FsPoint
  | .ready =>
    let computed := hashes.digestOf digest.algo bytes
    if computed ≠ digest then
      (world, .answered (.failed (.digestMismatch digest.toString computed.toString)))
    else makeDirectory (shardDir digest) .putTmpDir event world
  | .putTmpDir => makeDirectory (tmpDir digest.algo) .putNumber event world
  | .putNumber =>
    ({ world with tmpSeq := world.tmpSeq + 1 },
      .putCreate (tmpPath digest world.pid (world.tmpSeq % tmpSeqModulus)))
  | .putCreate tmp =>
    match event.fault with
    | some error => (world, failedIo error)
    | none =>
      match world.tree.create tmp with
      | .error failure => (world, failedIo (.ofFailure failure))
      | .ok (tree, inode) => ({ world with tree := tree }, afterWrite bytes tmp inode 0)
  | .putWrite tmp inode written =>
    match event.fault with
    -- The temporary file stays behind.
    | some error => (world, failedIo error)
    | none =>
      let chunk := (bytes.drop written).take (event.amount + 1)
      ({ world with tree := world.tree.writeAt inode written chunk },
        afterWrite bytes tmp inode (written + chunk.length))
  | .putRename tmp =>
    match event.fault with
    | some error => (world, .putCleanUp tmp error)
    | none =>
      match world.tree.rename tmp (pathFor digest) with
      | .error failure => (world, .putCleanUp tmp (.ofFailure failure))
      | .ok tree => ({ world with tree := tree }, .answered .done)
  | .putCleanUp tmp error =>
    -- Whether the file could be removed is not looked at.
    match event.fault with
    | some _ => (world, .putIsFile error)
    | none =>
      match world.tree.removeFile tmp with
      | .error _ => (world, .putIsFile error)
      | .ok tree => ({ world with tree := tree }, .putIsFile error)
  | .putIsFile error =>
    if event.fault.isNone ∧ world.tree.isFile (pathFor digest) = true then
      (world, .answered .done)
    else (world, failedIo error)
  | point => (world, point)

/-- How an error ends a get: a missing file is a missing blob. -/
def getFailed (digest : Digest) (error : IoError) : FsPoint :=
  if error.kind = .notFound then .answered (.failed (.notFound digest.toString))
  else failedIo error

/-- One turn of a get. -/
def get (digest : Digest) (event : FsEvent) (world : FsWorld) : FsPoint → FsWorld × FsPoint
  | .ready =>
    match event.fault with
    | some error => (world, getFailed digest error)
    | none =>
      match world.tree.openRead (pathFor digest) with
      | .error failure => (world, getFailed digest (.ofFailure failure))
      | .ok inode => (world, .getRead inode [])
  | .getRead inode got =>
    match event.fault with
    | some error => (world, getFailed digest error)
    | none =>
      let chunk := world.tree.readAt inode got.length (event.amount + 1)
      if chunk.isEmpty then (world, .answered (.bytes got))
      else (world, .getRead inode (got ++ chunk))
  | point => (world, point)

/-- One turn of a lookup. -/
def contains (digest : Digest) (event : FsEvent) (world : FsWorld) : FsPoint → FsWorld × FsPoint
  | .ready =>
    match event.fault with
    | some error =>
      if error.kind = .notFound then (world, .answered (.present false))
      else (world, failedIo error)
    | none =>
      (world, .answered (.present
        (world.tree.isFile (pathFor digest) || world.tree.isDir (pathFor digest))))
  | point => (world, point)

/-- One turn of a delete. -/
def delete (digest : Digest) (event : FsEvent) (world : FsWorld) : FsPoint → FsWorld × FsPoint
  | .ready =>
    match event.fault with
    | some error =>
      if error.kind = .notFound then (world, .answered .done) else (world, failedIo error)
    | none =>
      match world.tree.removeFile (pathFor digest) with
      | .ok tree => ({ world with tree := tree }, .answered .done)
      | .error failure =>
        if (IoError.ofFailure failure).kind = .notFound then (world, .answered .done)
        else (world, failedIo (.ofFailure failure))
  | point => (world, point)

/-- The listing goes on with the next algorithm. -/
def nextAlgo : List DigestAlgo → List Digest → FsPoint
  | [], out => .answered (.digests out)
  | algo :: later, out => .listExists (algo :: later) out

/-- A name is one of the directories in which blobs are kept. -/
def isShardName (name : String) : Bool :=
  !(decide (name.toList.head? = some '.') || decide (name.utf8ByteSize ≠ 2))

/-- Begin to read a directory. -/
def readDir (event : FsEvent) (tree : FileTree) (path : Path) : Except IoError DirStream :=
  match event.fault with
  | some error => .error error
  | none =>
    if tree.isDir path then .ok (.start (tree.children path) event.order)
    else if tree.isFile path then .error (.ofFailure .notADirectory)
    else .error (.ofFailure .notFound)

/-- One turn of a listing. -/
def list (event : FsEvent) (world : FsWorld) : FsPoint → FsWorld × FsPoint
  | .ready => (world, nextAlgo [.sha256, .sha512] [])
  | .listExists [] out => (world, .answered (.digests out))
  | .listExists (algo :: later) out =>
    if event.fault.isNone ∧
        (world.tree.isDir (algoDir algo) || world.tree.isFile (algoDir algo)) = true then
      (world, .listOpen algo later out)
    else (world, nextAlgo later out)
  | .listOpen algo later out =>
    match readDir event world.tree (algoDir algo) with
    | .error error => (world, failedIo error)
    | .ok entries => (world, .listNext ⟨algo, later, entries, out⟩)
  | .listNext scan =>
    match event.refresh with
    | some (appeared, missed) =>
      (world, .listNext { scan with
        entries := scan.entries.refresh (world.tree.children (algoDir scan.algo)) appeared missed })
    | none =>
      match event.fault with
      | some error => (world, failedIo error)
      | none =>
        match scan.entries.pending with
        | [] => (world, nextAlgo scan.later scan.out)
        | name :: rest =>
          let next := { scan with entries := { scan.entries with pending := rest } }
          if isShardName name then (world, .listIsDir next name) else (world, .listNext next)
  | .listIsDir scan name =>
    if event.fault.isNone ∧ world.tree.isDir (algoDir scan.algo ++ [name]) = true then
      (world, .listOpenShard scan name)
    else (world, .listNext scan)
  | .listOpenShard scan name =>
    match readDir event world.tree (algoDir scan.algo ++ [name]) with
    | .error error => (world, failedIo error)
    | .ok files => (world, .listNextFile scan name files)
  | .listNextFile scan name files =>
    match event.refresh with
    | some (appeared, missed) =>
      (world, .listNextFile scan name
        (files.refresh (world.tree.children (algoDir scan.algo ++ [name])) appeared missed))
    | none =>
      match event.fault with
      | some error => (world, failedIo error)
      | none =>
        match files.pending with
        | [] => (world, .listNext scan)
        | file :: rest =>
          let out :=
            match Digest.new scan.algo (name ++ file) with
            | .ok digest => scan.out ++ [digest]
            | .error _ => scan.out
          (world, .listNextFile { scan with out := out } name { files with pending := rest })
  | point => (world, point)

/-- One turn of a call. -/
def step (hashes : Hashes) : BlobCall → FsEvent → FsWorld → FsPoint → FsWorld × FsPoint
  | .put digest bytes => put hashes digest bytes
  | .get digest => get digest
  | .contains digest => contains digest
  | .delete digest => delete digest
  | .list => list

end FsBlobStore

end FerroProtocols.BlobStore
