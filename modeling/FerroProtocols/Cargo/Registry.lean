import FerroProtocols.Cargo.Publish
import FerroProtocols.Lib.Interleaving

/-! The crates that are published, and the requests that change or serve them. A handler makes its calls to
the blob store one by one; what is done under the lock of the crates without such a call is one turn. -/

namespace FerroProtocols.Cargo

open BlobStore Std

/-- An owner of a crate. -/
structure Owner where
  id : Nat
  login : String
  name : Option String
  deriving DecidableEq, Repr

/-- The number of values of an identifier. -/
def ownerIdModulus : Nat := 2 ^ 64

/-- What is kept for one crate. -/
structure CrateRecord where
  -- The oldest version comes first.
  entries : List IndexEntry := []
  tarballs : ExtTreeMap String Digest := ∅
  owners : List Owner := []

/-- All crates, under the keys of their names. -/
abbrev CrateMap := ExtTreeMap String CrateRecord

/-- Writing the crates somewhere, which may fail. -/
abbrev Persist (ω : Type) := CrateMap → ω → Except IoError Unit × ω

namespace CrateMap

variable (crates : CrateMap)

/-- A publish must not take the name of another crate, and not bring a version again. -/
def checkVacant (plan : PublishPlan) : Except CargoError Unit :=
  match crates[plan.key]? with
  | none => .ok ()
  | some existing =>
    match existing.entries.head?.filter fun first => decide (first.name ≠ plan.name) with
    | some first => .error (.nameConflict plan.name first.name)
    | none =>
      if existing.entries.any fun entry => decide (entry.vers = plan.entry.vers) then
        .error (.duplicateVersion plan.name plan.vers)
      else .ok ()

/-- Add a version to a crate, which may be a new one. -/
def addVersion (plan : PublishPlan) : CrateMap :=
  let record := crates[plan.key]?.getD {}
  crates.insert plan.key { record with
    tarballs := record.tarballs.insert plan.entry.vers plan.digest
    entries := record.entries ++ [plan.entry] }

/-- Take a version out again, and the crate if nothing is left of it. -/
def rollbackPublish (key vers : String) (digest : Digest) : CrateMap :=
  match crates[key]? with
  | none => crates
  | some record =>
    let left := { record with
      tarballs := if record.tarballs[vers]? = some digest then record.tarballs.erase vers
        else record.tarballs
      entries := record.entries.filter fun entry => decide (entry.vers ≠ vers) }
    if left.entries.isEmpty && left.tarballs.isEmpty && left.owners.isEmpty then crates.erase key
    else crates.insert key left

/-- Some version of some crate has the tarball with this digest. -/
def digestReferencedIn (digest : Digest) : Bool :=
  crates.toList.any fun (_, record) =>
    record.tarballs.toList.any fun (_, other) => decide (other = digest)

/-- Set the flag of the first entry with a version. -/
def setFlag (version : String) (yanked : Bool) : List IndexEntry → List IndexEntry
  | [] => []
  | entry :: rest =>
    if entry.vers = version then { entry with yanked } :: rest
    else entry :: setFlag version yanked rest

/-- Set the flag of a version that is there. -/
def setYanked (key version : String) (yanked : Bool) : CrateMap :=
  crates.modify key fun record => { record with entries := setFlag version yanked record.entries }

/-- Add one owner, unless there is one with the login; the counter goes on without wrapping here. -/
def addOwner (reached : List Owner × Nat) (login : String) : List Owner × Nat :=
  if reached.1.any fun owner => decide (owner.login = login) then reached
  else (reached.1 ++ [⟨reached.2 % ownerIdModulus, login, none⟩], reached.2 + 1)

/-- Add owners, with identifiers after the largest one, and tell how far the counter has come. -/
def addOwners (owners : List Owner) (logins : List String) : List Owner × Nat :=
  logins.foldl addOwner (owners, (owners.map Owner.id).foldl max 0 + 1)

/-- The owners after a change. -/
def changeOwners (owners : List Owner) (logins : List String) (remove : Bool) : List Owner :=
  if remove then owners.filter fun owner => !logins.any fun login => decide (login = owner.login)
  else (addOwners owners logins).1

/-- Give a crate other owners. -/
def setOwners (key : String) (owners : List Owner) : CrateMap :=
  crates.modify key fun record => { record with owners }

end CrateMap

/-- A request. -/
inductive CargoRequest where
  | publish (body : Bytes)
  | download (name version : String)
  -- Yank a version, or take that back.
  | setYanked (name version : String) (yanked : Bool)
  | mutateOwners (name : String) (logins : List String) (remove : Bool)

/-- How a request is answered; all but refusals have status 200. -/
inductive CargoAnswer where
  | published
  | tarball (headers : List (String × String)) (bytes : Bytes)
  | changed (msg : Option String)
  | refused (error : CargoError)
  deriving DecidableEq

/-- How far a request has come. -/
inductive CargoPoint where
  | ready
  -- A publish that holds the lock: the tarball is next to be stored, or to be dropped again.
  | storing (plan : PublishPlan)
  | discarding (digest : Digest) (reason : IoError)
  -- A download that has left the lock.
  | fetching (digest : Digest)
  | answered (answer : CargoAnswer)

/-- What the environment decides about a turn: how persisting ends, and whether the blob store fails. -/
structure CargoEvent (ω : Type) where
  persist : Persist ω
  fault : Option BlobStoreError := none

/-- What a call to the blob store returns; a call that fails does nothing. -/
def CargoEvent.call {ω α : Type} (event : CargoEvent ω) (result : Except BlobStoreError α) :
    Except BlobStoreError α :=
  match event.fault with
  | some error => .error error
  | none => result

/-- What all requests share; the lock is given by the request that holds it for writing. -/
structure CargoState (ω ι : Type) where
  blobs : InMemoryBlobStore
  crates : CrateMap
  disk : ω
  writer : Option ι

/-- The headers of a tarball. -/
def tarballHeaders (digest : Digest) (bytes : Bytes) : List (String × String) :=
  [("content-type", "application/x-tar"), ("etag", "\"" ++ digest.hex ++ "\""),
    ("content-length", toString bytes.length)]

namespace CargoServer

variable {ω ι : Type} (server : CargoServer)

/-- One turn of a publish. -/
def handlePublish (thread : ι) (body : Bytes) (event : CargoEvent ω) (state : CargoState ω ι) :
    CargoPoint → CargoState ω ι × CargoPoint
  | .ready =>
    match server.preparePublish body with
    | .error error => (state, .answered (.refused error))
    | .ok plan =>
      -- The lock is awaited.
      if state.writer.isSome then (state, .ready)
      else
        match state.crates.checkVacant plan with
        | .error error => (state, .answered (.refused error))
        | .ok () => ({ state with writer := some thread }, .storing plan)
  | .storing plan =>
    match event.call (state.blobs.put server.hashes plan.digest plan.tarball) with
    | .error error => ({ state with writer := none }, .answered (.refused (.storage error)))
    | .ok blobs =>
      let added := state.crates.addVersion plan
      match event.persist added state.disk with
      | (.ok (), disk) => (⟨blobs, added, disk, none⟩, .answered .published)
      | (.error error, disk) =>
        let crates := added.rollbackPublish plan.key plan.entry.vers plan.digest
        if crates.digestReferencedIn plan.digest then
          (⟨blobs, crates, disk, none⟩, .answered (.refused (.persistence error.message)))
        else (⟨blobs, crates, disk, state.writer⟩, .discarding plan.digest error)
  | .discarding digest reason =>
    match event.call (.ok (state.blobs.delete digest)) with
    -- That the blob could not be deleted is only logged.
    | .error _ => ({ state with writer := none }, .answered (.refused (.persistence reason.message)))
    | .ok blobs =>
      ({ state with blobs, writer := none }, .answered (.refused (.persistence reason.message)))
  | point => (state, point)

/-- Go on with the record of a crate, once its name has passed and no request has the lock. -/
def withRecord (name : String) (state : CargoState ω ι) (next : CrateRecord → CargoState ω ι × CargoPoint) :
    CargoState ω ι × CargoPoint :=
  match validateName name with
  | .error error => (state, .answered (.refused error))
  | .ok () =>
    if state.writer.isSome then (state, .ready)
    else
      match state.crates[canonicalName name]? with
      | none => (state, .answered (.refused (.notFound name)))
      | some record => next record

/-- One turn of a download. -/
def handleDownload (name version : String) (event : CargoEvent ω) (state : CargoState ω ι) :
    CargoPoint → CargoState ω ι × CargoPoint
  | .ready =>
    withRecord name state fun record =>
      match record.tarballs[version]? with
      | none => (state, .answered (.refused (.notFound (name ++ " " ++ version))))
      | some digest => (state, .fetching digest)
  | .fetching digest =>
    match event.call (state.blobs.get digest) with
    | .error error => (state, .answered (.refused (.storage error)))
    | .ok bytes => (state, .answered (.tarball (tarballHeaders digest bytes) bytes))
  | point => (state, point)

/-- Write the changed crates, or go back to others. -/
def commit (event : CargoEvent ω) (state : CargoState ω ι) (changed restored : CrateMap)
    (msg : Option String) : CargoState ω ι × CargoPoint :=
  match event.persist changed state.disk with
  | (.ok (), disk) => ({ state with crates := changed, disk }, .answered (.changed msg))
  | (.error error, disk) =>
    ({ state with crates := restored, disk }, .answered (.refused (.persistence error.message)))

/-- Yank a version, or take that back. -/
def setYanked (name version : String) (yanked : Bool) (event : CargoEvent ω) (state : CargoState ω ι) :
    CargoPoint → CargoState ω ι × CargoPoint
  | .ready =>
    withRecord name state fun record =>
      match record.entries.find? fun entry => decide (entry.vers = version) with
      | none => (state, .answered (.refused (.notFound (name ++ " " ++ version))))
      | some entry =>
        let changed := state.crates.setYanked (canonicalName name) version yanked
        commit event state changed (changed.setYanked (canonicalName name) version entry.yanked) none
  | point => (state, point)

/-- Add or remove owners. -/
def mutateOwners (name : String) (logins : List String) (remove : Bool) (event : CargoEvent ω)
    (state : CargoState ω ι) : CargoPoint → CargoState ω ι × CargoPoint
  | .ready =>
    withRecord name state fun record =>
      let changed := state.crates.setOwners (canonicalName name) (CrateMap.changeOwners record.owners logins remove)
      commit event state changed (changed.setOwners (canonicalName name) record.owners)
        (if remove then none else some "owners updated")
  | point => (state, point)

/-- One turn of a request. -/
def turn (thread : ι) (req : CargoRequest) (event : CargoEvent ω) (state : CargoState ω ι)
    (point : CargoPoint) : CargoState ω ι × CargoPoint :=
  match req with
  | .publish body => server.handlePublish thread body event state point
  | .download name version => handleDownload name version event state point
  | .setYanked name version yanked => setYanked name version yanked event state point
  | .mutateOwners name logins remove => mutateOwners name logins remove event state point

variable (reqs : ι → CargoRequest)

/-- The turns of all requests. -/
def program : Interleaving.Program ι (CargoState ω ι) CargoPoint (CargoEvent ω) :=
  fun thread => server.turn thread (reqs thread)

end CargoServer

/-- The registry, and how far every request has come. -/
abbrev CargoSystem (ω ι : Type) := Interleaving.State ι (CargoState ω ι) CargoPoint

/-- No crate is published and no request has begun; there may be blobs of other origin. -/
def CargoSystem.opening {ω ι : Type} (blobs : InMemoryBlobStore) (disk : ω) : CargoSystem ω ι :=
  ⟨⟨blobs, ∅, disk, none⟩, fun _ => .ready⟩

end FerroProtocols.Cargo
