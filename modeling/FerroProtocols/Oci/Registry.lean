import FerroProtocols.Lib.SparseMap
import FerroProtocols.Lib.Splice
import FerroProtocols.Oci.Upload
import Mathlib.Data.List.Sort

/-! The metadata plane of the registry. How persisting ends is an argument, with the world it acts on. -/

namespace FerroProtocols.Oci

open BlobStore Std SparseMap

/-- A manifest is named by a tag or by its digest. -/
inductive Reference where
  | tag (tag : String)
  | digest (digest : Digest)
  deriving DecidableEq

/-- What the referrers API returns for one manifest. -/
structure ReferrerDescriptor where
  mediaType : String
  digest : Digest
  size : UInt64
  artifactType : Option String
  annotations : Option (ExtTreeMap String String)

/-- The manifests of one repository under the texts of their digests. -/
abbrev ManifestMap := ExtTreeMap String (String × Bytes)

/-- The tags of one repository and the texts of the digests they stand for. -/
abbrev TagMap := ExtTreeMap String String

/-- The referrers of one repository under the texts of their subjects. -/
abbrev SubjectMap := ExtTreeMap String (List ReferrerDescriptor)

/-- Sessions are ordered by repository and then by identifier. -/
abbrev uploadOrder : String × String → String × String → Ordering :=
  compareLex (compareOn Prod.fst) (compareOn Prod.snd)

instance : TransCmp uploadOrder := inferInstance

instance : LawfulEqCmp uploadOrder where
  eq_of_compare := by
    intro left right same
    rw [compareLex_eq_eq] at same
    exact Prod.ext (LawfulEqCmp.eq_of_compare same.1) (LawfulEqCmp.eq_of_compare same.2)

/-- All that the registry keeps in memory. -/
structure InMemoryState where
  manifests : ExtTreeMap String ManifestMap := ∅
  tags : ExtTreeMap String TagMap := ∅
  uploads : ExtTreeMap (String × String) UploadState uploadOrder := ∅
  referrers : ExtTreeMap String SubjectMap := ∅

/-- How many sessions may be open, and for how long one may be idle. -/
structure SessionLimits where
  maxSessions : Nat
  idleTtl : Nat

/-- Whether a new session was opened. -/
inductive UploadAdmission where
  | started (uuid : String)
  | atCapacity (cap : Nat)
  deriving DecidableEq

/-- Writing a state somewhere, which may fail. -/
abbrev Persist (ω : Type) := InMemoryState → ω → Except IoError Unit × ω

namespace InMemoryState

/-- Remove the entries of a repository that hold nothing. -/
def pruneEmptyRepo (state : InMemoryState) (name : String) : InMemoryState :=
  { state with
    manifests := prune state.manifests name
    tags := prune state.tags name
    referrers := prune state.referrers name }

/-- Append a descriptor to the referrers of a subject. -/
def pushReferrer (referrers : ExtTreeMap String SubjectMap) (name subject : String)
    (desc : ReferrerDescriptor) : ExtTreeMap String SubjectMap :=
  update referrers name fun subjects => update subjects subject fun list => list ++ [desc]

/-- Take the last descriptor off the referrers of a subject, and the subject when none is left. -/
def popReferrer (referrers : ExtTreeMap String SubjectMap) (name subject : String) :
    ExtTreeMap String SubjectMap :=
  referrers.modify name fun subjects =>
    prune (subjects.modify subject List.dropLast) subject

/-- What a put remembers to undo its changes. -/
structure PutUndo where
  digestStr : String
  prevManifest : Option (String × Bytes)
  -- The tag that was set, and what it stood for before.
  prevTag : Option (String × Option String)
  referrerSubject : Option String

/-- Store a manifest, its tag and its referrer entry, and remember what that displaces. -/
def applyPut (state : InMemoryState) (name : String) (ref : Reference) (digest : Digest)
    (mediaType : String) (body : Bytes) (referrer : Option (Digest × ReferrerDescriptor)) :
    InMemoryState × PutUndo :=
  let digestStr := digest.toString
  let manifests := update state.manifests name fun map => map.insert digestStr (mediaType, body)
  let prevManifest := (valueAt state.manifests name)[digestStr]?
  let (tags, prevTag) :=
    match ref with
    | .tag tag =>
      (update state.tags name fun map => map.insert tag digestStr,
        some (tag, (valueAt state.tags name)[tag]?))
    | .digest _ => (state.tags, none)
  let (referrers, referrerSubject) :=
    match referrer with
    | some (subject, desc) =>
      (pushReferrer state.referrers name subject.toString desc, some subject.toString)
    | none => (state.referrers, none)
  ({ state with manifests := manifests, tags := tags, referrers := referrers },
    ⟨digestStr, prevManifest, prevTag, referrerSubject⟩)

/-- Undo a put, and remove the entries of the repository that are left empty. -/
def undoPut (state : InMemoryState) (name : String) (undo : PutUndo) : InMemoryState :=
  let manifests := state.manifests.modify name fun map =>
    putBack map undo.digestStr undo.prevManifest
  let tags :=
    match undo.prevTag with
    | some (tag, prev) => state.tags.modify name fun map => putBack map tag prev
    | none => state.tags
  let referrers :=
    match undo.referrerSubject with
    | some subject => popReferrer state.referrers name subject
    | none => state.referrers
  pruneEmptyRepo { state with manifests := manifests, tags := tags, referrers := referrers } name

/-- Store a manifest, its tag and its referrer entry as one transaction. -/
def putManifestWithReferrer {ω : Type} (persist : Persist ω) (state : InMemoryState) (world : ω)
    (name : String) (ref : Reference) (digest : Digest) (mediaType : String) (body : Bytes)
    (referrer : Option (Digest × ReferrerDescriptor)) :
    Except BlobStoreError Unit × InMemoryState × ω :=
  let (applied, undo) := state.applyPut name ref digest mediaType body referrer
  match persist applied world with
  | (.ok (), world) => (.ok (), applied, world)
  | (.error error, world) => (.error (.io error), applied.undoPut name undo, world)

/-- Register a descriptor as a referrer of a subject. -/
def registerReferrer {ω : Type} (persist : Persist ω) (state : InMemoryState) (world : ω)
    (name : String) (subject : Digest) (desc : ReferrerDescriptor) :
    Except BlobStoreError Unit × InMemoryState × ω :=
  let subjectStr := subject.toString
  let applied := { state with
    referrers := pushReferrer state.referrers name subjectStr desc }
  match persist applied world with
  | (.ok (), world) => (.ok (), applied, world)
  | (.error error, world) =>
    (.error (.io error),
      pruneEmptyRepo
        { applied with referrers := popReferrer applied.referrers name subjectStr } name,
      world)

/-- What a delete remembers to undo its changes. -/
structure DeleteUndo where
  digestStr : String
  removedManifest : String × Bytes
  removedTags : List String
  -- The subject of each descriptor that was taken out, its index in the list, and itself.
  removedReferrers : List (String × Nat × ReferrerDescriptor)

/-- A descriptor is one of the manifest with the given digest text. -/
def describes (digestStr : String) (desc : ReferrerDescriptor) : Bool :=
  decide (desc.digest.toString = digestStr)

/-- Take the descriptors of a manifest out of a list, from the back. -/
def pruneList (digestStr : String) (list : List ReferrerDescriptor) :
    List ReferrerDescriptor × List (Nat × ReferrerDescriptor) :=
  Splice.takeOut (describes digestStr) list.length list

/-- Remove a manifest that is stored, its tags and its descriptors, and remember them. -/
def applyDelete (state : InMemoryState) (name digestStr : String)
    (removedManifest : String × Bytes) : InMemoryState × DeleteUndo :=
  let manifests := state.manifests.modify name fun map => map.erase digestStr
  let tags := state.tags.modify name fun map => map.filter fun _ target => decide (target ≠ digestStr)
  let removedTags := (valueAt state.tags name).toList.filterMap fun (tag, target) =>
    if target = digestStr then some tag else none
  let referrers := state.referrers.modify name fun subjects =>
    -- Subjects whose list has become empty go as well.
    sweep (subjects.map fun _ list => (pruneList digestStr list).1)
  let removedReferrers :=
    listAll (fun list => (pruneList digestStr list).2) (valueAt state.referrers name)
  ({ state with manifests := manifests, tags := tags, referrers := referrers },
    ⟨digestStr, removedManifest, removedTags, removedReferrers⟩)

/-- Put back the manifest, its tags and its descriptors, each descriptor at its index. -/
def undoDelete (state : InMemoryState) (name : String) (undo : DeleteUndo) : InMemoryState :=
  { state with
    manifests := update state.manifests name fun map =>
      map.insert undo.digestStr undo.removedManifest
    tags :=
      if undo.removedTags.isEmpty then state.tags
      else update state.tags name fun map =>
        undo.removedTags.foldl (fun map tag => map.insert tag undo.digestStr) map
    referrers :=
      if undo.removedReferrers.isEmpty then state.referrers
      else update state.referrers name fun subjects =>
        -- In the reverse order of removal each index is valid for the growing list.
        editAll Splice.insertBack subjects undo.removedReferrers.reverse }

/-- Delete a manifest by its digest; a tag deletes nothing. -/
def deleteManifest {ω : Type} (persist : Persist ω) (state : InMemoryState) (world : ω)
    (name : String) (ref : Reference) : Except BlobStoreError Bool × InMemoryState × ω :=
  match ref with
  | .tag _ => (.ok false, state, world)
  | .digest digest =>
    let digestStr := digest.toString
    match state.manifests[name]? with
    | none => (.ok false, state, world)
    | some nameMap =>
      match nameMap[digestStr]? with
      | none => (.ok false, state, world)
      | some removedManifest =>
        let (applied, undo) := state.applyDelete name digestStr removedManifest
        match persist applied world with
        | (.ok (), world) => (.ok true, applied, world)
        | (.error error, world) => (.error (.io error), applied.undoDelete name undo, world)

/-- Fetch a manifest: its digest, its media type and its body. -/
def getManifest (state : InMemoryState) (name : String) (ref : Reference) :
    Except BlobStoreError (Option (Digest × String × Bytes)) :=
  match state.manifests[name]? with
  | none => .ok none
  | some nameMap =>
    let digestStr :=
      match ref with
      | .digest digest => some digest.toString
      | .tag tag => state.tags[name]?.bind fun map => map[tag]?
    match digestStr with
    | none => .ok none
    | some digestStr =>
      match nameMap[digestStr]? with
      | none => .ok none
      | some (mediaType, body) =>
        match Digest.parse digestStr with
        | .error error => .error (.invalidDigest error)
        | .ok digest => .ok (some (digest, mediaType, body))

/-- One page of names: sorted, those after the cursor, at most as many as asked for. -/
def page (names : List String) (last : Option String) (n : Option Nat) : List String :=
  let sorted := names.insertionSort fun left right => left ≤ right
  let after :=
    match last with
    | some cursor => sorted.filter fun name => decide (cursor < name)
    | none => sorted
  match n with
  | some limit => after.take limit
  | none => after

/-- The tags of a repository. -/
def listTags (state : InMemoryState) (name : String) (last : Option String) (n : Option Nat) :
    List String :=
  match state.tags[name]? with
  | none => []
  | some tagMap => page tagMap.keys last n

/-- The repositories that have an entry for manifests. -/
def listRepositories (state : InMemoryState) (last : Option String) (n : Option Nat) :
    List String :=
  page state.manifests.keys last n

/-- The referrers of a subject, all of them or those of one artifact type. -/
def listReferrers (state : InMemoryState) (name : String) (digest : Digest)
    (artifactType : Option String) : List ReferrerDescriptor :=
  match state.referrers[name]? with
  | none => []
  | some nameMap =>
    match nameMap[digest.toString]? with
    | none => []
    | some list =>
      match artifactType with
      | none => list
      | some wanted => list.filter fun desc => decide (desc.artifactType = some wanted)

/-- Append a chunk that starts where the session ends, and return where it ends now. -/
def appendUpload (state : InMemoryState) (name uuid : String) (offset : Nat) (chunk : Bytes)
    (now : Nat) : Except BlobStoreError Nat × InMemoryState :=
  match state.uploads[(name, uuid)]? with
  | none => (.error (.notFound ("unknown upload uuid: " ++ uuid)), state)
  | some session =>
    if offset ≠ session.offset then
      (.error (.notFound ("out-of-order upload chunk: expected offset " ++ toString session.offset ++
        ", got " ++ toString offset)), state)
    else
      let appended := session.append chunk now
      (.ok appended.offset, { state with uploads := state.uploads.insert (name, uuid) appended })

/-- Forget a session that has been stored. -/
def completeUpload (state : InMemoryState) (name uuid : String) : InMemoryState :=
  { state with uploads := state.uploads.erase (name, uuid) }

/-- The state of a session; one that has been idle for too long is forgotten instead. -/
def getUploadState (state : InMemoryState) (name uuid : String) (idleTtl now : Nat) :
    Option UploadState × InMemoryState :=
  match state.uploads[(name, uuid)]? with
  | none => (none, state)
  | some session =>
    if session.isIdleFor now idleTtl then
      (none, { state with uploads := state.uploads.erase (name, uuid) })
    else (some session, state)

/-- Forget a session, and say whether there was one. -/
def cancelUpload (state : InMemoryState) (name uuid : String) : Bool × InMemoryState :=
  (state.uploads.contains (name, uuid),
    { state with uploads := state.uploads.erase (name, uuid) })

/-- Take the bytes out of a session, which stays open and empty. -/
def takeUploadBytes (state : InMemoryState) (name uuid : String) : Option Bytes × InMemoryState :=
  match state.uploads[(name, uuid)]? with
  | none => (none, state)
  | some session =>
    let (bytes, emptied) := session.takeBytes
    (some bytes, { state with uploads := state.uploads.insert (name, uuid) emptied })

/-- Forget all sessions that have been idle for too long. -/
def sweepIdleUploads (state : InMemoryState) (now idleTtl : Nat) : InMemoryState :=
  { state with uploads := state.uploads.filter fun _ session => !session.isIdleFor now idleTtl }

/-- Open a session under a new identifier, unless there are too many. -/
def startUpload (state : InMemoryState) (limits : SessionLimits) (name uuid : String) (now : Nat) :
    UploadAdmission × InMemoryState :=
  let swept := state.sweepIdleUploads now limits.idleTtl
  if limits.maxSessions ≤ swept.uploads.size then (.atCapacity limits.maxSessions, swept)
  else
    (.started uuid,
      { swept with uploads := swept.uploads.insert (name, uuid) (.new name uuid now) })

section Effects

variable (reg : InMemoryState) (name uuid : String)

/-- Looking for a session finds it and changes nothing, or leaves none behind because it was idle. -/
theorem getUploadState_effect (idleTtl now : Nat) : reg.getUploadState name uuid idleTtl now =
        (none, { reg with uploads := reg.uploads.erase (name, uuid) }) ∧
      (∀ session, reg.uploads[(name, uuid)]? = some session → session.isIdleFor now idleTtl = true) ∨
    ∃ session, reg.getUploadState name uuid idleTtl now = (some session, reg) ∧
      reg.uploads[(name, uuid)]? = some session := by
  unfold getUploadState
  cases stored : reg.uploads[(name, uuid)]? with
  | none =>
    -- Without a session there is nothing to erase.
    rw [erase_eq_self stored]
    exact .inl ⟨rfl, nofun⟩
  | some session =>
    dsimp only
    split
    · rename_i idle
      refine .inl ⟨rfl, ?_⟩
      rintro other ⟨⟩
      exact idle
    · exact .inr ⟨session, rfl, rfl⟩

/-- Appending fails and changes nothing, or finds the session at the offset it was told. -/
theorem appendUpload_effect (offset : Nat) (chunk : Bytes) (now : Nat) :
    (∃ error, reg.appendUpload name uuid offset chunk now = (.error error, reg)) ∨
      ∃ session, reg.uploads[(name, uuid)]? = some session ∧ session.offset = offset ∧
        reg.appendUpload name uuid offset chunk now = (.ok (session.append chunk now).offset, { reg with
              uploads := reg.uploads.insert (name, uuid) (session.append chunk now) }) := by
  unfold appendUpload
  cases stored : reg.uploads[(name, uuid)]? with
  | none => exact .inl ⟨_, rfl⟩
  | some session =>
    dsimp only
    split
    · exact .inl ⟨_, rfl⟩
    · rename_i fits
      exact .inr ⟨session, rfl, (not_not.mp fits).symm, rfl⟩

/-- Taking finds no session and changes nothing, or empties the session it finds. -/
theorem takeUploadBytes_effect : reg.takeUploadBytes name uuid = (none, reg) ∨
      ∃ session, reg.uploads[(name, uuid)]? = some session ∧
        reg.takeUploadBytes name uuid = (some session.buffer, { reg with
            uploads := reg.uploads.insert (name, uuid) { session with buffer := [] } }) := by
  unfold takeUploadBytes
  cases stored : reg.uploads[(name, uuid)]? with
  | none => exact .inl rfl
  | some session => exact .inr ⟨session, rfl, rfl⟩

end Effects

end InMemoryState

/-- A request to change the durable part of the registry. -/
inductive Mutation where
  | putManifestWithReferrer (name : String) (ref : Reference) (digest : Digest)
      (mediaType : String) (body : Bytes) (referrer : Option (Digest × ReferrerDescriptor))
  | registerReferrer (name : String) (subject : Digest) (desc : ReferrerDescriptor)
  | deleteManifest (name : String) (ref : Reference)

/-- Carry out a mutation; whether a put or a registration changed anything is not reported. -/
def Mutation.run {ω : Type} (persist : Persist ω) (mutation : Mutation) (state : InMemoryState)
    (world : ω) : Except BlobStoreError (Option Bool) × InMemoryState × ω :=
  match mutation with
  | .putManifestWithReferrer name ref digest mediaType body referrer =>
    let (result, after) :=
      state.putManifestWithReferrer persist world name ref digest mediaType body referrer
    (result.map fun _ => none, after)
  | .registerReferrer name subject desc =>
    let (result, after) := state.registerReferrer persist world name subject desc
    (result.map fun _ => none, after)
  | .deleteManifest name ref =>
    let (result, after) := state.deleteManifest persist world name ref
    (result.map some, after)

end FerroProtocols.Oci
