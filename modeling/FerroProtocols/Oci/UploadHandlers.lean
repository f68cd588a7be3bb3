import FerroProtocols.Oci.Error
import FerroProtocols.Oci.Registry

/-! The handlers of a chunk and of the final request. A handler makes its registry calls one by one; what it
decides on its own is part of the turn in which it learned what it decides on. -/

namespace FerroProtocols.Oci

open BlobStore Std

/-- What all requests on one session share. -/
structure UploadConfig where
  name : String
  uuid : String
  maxUploadSessionBytes : Nat
  limits : SessionLimits
  sha : Sha256

/-- A request on a session. -/
inductive UploadRequest where
  -- The range header may be missing, or not be ASCII.
  | patch (contentRange : Option (Option String)) (body : Bytes)
  | finish (digest : Option String) (body : Bytes)

/-- The bytes a request brings. -/
def UploadRequest.body : UploadRequest → Bytes
  | .patch _ body => body
  | .finish _ body => body

/-- A request that is to store what has been uploaded. -/
def UploadRequest.isFinish : UploadRequest → Bool
  | .patch _ _ => false
  | .finish _ _ => true

/-- How a request is answered. -/
inductive UploadAnswer where
  -- Status 202, for a chunk that was appended.
  | accepted (headers : List (String × String))
  -- Status 201, for a blob that was stored.
  | created (headers : List (String × String))
  | refused (error : OciError)
  deriving DecidableEq

/-- The call a handler makes next, and what it has learned for it. -/
inductive UploadPoint where
  | ready
  | patchAppend (chunkStart : Nat)
  | patchCancel (expectedOffset : Nat)
  | finishAppend (declared : Digest) (offset : Nat)
  | finishCancel (offset : Nat)
  | finishTake (declared : Digest)
  | finishStore (declared : Digest) (bytes : Bytes)
  | finishComplete (declared : Digest)
  | answered (answer : UploadAnswer)
  deriving DecidableEq

/-- What the environment decides about a turn: the time, and how storing a blob ends. -/
structure UploadEvent where
  now : Nat
  put : Except BlobStoreError Unit := .ok ()

/-- What a turn did to the session. -/
inductive UploadEffect where
  | quiet
  -- No session was found, or one that was idle and is now forgotten.
  | evicted
  | appended
  | cancelled
  -- The bytes were taken out to be stored, or to be refused right away.
  | taken
  | spilled
  | stored (bytes : Bytes)
  -- The bytes could not be stored.
  | abandoned
  | completed

/-- What a turn leaves. -/
structure UploadTurn where
  registry : InMemoryState
  point : UploadPoint
  effect : UploadEffect

/-- Bytes on top of those of a session go over the cap; sums stop at the largest word. -/
def wouldExceedCap (cap current incoming : Nat) : Bool := decide (cap < min (current + incoming) u64Max)

/-- The answer for a session that would go over its cap. -/
def uploadTooLarge (cap current incoming : Nat) : UploadAnswer :=
  .refused ⟨.blobUploadInvalid,
    "upload exceeds the " ++ toString cap ++ "-byte session cap (buffered " ++ toString current ++
      ", incoming " ++ toString incoming ++ ")", some 413⟩

/-- The headers that tell where a session is and how far it has come. -/
def uploadLocationHeaders (name uuid : String) (newOffset : Nat) : List (String × String) :=
  [("Location", "/v2/" ++ name ++ "/blobs/uploads/" ++ uuid),
    ("Range", if newOffset = 0 then "0-0" else "0-" ++ toString (newOffset - 1)),
    ("Docker-Upload-UUID", uuid), ("OCI-Chunk-Min-Length", "0")]

/-- The headers that tell where a stored blob is. -/
def blobCreatedHeaders (name : String) (digest : Digest) : List (String × String) :=
  [("Location", "/v2/" ++ name ++ "/blobs/" ++ digest.toString),
    ("Docker-Content-Digest", digest.toString), ("Content-Length", "0")]

/-- The text of a range error. -/
def ContentRangeParseError.text : ContentRangeParseError → String
  | .malformed => "malformed Content-Range"
  | .reversed => "reversed range (start > end)"

namespace UploadConfig

/-- The answer for a session that does not exist. -/
def unknownUpload (config : UploadConfig) : UploadAnswer :=
  .refused ⟨.blobUploadUnknown, "unknown upload uuid " ++ config.uuid, none⟩

/-- Where a chunk says that it starts. -/
def chunkStart (contentRange : Option (Option String)) (body : Bytes) (expectedOffset : Nat) :
    Except OciError Nat :=
  match contentRange with
  | none => .ok expectedOffset
  | some none => .error ⟨.blobUploadInvalid, "non-ASCII Content-Range", none⟩
  | some (some text) =>
    match ContentRange.parse text with
    | .error error =>
      .error ⟨.blobUploadInvalid, "malformed Content-Range `" ++ text ++ "`: " ++ error.text, none⟩
    | .ok range =>
      match range.checkedLength with
      | none =>
        .error ⟨.blobUploadInvalid, "Content-Range `" ++ text ++ "` spans more than u64::MAX bytes",
          some 416⟩
      | some declaredLen =>
        if declaredLen ≠ body.length then
          .error ⟨.blobUploadInvalid, "Content-Range length mismatch: range `" ++ text ++ "` spans " ++
            toString declaredLen ++ " bytes but body carries " ++ toString body.length, some 416⟩
        else .ok range.start

/-- What follows for a chunk from the offset its session was found at. -/
def patchCheck (config : UploadConfig) (contentRange : Option (Option String)) (body : Bytes)
    (expectedOffset : Nat) : UploadPoint :=
  match chunkStart contentRange body expectedOffset with
  | .error error => .answered (.refused error)
  | .ok start =>
    if start ≠ expectedOffset then
      .answered (.refused ⟨.blobUploadInvalid, "out-of-order chunk: expected offset " ++
        toString expectedOffset ++ ", got " ++ toString start, some 416⟩)
    else if wouldExceedCap config.maxUploadSessionBytes expectedOffset body.length then
      .patchCancel expectedOffset
    else .patchAppend start

/-- One turn of a request that brings a chunk. -/
def patchUpload (config : UploadConfig) (contentRange : Option (Option String)) (body : Bytes)
    (event : UploadEvent) (reg : InMemoryState) : UploadPoint → UploadTurn
  | .ready =>
    match reg.getUploadState config.name config.uuid config.limits.idleTtl event.now with
    | (none, after) => ⟨after, .answered config.unknownUpload, .evicted⟩
    | (some session, after) => ⟨after, config.patchCheck contentRange body session.offset, .quiet⟩
  | .patchCancel expectedOffset =>
    let (_, after) := reg.cancelUpload config.name config.uuid
    ⟨after, .answered (uploadTooLarge config.maxUploadSessionBytes expectedOffset body.length),
      .cancelled⟩
  | .patchAppend start =>
    match reg.appendUpload config.name config.uuid start body event.now with
    | (.ok newOffset, after) =>
      ⟨after, .answered (.accepted (uploadLocationHeaders config.name config.uuid newOffset)),
        .appended⟩
    | (.error error, after) =>
      ⟨after, .answered (.refused (.ofBlobStore error)), .quiet⟩
  | point => ⟨reg, point, .quiet⟩

/-- What follows for a final request from the offset its session was found at. -/
def finishCheck (config : UploadConfig) (declared : Digest) (body : Bytes) (offset : Nat) :
    UploadPoint :=
  if body.isEmpty then .finishTake declared
  else if wouldExceedCap config.maxUploadSessionBytes offset body.length then .finishCancel offset
  else .finishAppend declared offset

/-- The digest a final request declares. -/
def declaredDigest (digest : Option String) : Except OciError Digest :=
  match digest with
  | none => .error ⟨.digestInvalid, "missing `digest` query parameter", none⟩
  | some text =>
    match Digest.parse text with
    | .error error =>
      .error ⟨.digestInvalid, "invalid digest `" ++ text ++ "`: " ++ error.text, none⟩
    | .ok declared => .ok declared

/-- One turn of a request that stores what has been uploaded. -/
def finishUpload (config : UploadConfig) (digest : Option String) (body : Bytes)
    (event : UploadEvent) (reg : InMemoryState) : UploadPoint → UploadTurn
  | .ready =>
    match declaredDigest digest with
    | .error error => ⟨reg, .answered (.refused error), .quiet⟩
    | .ok declared =>
      match reg.getUploadState config.name config.uuid config.limits.idleTtl event.now with
      | (none, after) => ⟨after, .answered config.unknownUpload, .evicted⟩
      | (some session, after) => ⟨after, config.finishCheck declared body session.offset, .quiet⟩
  | .finishCancel offset =>
    let (_, after) := reg.cancelUpload config.name config.uuid
    ⟨after, .answered (uploadTooLarge config.maxUploadSessionBytes offset body.length), .cancelled⟩
  | .finishAppend declared offset =>
    match reg.appendUpload config.name config.uuid offset body event.now with
    | (.ok _, after) => ⟨after, .finishTake declared, .appended⟩
    | (.error error, after) =>
      ⟨after, .answered (.refused (.ofBlobStore error)), .quiet⟩
  | .finishTake declared =>
    match reg.takeUploadBytes config.name config.uuid with
    | (none, after) =>
      ⟨after, .answered (.refused ⟨.blobUploadUnknown,
        "upload " ++ config.uuid ++ " has no buffered bytes", none⟩), .quiet⟩
    | (some bytes, after) =>
      -- Only a digest of the same algorithm is compared here; the store compares all of them.
      let actual := Digest.sha256Of config.sha bytes
      if declared.algo = actual.algo ∧ actual.hex ≠ declared.hex then
        ⟨after, .answered (.refused ⟨.digestInvalid, "digest mismatch: declared " ++
          declared.toString ++ ", computed " ++ actual.toString, none⟩), .spilled⟩
      else ⟨after, .finishStore declared bytes, .taken⟩
  | .finishStore declared bytes =>
    match event.put with
    | .error error =>
      ⟨reg, .answered (.refused (.ofBlobStore error)), .abandoned⟩
    | .ok () => ⟨reg, .finishComplete declared, .stored bytes⟩
  | .finishComplete declared =>
    ⟨reg.completeUpload config.name config.uuid,
      .answered (.created (blobCreatedHeaders config.name declared)), .completed⟩
  | point => ⟨reg, point, .quiet⟩

/-- One turn of a request. -/
def turn (config : UploadConfig) (req : UploadRequest) (event : UploadEvent)
    (reg : InMemoryState) (point : UploadPoint) : UploadTurn :=
  match req with
  | .patch contentRange body => config.patchUpload contentRange body event reg point
  | .finish digest body => config.finishUpload digest body event reg point

end UploadConfig

end FerroProtocols.Oci
