import FerroProtocols.Oci.Names
import FerroProtocols.Oci.UploadHandlers

/-! All requests on upload sessions, of any number of clients and on any number of sessions. -/

namespace FerroProtocols.Oci

open BlobStore Std

/-- What the handlers of all sessions share. -/
structure UploadServer where
  maxUploadSessionBytes : Nat
  limits : SessionLimits
  sha : Sha256

/-- A request on upload sessions. -/
inductive SessionRequest where
  -- Open a session, or store a blob at once when a digest is given.
  | init (name : String) (digest : Option String) (body : Bytes)
  | upload (name uuid : String) (req : UploadRequest)
  | status (name uuid : String)
  | cancel (name uuid : String)

/-- The repository a request is about. -/
def SessionRequest.name : SessionRequest → String
  | .init name _ _ | .upload name _ _ | .status name _ | .cancel name _ => name

/-- What the environment decides about a turn: also the identifier of a new session. -/
structure SessionEvent extends UploadEvent where
  uuid : String := ""

/-- How far a request has come; an answer without content carries its headers. -/
inductive SessionPoint where
  | upload (point : UploadPoint)
  | noContent (headers : List (String × String))
  deriving DecidableEq

/-- A request that has been answered with an error. -/
def SessionPoint.refused (error : OciError) : SessionPoint := .upload (.answered (.refused error))

namespace UploadServer

/-- What the requests on one session share. -/
def config (server : UploadServer) (name uuid : String) : UploadConfig :=
  ⟨name, uuid, server.maxUploadSessionBytes, server.limits, server.sha⟩

/-- Store a blob that comes with the request; no session is involved. -/
def monolithic (server : UploadServer) (name text : String) (body : Bytes)
    (put : Except BlobStoreError Unit) : UploadAnswer :=
  match Digest.parse text with
  | .error error =>
    .refused ⟨.digestInvalid, "invalid digest `" ++ text ++ "`: " ++ error.text, none⟩
  | .ok digest =>
    let actual := Digest.sha256Of server.sha body
    if actual.algo = digest.algo ∧ actual.hex ≠ digest.hex then
      .refused ⟨.digestInvalid, "digest mismatch: declared " ++ digest.toString ++ ", computed " ++
        actual.toString, none⟩
    else
      match put with
      | .error error => .refused (.ofBlobStore error)
      | .ok () => .created (blobCreatedHeaders name digest)

/-- Open a session, or store a blob at once. -/
def initUpload (server : UploadServer) (name : String) (digest : Option String) (body : Bytes)
    (event : SessionEvent) (reg : InMemoryState) : InMemoryState × UploadAnswer :=
  match digest with
  | some text => (reg, server.monolithic name text body event.put)
  | none =>
    match reg.startUpload server.limits name event.uuid event.now with
    | (.started uuid, after) => (after, .accepted (uploadLocationHeaders name uuid 0))
    | (.atCapacity cap, after) =>
      (after, .refused ⟨.tooManyRequests, "upload-session capacity reached (" ++ toString cap ++
        " concurrent sessions); retry later", none⟩)

/-- Tell how far a session has come. -/
def getUploadStatus (server : UploadServer) (name uuid : String) (now : Nat)
    (reg : InMemoryState) : InMemoryState × SessionPoint :=
  match reg.getUploadState name uuid server.limits.idleTtl now with
  | (none, after) => (after, .upload (.answered (server.config name uuid).unknownUpload))
  | (some session, after) => (after, .noContent (uploadLocationHeaders name uuid session.offset))

/-- Drop a session. -/
def cancelUpload (server : UploadServer) (name uuid : String) (reg : InMemoryState) :
    InMemoryState × SessionPoint :=
  match reg.cancelUpload name uuid with
  | (false, after) => (after, .upload (.answered (server.config name uuid).unknownUpload))
  | (true, after) => (after, .noContent [])

/-- One turn of a handler that has accepted the name of its repository. -/
def proceed (server : UploadServer) (req : SessionRequest) (event : SessionEvent)
    (reg : InMemoryState) (point : UploadPoint) : InMemoryState × SessionPoint :=
  match req, point with
  | .upload name uuid req, point =>
    let turn := (server.config name uuid).turn req event.toUploadEvent reg point
    (turn.registry, .upload turn.point)
  | .init name digest body, .ready =>
    let (after, answer) := server.initUpload name digest body event reg
    (after, .upload (.answered answer))
  | .status name uuid, .ready => server.getUploadStatus name uuid event.now reg
  | .cancel name uuid, .ready => server.cancelUpload name uuid reg
  | _, point => (reg, .upload point)

/-- One turn of a request; its first turn checks the name before anything else. -/
def turn (server : UploadServer) (req : SessionRequest) (event : SessionEvent)
    (reg : InMemoryState) : SessionPoint → InMemoryState × SessionPoint
  | .noContent headers => (reg, .noContent headers)
  | .upload .ready =>
    match validateName req.name with
    | .error error => (reg, .refused error)
    | .ok () => server.proceed req event reg .ready
  | .upload point => server.proceed req event reg point

end UploadServer

end FerroProtocols.Oci
