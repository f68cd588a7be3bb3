import FerroProtocols.BlobStore.Digest

/-! Error answers of the registry, and the errors of the store as such answers. -/

namespace FerroProtocols.Oci

open BlobStore

/-- The codes an error answer can carry. -/
inductive OciErrorCode where
  | blobUnknown
  | blobUploadInvalid
  | blobUploadUnknown
  | digestInvalid
  | manifestBlobUnknown
  | manifestInvalid
  | manifestUnknown
  | nameInvalid
  | nameUnknown
  | sizeInvalid
  | unauthorized
  | denied
  | unsupported
  | tooManyRequests
  deriving DecidableEq, Repr

/-- The HTTP status of a code. -/
def OciErrorCode.status : OciErrorCode → Nat
  | .blobUnknown | .blobUploadUnknown | .manifestBlobUnknown | .manifestUnknown | .nameUnknown => 404
  | .blobUploadInvalid | .digestInvalid | .manifestInvalid | .nameInvalid | .sizeInvalid => 400
  | .unauthorized => 401
  | .denied => 403
  | .unsupported => 405
  | .tooManyRequests => 429

/-- An error answer. -/
structure OciError where
  code : OciErrorCode
  message : String
  statusOverride : Option Nat := none
  deriving DecidableEq, Repr

/-- The HTTP status of an answer. -/
def OciError.status (error : OciError) : Nat := error.statusOverride.getD error.code.status

/-- The text of a store error. -/
def storeErrorText : BlobStoreError → String
  | .io error => "io: " ++ error.message
  | .digestMismatch expected computed =>
    "digest mismatch on put: caller said " ++ expected ++ ", computed " ++ computed
  | .notFound what => "blob not found: " ++ what
  | .invalidDigest error => "invalid digest: " ++ error.text

/-- The answer for a store error. -/
def OciError.ofBlobStore (error : BlobStoreError) : OciError :=
  match error with
  | .notFound _ => ⟨.blobUnknown, storeErrorText error, none⟩
  | .digestMismatch _ _ | .invalidDigest _ => ⟨.digestInvalid, storeErrorText error, none⟩
  | .io _ => ⟨.unsupported, storeErrorText error, none⟩

end FerroProtocols.Oci
