import FerroProtocols.Oci.Error

/-! The errors of the crate registry. -/

namespace FerroProtocols.Cargo

open BlobStore

/-- Why a request is refused. -/
inductive CargoError where
  | invalidName (name : String)
  | invalidVersion (version : String)
  | invalidPublish (reason : String)
  | checksumMismatch (declared computed : String)
  | notFound (what : String)
  | nameConflict (requested existing : String)
  | duplicateVersion (name version : String)
  | notImplemented (what : String)
  | persistence (reason : String)
  | storage (error : BlobStoreError)
  deriving DecidableEq, Repr

end FerroProtocols.Cargo
