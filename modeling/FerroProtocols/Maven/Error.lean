import FerroProtocols.Cargo.Error

/-! The errors of the Maven repository. -/

namespace FerroProtocols.Maven

open BlobStore

/-- Why a request is refused. -/
inductive MavenError where
  | invalidPath (reason : String)
  | coordinateMismatch (reason : String)
  | invalidPom (reason : String)
  | invalidMetadata (reason : String)
  | notFound (what : String)
  | checksumMismatch (reason : String)
  | storage (error : BlobStoreError)
  deriving DecidableEq, Repr

end FerroProtocols.Maven
