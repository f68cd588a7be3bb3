import FerroProtocols.BlobStore.Memory
import FerroProtocols.Cargo.Index
import FerroProtocols.Cargo.Names
import FerroProtocols.Cargo.Version
import FerroProtocols.Lib.BigEndian

/-! The body of a publish, and what the handler finds out about it before it takes the lock. -/

namespace FerroProtocols.Cargo

open BlobStore
open Oci (Value)

/-- A publish as it was sent. -/
structure PublishRequest where
  manifest : Value
  tarball : Bytes

/-- The first four bytes as a number, the least significant byte first, and the rest. -/
def readU32Le (body : Bytes) : Except CargoError (Nat × Bytes) :=
  match body with
  | a :: b :: c :: d :: rest => .ok ((BigEndian.ofBytes d c b a).toNat, rest)
  | _ => .error (.invalidPublish "body too short for 4-byte length prefix")

/-- The functions that handlers are built on. -/
structure CargoServer where
  hashes : Hashes
  digits : DigitTable
  -- The JSON library, with the texts of its errors.
  fromSlice : Bytes → Except String Value
  describe : DecodeError → String

/-- A publish that has passed all checks that need no lock. -/
structure PublishPlan where
  name : String
  vers : String
  entry : IndexEntry
  key : String
  digest : Digest
  tarball : Bytes

namespace CargoServer

variable (server : CargoServer)

/-- Take a body apart; what follows the tarball is not looked at. -/
def parse (body : Bytes) : Except CargoError PublishRequest :=
  match readU32Le body with
  | .error error => .error error
  | .ok (metadataLen, rest) =>
    if rest.length < metadataLen then .error (.invalidPublish "metadata body truncated")
    else
      match server.fromSlice (rest.take metadataLen) with
      | .error message => .error (.invalidPublish ("metadata JSON parse: " ++ message))
      | .ok manifest =>
        match readU32Le (rest.drop metadataLen) with
        | .error error => .error error
        | .ok (crateLen, rest) =>
          if rest.length < crateLen then .error (.invalidPublish "crate body truncated")
          else .ok ⟨manifest, rest.take crateLen⟩

/-- A checksum that is declared must be the right one; an empty one counts as none. -/
def checkCksum (manifest : Value) (computed : String) : Except CargoError Unit :=
  match (manifest.get "cksum").bind Value.asStr with
  | none => .ok ()
  | some declared =>
    if declared ≠ "" ∧ declared ≠ computed then .error (.checksumMismatch declared computed)
    else .ok ()

/-- All checks that need no lock, in their order. -/
def preparePublish (body : Bytes) : Except CargoError PublishPlan :=
  match server.parse body with
  | .error error => .error error
  | .ok ⟨manifest, tarball⟩ =>
    match (manifest.get "name").bind Value.asStr with
    | none => .error (.invalidPublish "manifest missing `name`")
    | some name =>
      match validateName name with
      | .error error => .error error
      | .ok () =>
        match ((manifest.get "vers").or (manifest.get "version")).bind Value.asStr with
        | none => .error (.invalidPublish "manifest missing `vers`")
        | some vers =>
          if isValidSemver server.digits vers = false then .error (.invalidVersion vers)
          else
            let digest := Digest.sha256Of server.hashes.sha256 tarball
            match checkCksum manifest digest.hex with
            | .error error => .error error
            | .ok () =>
              match entryFromManifest manifest digest.hex with
              | .error error => .error (.invalidPublish ("manifest coerce: " ++ server.describe error))
              | .ok entry => .ok ⟨name, vers, entry, canonicalName name, digest, tarball⟩

/-- What holds of a publish that has passed the checks. -/
structure Prepared (plan : PublishPlan) : Prop where
  valid : isValidName plan.name = true
  semver : isValidSemver server.digits plan.vers = true
  key : plan.key = canonicalName plan.name
  digest : plan.digest = Digest.sha256Of server.hashes.sha256 plan.tarball
  name : plan.entry.name = plan.name
  vers : plan.entry.vers = plan.vers
  cksum : plan.entry.cksum = plan.digest.hex
  yanked : plan.entry.yanked = false

private theorem ne_empty_of_isValidSemver {table : DigitTable} {vers : String}
    (accepted : isValidSemver table vers = true) : vers ≠ "" := by
  rintro rfl
  cases accepted

/-- The entry that will be stored is that of the name and the version that were checked. -/
theorem prepared_of_preparePublish {body : Bytes} {plan : PublishPlan}
    (prepared : server.preparePublish body = .ok plan) : server.Prepared plan := by
  unfold preparePublish at prepared
  -- Each check that fails ends the request.
  split at prepared
  · cases prepared
  · rename_i manifest tarball _
    split at prepared
    · cases prepared
    · rename_i name named
      split at prepared
      · cases prepared
      · rename_i accepted
        split at prepared
        · cases prepared
        · rename_i vers versioned
          split at prepared
          · cases prepared
          · rename_i semver
            dsimp only at prepared
            split at prepared
            · cases prepared
            · split at prepared
              · cases prepared
              · rename_i entry made
                cases prepared
                have legal : isValidSemver server.digits vers = true := Bool.eq_true_of_not_eq_false semver
                obtain ⟨sameName, sameVers, cksum, yanked⟩ :=
                  entryFromManifest_eq_ok made named versioned (ne_empty_of_isValidSemver legal)
                exact ⟨validateName_eq_ok.mp accepted, legal, rfl, rfl, sameName, sameVers, cksum, yanked⟩

end CargoServer

end FerroProtocols.Cargo
