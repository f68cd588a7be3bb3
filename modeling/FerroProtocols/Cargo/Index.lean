import FerroProtocols.Lib.Fallible
import FerroProtocols.Lib.FieldVisitor
import FerroProtocols.Oci.ManifestHandlers

/-! Entries of the index, and how they are made from the manifest of a publish. -/

namespace FerroProtocols.Cargo

open Oci (Value)
open Std Fallible FieldVisitor

/-- Why a JSON value is not of the type that is expected. -/
inductive DecodeError where
  | invalidType (found : Value) (expected : String)
  | missingField (field : String)
  | duplicateField (field : String)
  | invalidLength (length : Nat) (expected : String)

namespace Decode

/-- A text. -/
def string : Value → Except DecodeError String
  | .string text => .ok text
  | value => .error (.invalidType value "a string")

/-- A truth value. -/
def bool : Value → Except DecodeError Bool
  | .bool value => .ok value
  | value => .error (.invalidType value "a boolean")

/-- A value that may be missing. -/
def option {α : Type} (decode : Value → Except DecodeError α) : Value → Except DecodeError (Option α)
  | .null => .ok none
  | value => (decode value).map some

/-- The values of an array. -/
def list {α : Type} (decode : Value → Except DecodeError α) : Value → Except DecodeError (List α)
  | .array items => items.mapM decode
  | value => .error (.invalidType value "a sequence")

/-- The values of an object under their names. -/
def map {α : Type} (decode : Value → Except DecodeError α) :
    Value → Except DecodeError (ExtTreeMap String α)
  | .object entries => entries.foldlM (fun map entry =>
      (decode entry.2).map fun value => map.insert entry.1 value) ∅
  | value => .error (.invalidType value "a map")

/-- A structure, from an object with its fields or an array of their values. -/
def struct {φ α : Type} (label : String) (names : List String)
    (visit : φ → String → Value → Except DecodeError φ) (blank : φ)
    (finish : DecodeError → φ → Except DecodeError α) : Value → Except DecodeError α
  | .object entries =>
    match visitAll visit blank entries with
    | .error error => .error error
    -- Only the name has no default.
    | .ok fields => finish (.missingField "name") fields
  | .array items =>
    match visitAll visit blank (names.zip items) with
    | .error error => .error error
    | .ok fields =>
      match finish (.invalidLength 0 (label ++ " with " ++ toString names.length ++ " elements"))
        fields with
      | .error error => .error error
      | .ok result =>
        if names.length < items.length then
          .error (.invalidLength items.length "fewer elements in array")
        else .ok result
  | value => .error (.invalidType value label)

end Decode

/-- A dependency as a publish declares it. -/
structure PublishDep where
  name : String
  versionReq : String
  features : List String
  optional : Bool
  defaultFeatures : Bool
  target : Option String
  kind : Option String
  registry : Option String
  explicitNameInToml : Option String

/-- The fields of a dependency that have been read. -/
structure PublishDepFields where
  name : Option String := none
  versionReq : Option String := none
  features : Option (List String) := none
  optional : Option Bool := none
  defaultFeatures : Option Bool := none
  target : Option (Option String) := none
  kind : Option (Option String) := none
  registry : Option (Option String) := none
  explicitNameInToml : Option (Option String) := none

namespace PublishDep

/-- Read one field of a dependency; others are skipped. -/
def visit (fields : PublishDepFields) (key : String) (value : Value) :
    Except DecodeError PublishDepFields :=
  let once : DecodeError := .duplicateField key
  if key = "name" then
    (take once Decode.string fields.name value).map fun name => { fields with name }
  else if key = "version_req" then
    (take once Decode.string fields.versionReq value).map fun versionReq => { fields with versionReq }
  else if key = "features" then
    (take once (Decode.list Decode.string) fields.features value).map fun features =>
      { fields with features }
  else if key = "optional" then
    (take once Decode.bool fields.optional value).map fun optional => { fields with optional }
  else if key = "default_features" then
    (take once Decode.bool fields.defaultFeatures value).map fun defaultFeatures =>
      { fields with defaultFeatures }
  else if key = "target" then
    (take once (Decode.option Decode.string) fields.target value).map fun target =>
      { fields with target }
  else if key = "kind" then
    (take once (Decode.option Decode.string) fields.kind value).map fun kind => { fields with kind }
  else if key = "registry" then
    (take once (Decode.option Decode.string) fields.registry value).map fun registry =>
      { fields with registry }
  else if key = "explicit_name_in_toml" then
    (take once (Decode.option Decode.string) fields.explicitNameInToml value).map
      fun explicitNameInToml => { fields with explicitNameInToml }
  else .ok fields

/-- The dependency with some fields; all but the name have defaults. -/
def finish (missing : DecodeError) (fields : PublishDepFields) : Except DecodeError PublishDep :=
  match fields.name with
  | none => .error missing
  | some name =>
    .ok ⟨name, fields.versionReq.getD "", fields.features.getD [], fields.optional.getD false,
      fields.defaultFeatures.getD true, fields.target.getD none, fields.kind.getD none,
      fields.registry.getD none, fields.explicitNameInToml.getD none⟩

/-- Decode a dependency. -/
def decode : Value → Except DecodeError PublishDep :=
  Decode.struct "struct PublishDep" ["name", "version_req", "features", "optional", "default_features",
    "target", "kind", "registry", "explicit_name_in_toml"] visit {} finish

end PublishDep

/-- A dependency in the index. -/
structure IndexDep where
  name : String
  req : String
  features : List String
  optional : Bool
  defaultFeatures : Bool
  target : Option String
  kind : Option String
  registry : Option String
  package : Option String

/-- A dependency of a publish as it stands in the index: under its alias, if it has one. -/
def PublishDep.intoIndexDep (dep : PublishDep) : IndexDep :=
  let (name, package) :=
    match dep.explicitNameInToml with
    | some nickname => if nickname ≠ dep.name then (nickname, some dep.name) else (dep.name, none)
    | none => (dep.name, none)
  ⟨name, dep.versionReq, dep.features, dep.optional, dep.defaultFeatures, dep.target, dep.kind,
    dep.registry, package⟩

/-- Lists of features under their names. -/
abbrev FeatureMap := ExtTreeMap String (List String)

/-- The manifest of a publish. -/
structure PublishManifest where
  name : String
  vers : String
  version : String
  deps : List PublishDep
  features : FeatureMap
  links : Option String
  rustVersion : Option String

/-- The fields of a manifest that have been read. -/
structure PublishManifestFields where
  name : Option String := none
  vers : Option String := none
  version : Option String := none
  deps : Option (List PublishDep) := none
  features : Option FeatureMap := none
  links : Option (Option String) := none
  rustVersion : Option (Option String) := none

/-- One line of the index. -/
structure IndexEntry where
  name : String
  vers : String
  deps : List IndexDep
  cksum : String
  features : FeatureMap
  yanked : Bool
  links : Option String
  v : Option UInt32
  features2 : Option FeatureMap
  rustVersion : Option String

namespace PublishManifest

/-- Read one field of a manifest; others are skipped. -/
def visit (fields : PublishManifestFields) (key : String) (value : Value) :
    Except DecodeError PublishManifestFields :=
  let once : DecodeError := .duplicateField key
  if key = "name" then
    (take once Decode.string fields.name value).map fun name => { fields with name }
  else if key = "vers" then
    (take once Decode.string fields.vers value).map fun vers => { fields with vers }
  else if key = "version" then
    (take once Decode.string fields.version value).map fun version => { fields with version }
  else if key = "deps" then
    (take once (Decode.list PublishDep.decode) fields.deps value).map fun deps => { fields with deps }
  else if key = "features" then
    (take once (Decode.map (Decode.list Decode.string)) fields.features value).map fun features =>
      { fields with features }
  else if key = "links" then
    (take once (Decode.option Decode.string) fields.links value).map fun links => { fields with links }
  else if key = "rust_version" then
    (take once (Decode.option Decode.string) fields.rustVersion value).map fun rustVersion =>
      { fields with rustVersion }
  else .ok fields

/-- The manifest with some fields; all but the name have defaults. -/
def finish (missing : DecodeError) (fields : PublishManifestFields) :
    Except DecodeError PublishManifest :=
  match fields.name with
  | none => .error missing
  | some name =>
    .ok ⟨name, fields.vers.getD "", fields.version.getD "", fields.deps.getD [],
      fields.features.getD ∅, fields.links.getD none, fields.rustVersion.getD none⟩

/-- Decode a manifest. -/
def decode : Value → Except DecodeError PublishManifest :=
  Decode.struct "struct PublishManifest" ["name", "vers", "version", "deps", "features", "links",
    "rust_version"] visit {} finish

/-- The index entry of a manifest, with the checksum of its tarball. -/
def intoIndexEntry (manifest : PublishManifest) (cksum : String) : IndexEntry where
  name := manifest.name
  vers := if manifest.vers.isEmpty then manifest.version else manifest.vers
  deps := manifest.deps.map PublishDep.intoIndexDep
  cksum := cksum
  features := manifest.features
  yanked := false
  links := manifest.links
  v := some 2
  features2 := none
  rustVersion := manifest.rustVersion

end PublishManifest

/-- The index entry of a publish. -/
def entryFromManifest (manifest : Value) (cksum : String) : Except DecodeError IndexEntry :=
  (PublishManifest.decode manifest).map fun manifest => manifest.intoIndexEntry cksum

section Agreement

private theorem visit_frame {fields next : PublishManifestFields} {key : String} {value : Value}
    (visited : PublishManifest.visit fields key value = .ok next) :
    (key ≠ "name" → next.name = fields.name) ∧ (key ≠ "vers" → next.vers = fields.vers) ∧
      (key ≠ "version" → next.version = fields.version) := by
  simp only [PublishManifest.visit] at visited
  -- Seven branches fill one field each, and the last one none.
  repeat' split at visited
  all_goals
    first
    | obtain ⟨taken, _, rfl⟩ := exists_of_map_eq_ok visited
      simp_all
    | cases visited
      exact ⟨fun _ => rfl, fun _ => rfl, fun _ => rfl⟩

private theorem fills_of_branch {slot : PublishManifestFields → Option String} {name : String}
    (put : PublishManifestFields → Option String → PublishManifestFields)
    (branch : ∀ fields value, PublishManifest.visit fields name value =
      (take (.duplicateField name) Decode.string (slot fields) value).map (put fields))
    (puts : ∀ fields filled, slot (put fields filled) = filled) (frame : ∀ {fields next key value}, key ≠ name →
      PublishManifest.visit fields key value = .ok next → slot next = slot fields) :
    Fills PublishManifest.visit slot name Decode.string where
  here := by
    intro fields value next visited
    rw [branch] at visited
    obtain ⟨taken, took, rfl⟩ := exists_of_map_eq_ok visited
    rw [puts]
    exact take_eq_ok took
  elsewhere := frame

private theorem fills_name : Fills PublishManifest.visit PublishManifestFields.name "name" Decode.string :=
  fills_of_branch (fun fields name => { fields with name }) (fun _ _ => rfl) (fun _ _ => rfl)
    fun different visited => (visit_frame visited).1 different

private theorem fills_vers : Fills PublishManifest.visit PublishManifestFields.vers "vers" Decode.string :=
  fills_of_branch (fun fields vers => { fields with vers }) (fun _ _ => rfl) (fun _ _ => rfl)
    fun different visited => (visit_frame visited).2.1 different

private theorem fills_version : Fills PublishManifest.visit PublishManifestFields.version "version" Decode.string :=
  fills_of_branch (fun fields version => { fields with version }) (fun _ _ => rfl) (fun _ _ => rfl)
    fun different visited => (visit_frame visited).2.2 different

private theorem asStr_of_string {value : Value} {text : String} (decoded : Decode.string value = .ok text) :
    value.asStr = some text := by
  cases value with
  | string found =>
    cases decoded
    rfl
  | _ => cases decoded

private theorem getD_of_fills {entries : List (String × Value)} {fields : PublishManifestFields}
    {slot : PublishManifestFields → Option String} {name : String}
    (fills : Fills PublishManifest.visit slot name Decode.string)
    (visited : visitAll PublishManifest.visit {} entries = .ok fields) (blank : slot {} = none) :
    (entries.lookup name = none ∧ slot fields = none) ∨
      ∃ text, (entries.lookup name).bind Value.asStr = some text ∧ slot fields = some text := by
  cases present : entries.lookup name with
  | none => exact .inl ⟨rfl, (fills.of_lookup_none visited present).trans blank⟩
  | some value =>
    obtain ⟨_, text, decoded, filled⟩ := fills.of_lookup_some visited present
    exact .inr ⟨text, asStr_of_string decoded, filled⟩

/-- The entry of a publish has the name and the version that the handler has read, and the checksum. -/
theorem entryFromManifest_eq_ok {manifest : Value} {cksum name vers : String} {entry : IndexEntry}
    (made : entryFromManifest manifest cksum = .ok entry)
    (named : (manifest.get "name").bind Value.asStr = some name)
    (versioned : ((manifest.get "vers").or (manifest.get "version")).bind Value.asStr = some vers)
    (filled : vers ≠ "") : entry.name = name ∧ entry.vers = vers ∧ entry.cksum = cksum ∧ entry.yanked = false := by
  obtain ⟨publish, decoded, rfl⟩ := exists_of_map_eq_ok made
  cases manifest with
  | object entries =>
    simp only [PublishManifest.decode, Decode.struct] at decoded
    split at decoded
    · cases decoded
    · rename_i fields visited
      simp only [PublishManifest.finish] at decoded
      split at decoded
      · cases decoded
      · rename_i found stored
        cases decoded
        simp only [Value.get] at named versioned
        refine ⟨?_, ?_, rfl, rfl⟩
        · rcases getD_of_fills fills_name visited rfl with ⟨absent, _⟩ | ⟨text, read, slot⟩
          · grind
          · rw [stored] at slot
            rw [named] at read
            exact (Option.some.inj slot).trans (Option.some.inj read).symm
        · simp only [PublishManifest.intoIndexEntry]
          rcases getD_of_fills fills_vers visited rfl with ⟨absent, slot⟩ | ⟨text, read, slot⟩
          · -- Without the one key the other is read, by both.
            rw [absent, Option.none_or] at versioned
            rcases getD_of_fills fills_version visited rfl with ⟨missing, _⟩ | ⟨text, read, other⟩
            · grind
            · rw [versioned] at read
              rw [slot, other, Option.getD_none, Option.getD_some]
              exact (Option.some.inj read).symm
          · have present : ((entries.lookup "vers").or (entries.lookup "version")) =
                entries.lookup "vers" := by
              cases present : entries.lookup "vers" with
              | none => grind
              | some value => rfl
            rw [present, read] at versioned
            cases versioned
            have filledIn : vers.isEmpty = false := by simpa [String.isEmpty_iff] using filled
            rw [slot, Option.getD_some, filledIn]
            rfl
  | _ => cases named

end Agreement

end FerroProtocols.Cargo
