import FerroProtocols.Maven.Error

/-! POM documents, as far as an upload looks at them, with the XML library as a parameter. -/

namespace FerroProtocols.Maven

/-- What the XML library makes of a text. -/
inductive XmlOutcome (α : Type) where
  | value (value : α)
  | failed (error : String)
  -- The payload of a panic may be a text.
  | panicked (payload : Option String)
  deriving DecidableEq

/-- A value, or an error with a message for people. -/
def fromStrPanicSafe {α : Type} (outcome : XmlOutcome α) (onErr : String → MavenError) : Except MavenError α :=
  match outcome with
  | .value value => .ok value
  | .failed error => .error (onErr ("XML parse failed: " ++ error))
  | .panicked payload => .error (onErr ("XML parser panicked on malformed input: " ++
      payload.getD "non-string panic payload"))

/-- The fields of a `parent` element. -/
structure RawParent where
  groupId : Option String := none
  artifactId : Option String := none
  version : Option String := none
  deriving DecidableEq

/-- The fields of a `project` element that are read. -/
structure RawPom where
  modelVersion : Option String := none
  groupId : Option String := none
  artifactId : Option String := none
  version : Option String := none
  packaging : Option String := none
  parent : Option RawParent := none
  deriving DecidableEq

/-- The parent of a POM. -/
structure PomParent where
  groupId : String
  artifactId : String
  version : String
  deriving DecidableEq

/-- A POM, with what it inherits from its parent. -/
structure Pom where
  modelVersion : Option String
  groupId : String
  artifactId : String
  version : String
  packaging : String
  parent : Option PomParent
  deriving DecidableEq

/-- Read a POM; the group and the version may come from the parent. -/
def parsePom (readPom : String → XmlOutcome RawPom) (xml : String) : Except MavenError Pom :=
  match fromStrPanicSafe (readPom xml) .invalidPom with
  | .error error => .error error
  | .ok raw =>
    let parent := raw.parent.map fun found =>
      ⟨found.groupId.getD "", found.artifactId.getD "", found.version.getD ""⟩
    let groupId := (raw.groupId.or (parent.map PomParent.groupId)).getD ""
    let version := (raw.version.or (parent.map PomParent.version)).getD ""
    let artifactId := raw.artifactId.getD ""
    if groupId = "" then .error (.invalidPom "POM missing groupId (and no <parent><groupId>)")
    else if artifactId = "" then .error (.invalidPom "POM missing artifactId")
    else if version = "" then .error (.invalidPom "POM missing version (and no <parent><version>)")
    else .ok ⟨raw.modelVersion, groupId, artifactId, version, raw.packaging.getD "jar", parent⟩

end FerroProtocols.Maven
