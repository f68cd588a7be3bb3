import FerroProtocols.Maven.Pom
import FerroProtocols.Maven.Snapshot

/-!
Documents named `maven-metadata.xml`: the index of an artifact, and the builds of a SNAPSHOT version.
-/

namespace FerroProtocols.Maven

open Texts

/-- The newest build of a SNAPSHOT version. -/
structure Snapshot where
  timestamp : String
  buildNumber : Nat
  deriving DecidableEq

/-- A file of a SNAPSHOT version. -/
structure SnapshotVersion where
  classifier : Option String
  extension : String
  -- The timestamped version.
  value : String
  updated : String
  deriving DecidableEq

/-- A document. -/
structure MavenMetadata where
  groupId : String
  artifactId : String
  version : Option String
  release : Option String
  latest : Option String
  versions : List String
  lastUpdated : Option String
  snapshot : Option Snapshot
  snapshotVersions : List SnapshotVersion
  deriving DecidableEq

/-- The fields of a `snapshot` element. -/
structure RawSnapshot where
  timestamp : Option String := none
  buildNumber : Option Nat := none
  deriving DecidableEq

/-- The fields of a `snapshotVersion` element. -/
structure RawSnapshotVersion where
  classifier : Option String := none
  extension : Option String := none
  value : Option String := none
  updated : Option String := none
  deriving DecidableEq

/-- The fields of a `versioning` element. -/
structure RawVersioning where
  release : Option String := none
  latest : Option String := none
  snapshot : Option RawSnapshot := none
  versions : Option (List String) := none
  snapshotVersions : Option (List RawSnapshotVersion) := none
  lastUpdated : Option String := none
  deriving DecidableEq

/-- The fields of a `metadata` element. -/
structure RawMetadata where
  groupId : Option String := none
  artifactId : Option String := none
  version : Option String := none
  versioning : Option RawVersioning := none
  deriving DecidableEq

namespace MavenMetadata

/-- The index of an artifact. -/
def artifactIndex (groupId artifactId : String) (versions : List String) (lastUpdated : DateTime) :
    MavenMetadata where
  groupId := groupId
  artifactId := artifactId
  version := none
  release := versions.reverse.find? fun version => !isSnapshotVersion version
  latest := versions.getLast?
  versions := versions
  lastUpdated := some lastUpdated.formatLastUpdated
  snapshot := none
  snapshotVersions := []

/-- The builds of a SNAPSHOT version. -/
def snapshotMetadata (groupId artifactId version : String) (snapshot : Snapshot)
    (snapshotVersions : List SnapshotVersion) (lastUpdated : DateTime) : MavenMetadata where
  groupId := groupId
  artifactId := artifactId
  version := some version
  release := none
  latest := none
  versions := []
  lastUpdated := some lastUpdated.formatLastUpdated
  snapshot := some snapshot
  snapshotVersions := snapshotVersions

/-- A text with entities for the characters of markup. -/
def escape (text : String) : String :=
  replace '>' "&gt;" (replace '<' "&lt;" (replace '&' "&amp;" text))

/-- A line with one element. -/
def element (indent tag text : String) : String :=
  indent ++ "<" ++ tag ++ ">" ++ text ++ "</" ++ tag ++ ">\n"

/-- The lines of one file of a SNAPSHOT version. -/
def snapshotVersionXml (entry : SnapshotVersion) : String :=
  "      <snapshotVersion>\n" ++
    (entry.classifier.map fun text => element "        " "classifier" (escape text)).getD "" ++
    element "        " "extension" (escape entry.extension) ++
    element "        " "value" (escape entry.value) ++
    element "        " "updated" (escape entry.updated) ++ "      </snapshotVersion>\n"

/-- The lines of the newest build. -/
def snapshotXml (snapshot : Snapshot) : String :=
  "    <snapshot>\n" ++ element "      " "timestamp" (escape snapshot.timestamp) ++
    element "      " "buildNumber" (toString snapshot.buildNumber) ++ "    </snapshot>\n"

/-- The text of a document. -/
def toXml (doc : MavenMetadata) : String :=
  "<?xml version=\"1.0\" encoding=\"UTF-8\"?>\n" ++ "<metadata>\n" ++
    element "  " "groupId" (escape doc.groupId) ++
    element "  " "artifactId" (escape doc.artifactId) ++
    (doc.version.map fun text => element "  " "version" (escape text)).getD "" ++
    "  <versioning>\n" ++
    (doc.release.map fun text => element "    " "release" (escape text)).getD "" ++
    (doc.latest.map fun text => element "    " "latest" (escape text)).getD "" ++
    (doc.snapshot.map snapshotXml).getD "" ++
    (if doc.versions.isEmpty then ""
      else "    <versions>\n" ++ String.join (doc.versions.map fun text =>
        element "      " "version" (escape text)) ++ "    </versions>\n") ++
    (if doc.snapshotVersions.isEmpty then ""
      else "    <snapshotVersions>\n" ++ String.join (doc.snapshotVersions.map snapshotVersionXml) ++
        "    </snapshotVersions>\n") ++
    (doc.lastUpdated.map fun text => element "    " "lastUpdated" (escape text)).getD "" ++
    "  </versioning>\n" ++ "</metadata>\n"

/-- Read a document. -/
def fromXml (readMetadata : String → XmlOutcome RawMetadata) (xml : String) : Except MavenError MavenMetadata :=
  match fromStrPanicSafe (readMetadata xml) .invalidMetadata with
  | .error error => .error error
  | .ok raw =>
    let groupId := raw.groupId.getD ""
    let artifactId := raw.artifactId.getD ""
    if groupId = "" ∨ artifactId = "" then .error (.invalidMetadata "metadata missing groupId or artifactId")
    else
      let versioning := raw.versioning.getD {}
      .ok {
        groupId, artifactId
        version := raw.version
        release := versioning.release
        latest := versioning.latest
        versions := versioning.versions.getD []
        lastUpdated := versioning.lastUpdated
        snapshot := versioning.snapshot.map fun found => ⟨found.timestamp.getD "", found.buildNumber.getD 0⟩
        snapshotVersions := (versioning.snapshotVersions.getD []).map fun found =>
          ⟨found.classifier, found.extension.getD "", found.value.getD "", found.updated.getD ""⟩ }

end MavenMetadata

end FerroProtocols.Maven
