import FerroProtocols.Maven.Alone

/-! Where documents are looked for. -/

namespace FerroProtocols.Maven

open BlobStore Std Texts MavenServer

namespace Coordinate

variable (coord : Coordinate)

/-- The path of the index of an artifact. -/
def indexPath : String := coord.groupPath ++ "/" ++ coord.artifactId ++ "/" ++ "maven-metadata.xml"

/-- The path of the document of a version. -/
def documentPath : String := coord.pathTo "maven-metadata.xml"

/-- The path of the index is read as the index of this artifact. -/
def IndexFound : Prop :=
  ∃ layout, parseLayoutPath coord.indexPath = .ok layout ∧ layout.pathClass = .metadata false none ∧
    layout.coordinate.groupId = coord.groupId ∧ layout.coordinate.artifactId = coord.artifactId

/-- The path of the document is read as the document of this version of this artifact. -/
def DocumentFound : Prop :=
  ∃ layout, parseLayoutPath coord.documentPath = .ok layout ∧ layout.pathClass = .metadata true none ∧
    layout.coordinate.groupId = coord.groupId ∧ layout.coordinate.artifactId = coord.artifactId ∧
      layout.coordinate.version = coord.version

/-- What a group, an artifact and a version must be like for their documents to be found. -/
structure Regular : Prop where
  parts : ∀ part ∈ coord.groupParts, part ≠ ""
  artifact : looksLikeVersion coord.artifactId = true → coord.groupParts.length < 2
  version : looksLikeVersion coord.version = true

private theorem segments_groupPath :
    segments coord.groupPath = coord.groupParts.filter fun part => decide (part ≠ "") := by
  rw [groupPath_eq_intercalate]
  exact segments_intercalate coord.slash_notMem_part

private theorem intercalate_segments_iff :
    ".".intercalate (segments coord.groupPath) = coord.groupId ↔ ∀ part ∈ coord.groupParts, part ≠ "" := by
  rw [segments_groupPath]
  constructor
  · intro same
    -- Split again, the group has just the parts that were kept.
    have filled : (coord.groupParts.filter fun part => decide (part ≠ "")) ≠ [] := by
      intro none
      rw [none] at same
      exact coord.group.filled same.symm
    have kept := split_intercalate (fun part member inside =>
      (mem_of_mem_split (List.mem_filter.mp member).1 inside).2 rfl) filled
    have again : coord.groupParts.filter (fun part => decide (part ≠ "")) = coord.groupParts :=
      kept.symm.trans (congrArg (split '.') same)
    intro part member
    exact of_decide_eq_true (List.filter_eq_self.mp again part member)
  · intro filled
    rw [List.filter_eq_self.mpr fun part member => decide_eq_true (filled part member)]
    exact intercalate_split coord.groupId

private theorem segments_of_parts (filled : ∀ part ∈ coord.groupParts, part ≠ "") :
    segments coord.groupPath = coord.groupParts := by
  rw [segments_groupPath]
  exact List.filter_eq_self.mpr fun part member => decide_eq_true (filled part member)

private theorem metadataName : mavenMetadataSuffix "maven-metadata.xml" = some .raw := by decide

private theorem isField_index : IsField "index" ∧ IsField "pom" :=
  ⟨(validateField_ok_iff "version" _).mp (by decide), (validateField_ok_iff "extension" _).mp (by decide)⟩

private theorem indexFound_iff : coord.IndexFound ↔ (∀ part ∈ coord.groupParts, part ≠ "") ∧
    (looksLikeVersion coord.artifactId = true → coord.groupParts.length < 2) := by
  have segmented : segments coord.indexPath =
      (segments coord.groupPath ++ [coord.artifactId]) ++ ["maven-metadata.xml"] := by
    rw [indexPath, segments_append, segments_append,
      segments_of_notMem coord.artifact.filled coord.artifact.slash_notMem,
      @segments_of_notMem "maven-metadata.xml" (by decide) (by decide)]
  rw [IndexFound, ← intercalate_segments_iff]
  rcases List.eq_nil_or_concat (segments coord.groupPath) with empty | ⟨most, last, grouped⟩
  · -- A group of dots alone has no segment, and the path is too short.
    have short : (segments coord.indexPath).length < 3 := by
      rw [segmented, empty]
      simp
    rw [empty]
    constructor
    · rintro ⟨layout, parsed, -⟩
      rw [parseLayoutPath, if_pos short] at parsed
      cases parsed
    · rintro ⟨joined, -⟩
      exact absurd joined.symm coord.group.filled
  · have read : parseLayoutPath coord.indexPath =
        if looksLikeVersion coord.artifactId ∧ most.reverse ≠ [] then
          layoutPath (".".intercalate most.reverse.reverse) last coord.artifactId none "pom" (.metadata true none)
        else layoutPath (".".intercalate (segments coord.groupPath)) coord.artifactId "index" none "pom"
          (.metadata false none) := by
      rw [parseLayoutPath_of_metadata segmented metadataName (by rw [grouped]; simp), grouped]
      simp [classifyMetadata, MetadataKind.checksum]
    have counted (joined : ".".intercalate (segments coord.groupPath) = coord.groupId) :
        coord.groupParts.length = most.length + 1 := by
      rw [← coord.segments_of_parts (coord.intercalate_segments_iff.mp joined), grouped]
      simp
    by_cases versioned : looksLikeVersion coord.artifactId = true ∧ most.reverse ≠ []
    · rw [if_pos versioned] at read
      constructor
      · rintro ⟨layout, parsed, index, -⟩
        rw [read, layoutPath_eq_ok_iff] at parsed
        rw [parsed.2] at index
        cases index
      · rintro ⟨joined, narrow⟩
        have one := narrow versioned.1
        have more : 0 < most.length := List.length_pos_iff.mpr fun none => versioned.2 (by rw [none]; rfl)
        rw [counted joined] at one
        omega
    · rw [if_neg versioned] at read
      constructor
      · rintro ⟨layout, parsed, -, groups, -⟩
        rw [read, layoutPath_eq_ok_iff] at parsed
        have joined := parsed.1.1.symm.trans groups
        refine ⟨joined, fun digit => ?_⟩
        have few : most = [] := by simpa [digit] using versioned
        rw [counted joined, few]
        decide
      · rintro ⟨joined, -⟩
        refine ⟨⟨⟨coord.groupId, coord.artifactId, "index", none, "pom", coord.group,
          coord.artifact, isField_index.1, isField_index.2, fun _ none => by cases none⟩, .metadata false none⟩,
          ?_, rfl, rfl, rfl⟩
        rw [read]
        exact layoutPath_eq_ok_iff.mpr ⟨⟨joined.symm, rfl, rfl, rfl, rfl⟩, rfl⟩

private theorem documentFound_iff : coord.DocumentFound ↔
    (∀ part ∈ coord.groupParts, part ≠ "") ∧ looksLikeVersion coord.version = true := by
  have segmented : segments coord.documentPath =
      (segments coord.groupPath ++ [coord.artifactId, coord.version]) ++ ["maven-metadata.xml"] := by
    rw [documentPath, segments_pathTo (by decide) (by decide)]
    simp
  have read : parseLayoutPath coord.documentPath =
      if looksLikeVersion coord.version ∧ (segments coord.groupPath).reverse ≠ [] then
        layoutPath (".".intercalate (segments coord.groupPath)) coord.artifactId coord.version none "pom"
          (.metadata true none)
      else layoutPath (".".intercalate (coord.artifactId :: (segments coord.groupPath).reverse).reverse)
        coord.version "index" none "pom" (.metadata false none) := by
    rw [parseLayoutPath_of_metadata segmented metadataName (by simp)]
    simp [classifyMetadata, MetadataKind.checksum]
  rw [DocumentFound, ← intercalate_segments_iff]
  by_cases versioned : looksLikeVersion coord.version = true ∧ (segments coord.groupPath).reverse ≠ []
  · rw [if_pos versioned] at read
    constructor
    · rintro ⟨layout, parsed, -, groups, -⟩
      rw [read, layoutPath_eq_ok_iff] at parsed
      exact ⟨parsed.1.1.symm.trans groups, versioned.1⟩
    · rintro ⟨joined, -⟩
      refine ⟨⟨⟨coord.groupId, coord.artifactId, coord.version, none, "pom", coord.group,
        coord.artifact, coord.versioned, isField_index.2, fun _ none => by cases none⟩, .metadata true none⟩,
        ?_, rfl, rfl, rfl, rfl⟩
      rw [read]
      exact layoutPath_eq_ok_iff.mpr ⟨⟨joined.symm, rfl, rfl, rfl, rfl⟩, rfl⟩
  · rw [if_neg versioned] at read
    constructor
    · rintro ⟨layout, parsed, doc, -⟩
      rw [read, layoutPath_eq_ok_iff] at parsed
      rw [parsed.2] at doc
      cases doc
    · rintro ⟨joined, digit⟩
      -- The group is empty, which no group is.
      have none : segments coord.groupPath = [] := by simpa [digit] using versioned
      rw [none] at joined
      exact absurd joined.symm coord.group.filled

private theorem found_iff : coord.IndexFound ∧ coord.DocumentFound ↔ coord.Regular := by
  rw [indexFound_iff, documentFound_iff]
  exact ⟨fun ⟨⟨parts, artifact⟩, _, version⟩ => ⟨parts, artifact, version⟩,
    fun regular => ⟨⟨regular.parts, regular.artifact⟩, regular.parts, regular.version⟩⟩

end Coordinate

section Index

variable {ι : Type}

/-- The documents of a coordinate are found exactly if it is regular.
After an upload the index that is downloaded from the path for it is the one of the artifact that was uploaded. -/
theorem documents_are_found (coord : Coordinate) :
    (coord.IndexFound ∧ coord.DocumentFound ↔ coord.Regular) ∧
    (coord.Regular → ∀ (server : MavenServer) (thread : ι) (state : MavenState ι) (repo path : String)
      (body : Bytes) (events : Nat → MavenEvent) (response : Response), state.writer = none →
      parseLayoutPath path = .ok ⟨coord, .artifact⟩ →
      (server.perform thread (.put repo path body) events state).2 = .answered (.responded response) →
      let after := (server.perform thread (.put repo path body) events state).1
      ∃ now, server.Serves after repo coord.indexPath (textBytes
        (MavenMetadata.artifactIndex coord.groupId coord.artifactId
          (versionsOf (coord.entryStart repo) after.layout) now).toXml)) := by
  refine ⟨coord.found_iff, ?_⟩
  intro regular server thread state repo path body events response unlocked parsed accepted after
  obtain ⟨layout, read, index, groups, artifacts⟩ := (coord.found_iff.mpr regular).1
  have performed := server.performs thread (.put repo path body) events unlocked
  rcases performed.of_uploads ⟨rfl, parsed⟩ with ⟨error, refused⟩ | ⟨blobs, put, done⟩
  · rw [refused] at accepted
    cases accepted
  · refine ⟨MavenServer.indexTime coord events, serves_document read index ?_⟩
    -- The index is kept under the names that are read off its path.
    have key : layout.metadataKey repo false = coord.indexKey repo := by
      simp [LayoutPath.metadataKey, Coordinate.indexKey, Coordinate.groupPath, groups, artifacts]
    have whole : after = server.uploaded repo path coord body events { state with blobs } := congrArg Prod.fst done
    rw [key, whole, MavenServer.uploaded, MavenServer.indexed, MavenState.getElem?_cache, if_pos rfl]
    rfl

/-- After the upload of a release the index of the artifact is downloaded from its path. -/
theorem documents_are_found_demo : demo.Regular ∧ ∃ now, sample.Serves
    (sample.perform () (.put "releases" "org/demo/1.0/demo-1.0.jar" [1]) (fun _ => .sample)
      (MavenState.new Unit)).1 "releases" "org/demo/maven-metadata.xml"
    (textBytes (MavenMetadata.artifactIndex "org" "demo" ["1.0"] now).toXml) := by
  have regular : demo.Regular := ⟨by decide +kernel, by decide +kernel, by decide +kernel⟩
  obtain ⟨parsed, accepted, path, versions⟩ : parseLayoutPath "org/demo/1.0/demo-1.0.jar" = .ok ⟨demo, .artifact⟩ ∧
      (sample.perform () (.put "releases" "org/demo/1.0/demo-1.0.jar" [1]) (fun _ => .sample)
        (MavenState.new Unit)).2 = .answered (sample.uploadAnswer [1]) ∧
      demo.indexPath = "org/demo/maven-metadata.xml" ∧
      versionsOf (demo.entryStart "releases") (sample.perform ()
        (.put "releases" "org/demo/1.0/demo-1.0.jar" [1]) (fun _ => .sample) (MavenState.new Unit)).1.layout =
          ["1.0"] := by
    decide +kernel
  obtain ⟨now, serves⟩ := (documents_are_found demo).2 regular sample () (MavenState.new Unit) "releases" _
    [1] (fun _ => .sample) _ rfl parsed accepted
  rw [path, versions] at serves
  exact ⟨regular, now, serves⟩

/-- The path for the index of an artifact with a digit in its name is taken for the path of a version. -/
theorem index_is_missed : let after := (sample.perform () (.put "releases" "org/apache/log4j/1.2/log4j-1.2.jar" [1])
      (fun _ => .sample) (MavenState.new Unit)).1
    (parseLayoutPath "org/apache/log4j/1.2/log4j-1.2.jar").toOption.map LayoutPath.pathClass = some .artifact ∧
      (parseLayoutPath "org/apache/log4j/maven-metadata.xml").toOption.map LayoutPath.pathClass =
        some (.metadata true none) ∧
      (sample.perform () (.put "releases" "org/apache/log4j/1.2/log4j-1.2.jar" [1])
        (fun _ => .sample) (MavenState.new Unit)).2 = .answered (sample.uploadAnswer [1]) ∧
      (sample.perform () (.get "releases" "org/apache/log4j/maven-metadata.xml" true) (fun _ => .sample) after).2 =
      .answered (.refused (.notFound "no maven-metadata.xml for org/apache")) := by
  decide +kernel

end Index

end FerroProtocols.Maven
