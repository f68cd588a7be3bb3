import FerroProtocols.Lib.Fallible
import FerroProtocols.Maven.Checksum
import FerroProtocols.Maven.Coordinate

/-! Paths of a Maven repository, read by their segments. -/

namespace FerroProtocols.Maven

open Texts ChecksumAlgo

/-- What a path addresses. -/
inductive PathClass where
  | artifact
  | checksum (algo : ChecksumAlgo)
  -- A document of a version, or the index of an artifact; or the sidecar of one of them.
  | metadata (versionLevel : Bool) (checksum : Option ChecksumAlgo)
  deriving DecidableEq

/-- A path that was read. -/
structure LayoutPath where
  coordinate : Coordinate
  pathClass : PathClass
  deriving DecidableEq

/-- The parts of a path between its slashes, without the empty ones. -/
def segments (path : String) : List String :=
  (split '/' (trimStart '/' path)).filter fun segment => decide (segment ≠ "")

/-- A document, or the sidecar of one. -/
inductive MetadataKind where
  | raw
  | sidecar (algo : ChecksumAlgo)
  deriving DecidableEq

/-- The algorithm of a sidecar. -/
def MetadataKind.checksum : MetadataKind → Option ChecksumAlgo
  | .raw => none
  | .sidecar algo => some algo

/-- Whether the name of a file is the one of a document, or of a sidecar of it. -/
def mavenMetadataSuffix (name : String) : Option MetadataKind :=
  if name = "maven-metadata.xml" then some .raw
  else
    match stripPrefix "maven-metadata.xml." name with
    | some rest => (ChecksumAlgo.fromExtension rest).map .sidecar
    | none => none

/-- The name of a file without the extension of a checksum, and the algorithm of that. -/
def stripChecksumSuffix (name : String) : String × Option ChecksumAlgo :=
  match rsplitOnce '.' name with
  | some (stem, ext) =>
    match ChecksumAlgo.fromExtension ext with
    | some algo => (stem, some algo)
    | none => (name, none)
  | none => (name, none)

/-- The extensions with a dot. -/
def compoundExtensions : List String := ["tar.gz", "tar.bz2", "tar.xz", "tar.zst"]

/-- Split off one of several extensions. -/
def splitCompound (tail : String) : List String → Option (String × String)
  | [] => none
  | compound :: others =>
    match stripSuffix ("." ++ compound) tail with
    | some classifier => if classifier = "" then splitCompound tail others else some (classifier, compound)
    | none => splitCompound tail others

/-- The classifier and the extension of the rest of a name. -/
def splitClassifierAndExtension (tail : String) : Option (String × String) :=
  match splitCompound tail compoundExtensions with
  | some parts => some parts
  | none =>
    match rsplitOnce '.' tail with
    | none => none
    | some (classifier, extension) =>
      if classifier = "" ∨ extension = "" then none else some (classifier, extension)

/-- The classifier and the extension of the name of a file. -/
def splitFilename (artifactId version filename : String) : Except MavenError (Option String × String) :=
  match stripPrefix (artifactId ++ "-" ++ version) filename with
  | none => .error (.invalidPath ("filename `" ++ filename ++ "` does not start with `" ++
      (artifactId ++ "-" ++ version) ++ "`"))
  | some rest =>
    match stripPrefix "-" rest with
    | some tail =>
      match splitClassifierAndExtension tail with
      | some (classifier, extension) => .ok (some classifier, extension)
      | none => .error (.invalidPath ("filename tail `" ++ tail ++ "` must be `classifier.extension`"))
    | none =>
      match stripPrefix "." rest with
      | some tail => .ok (none, tail)
      | none => .error (.invalidPath ("filename `" ++ filename ++ "` has no extension separator"))

/-- A coordinate of a path, with the class of the path. -/
def layoutPath (groupId artifactId version : String) (classifier : Option String) (extension : String)
    (pathClass : PathClass) : Except MavenError LayoutPath :=
  match Coordinate.new groupId artifactId version classifier extension with
  | .ok coord => .ok ⟨coord, pathClass⟩
  | .error error => .error (.invalidPath error.text)

/-- The text of a segment has an ASCII digit, as versions do. -/
def looksLikeVersion (segment : String) : Bool := segment.toList.any Char.isDigit

/-- Read the path of a document; its segments before the name of the file come last one first. -/
def classifyMetadata (beforeFile : List String) (checksum : Option ChecksumAlgo) : Except MavenError LayoutPath :=
  match beforeFile with
  | last :: artifactId :: group =>
    if looksLikeVersion last ∧ group ≠ [] then
      layoutPath (".".intercalate group.reverse) artifactId last none "pom" (.metadata true checksum)
    else
      -- There is no version in the path of an index.
      layoutPath (".".intercalate (artifactId :: group).reverse) last "index" none "pom" (.metadata false checksum)
  | _ => .error (.invalidPath "metadata path must have at least 2 path components before the filename")

/-- The class of a file that is not a document. -/
def fileClass : Option ChecksumAlgo → PathClass
  | none => .artifact
  | some algo => .checksum algo

/-- Read a path. -/
def parseLayoutPath (path : String) : Except MavenError LayoutPath :=
  if (segments path).length < 3 then
    .error (.invalidPath ("path `" ++ path ++ "` has fewer than 3 segments"))
  else
    match (segments path).reverse with
    | [] => .error (.invalidPath "path has no filename")
    | filename :: beforeFile =>
      match mavenMetadataSuffix filename with
      | some kind => classifyMetadata beforeFile kind.checksum
      | none =>
        match beforeFile with
        | version :: artifactId :: first :: others =>
          let (stripped, checksum) := stripChecksumSuffix filename
          match splitFilename artifactId version stripped with
          | .error error => .error error
          | .ok (classifier, extension) =>
            layoutPath (".".intercalate (first :: others).reverse) artifactId version classifier extension
              (fileClass checksum)
        | _ => .error (.invalidPath ("artifact path `" ++ path ++ "` has fewer than 4 segments"))

section Segments

/-- Slashes in front of a path do not matter. -/
theorem segments_eq (path : String) :
    segments path = (split '/' path).filter fun segment => decide (segment ≠ "") := by
  rw [segments, trimStart, split, split, String.toList_ofList]
  induction path.toList with
  | nil => rfl
  | cons first rest ih =>
    rw [List.dropWhile_cons]
    by_cases slash : first = '/'
    · rw [if_pos (decide_eq_true slash), ih, splitOn_cons, if_pos slash]
      -- The slash only adds an empty part.
      rfl
    · rw [if_neg (by simp [slash])]

/-- Paths that are joined by a slash have the segments of both. -/
theorem segments_append (left right : String) :
    segments (left ++ "/" ++ right) = segments left ++ segments right := by
  rw [segments_eq, segments_eq, segments_eq, ← List.filter_append]
  exact congrArg _ (split_append left right)

/-- A text without a slash is one segment. -/
theorem segments_of_notMem {text : String} (filled : text ≠ "") (missing : '/' ∉ text.toList) :
    segments text = [text] := by
  rw [segments_eq, split_of_notMem missing]
  simp [filled]

/-- The segments of parts that are joined by slashes are the parts that are not empty. -/
theorem segments_intercalate {parts : List String} (apart : ∀ part ∈ parts, '/' ∉ part.toList) :
    segments ("/".intercalate parts) = parts.filter fun part => decide (part ≠ "") := by
  cases parts with
  | nil => decide
  | cons first rest =>
    rw [segments_eq]
    exact congrArg _ (split_intercalate apart (List.cons_ne_nil _ _))

end Segments

section Filenames

/-- A name has the extension of a checksum exactly when it is stripped. -/
theorem stripChecksumSuffix_eq_some_iff {name stem : String} {algo : ChecksumAlgo} :
    stripChecksumSuffix name = (stem, some algo) ↔ name = stem ++ "." ++ algo.extension := by
  have joined (ext : String) (tight : '.' ∉ ext.toList) :
      rsplitOnce '.' name = some (stem, ext) ↔ name = stem ++ "." ++ ext := by
    rw [rsplitOnce_eq_some_iff, ← String.toList_inj]
    simp [tight]
  rw [← joined _ algo.dot_notMem_extension, stripChecksumSuffix]
  cases found : rsplitOnce '.' name with
  | none => simp
  | some parts =>
    obtain ⟨before, ext⟩ := parts
    simp only [Option.some.injEq, Prod.mk.injEq]
    cases known : ChecksumAlgo.fromExtension ext with
    | none =>
      simp only [Prod.mk.injEq, reduceCtorEq, and_false, false_iff, not_and]
      rintro - rfl
      rw [fromExtension_eq_some_iff.mpr rfl] at known
      cases known
    | some other =>
      rw [fromExtension_eq_some_iff] at known
      subst known
      simp [extension_injective.eq_iff]

/-- A name without the extension of a checksum is kept. -/
theorem stripChecksumSuffix_fst_of_none {name stem : String} (stripped : stripChecksumSuffix name = (stem, none)) :
    stem = name := by
  unfold stripChecksumSuffix at stripped
  split at stripped
  · split at stripped
    · cases stripped
    · cases stripped
      rfl
  · cases stripped
    rfl

variable {extension classifier filename artifactId : String}

private theorem eq_of_splitCompound {tail : String} {compounds : List String}
    (found : splitCompound tail compounds = some (classifier, extension)) :
    tail = classifier ++ "." ++ extension ∧ classifier ≠ "" := by
  induction compounds with
  | nil => cases found
  | cons compound others ih =>
    rw [splitCompound] at found
    split at found
    · rename_i before stripped
      split at found
      · exact ih found
      · rename_i filled
        cases found
        exact ⟨by rw [stripSuffix_eq_some_iff.mp stripped, String.append_assoc], filled⟩
    · exact ih found

private theorem eq_of_splitClassifierAndExtension {tail : String}
    (found : splitClassifierAndExtension tail = some (classifier, extension)) :
    tail = classifier ++ "." ++ extension := by
  unfold splitClassifierAndExtension at found
  split at found
  · rename_i parts compound
    cases found
    exact (eq_of_splitCompound compound).1
  · split at found
    · cases found
    · rename_i before after cut
      split at found
      · cases found
      · cases found
        rw [← String.toList_inj, (rsplitOnce_eq_some_iff.mp cut).1]
        simp

private theorem eq_filenameOf {version : String} {classifier : Option String}
    (found : splitFilename artifactId version filename = .ok (classifier, extension)) :
    filename = Coordinate.filenameOf artifactId version classifier extension := by
  unfold splitFilename at found
  split at found
  · cases found
  · rename_i rest start
    rw [stripPrefix_eq_some_iff.mp start]
    split at found
    · rename_i tail dashed
      rw [stripPrefix_eq_some_iff.mp dashed]
      split at found
      · rename_i parts cut
        cases found
        rw [eq_of_splitClassifierAndExtension cut]
        simp only [Coordinate.filenameOf, String.append_assoc]
      · cases found
    · split at found
      · rename_i tail dotted
        cases found
        rw [stripPrefix_eq_some_iff.mp dotted]
        simp only [Coordinate.filenameOf, String.append_assoc]
      · cases found

/-- A name that is split starts with the artifact and the version. -/
theorem startsWith_of_splitFilename {version : String} {parts : Option String × String}
    (found : splitFilename artifactId version filename = .ok parts) :
    ∃ rest, filename = artifactId ++ "-" ++ version ++ rest := by
  unfold splitFilename at found
  split at found
  · cases found
  · rename_i rest start
    exact ⟨rest, stripPrefix_eq_some_iff.mp start⟩

end Filenames

section Files

variable {path : String} {coord : Coordinate} {checksum : Option ChecksumAlgo}

variable {layout : LayoutPath} {pathClass : PathClass} {name : String} {kind : MetadataKind} {before : List String}

/-- A path addresses a file with a coordinate. -/
theorem layoutPath_eq_ok_iff {groupId artifactId version extension : String} {classifier : Option String} :
    layoutPath groupId artifactId version classifier extension pathClass = .ok layout ↔
      (layout.coordinate.groupId = groupId ∧ layout.coordinate.artifactId = artifactId ∧
        layout.coordinate.version = version ∧ layout.coordinate.classifier = classifier ∧
        layout.coordinate.extension = extension) ∧ layout.pathClass = pathClass := by
  rw [← Coordinate.new_eq_ok_iff, layoutPath]
  obtain ⟨coord, own⟩ := layout
  cases Coordinate.new groupId artifactId version classifier extension with
  | error error => simp
  | ok made => simp [eq_comm]

private theorem fileClass_injective : Function.Injective fileClass := by
  intro left right same
  cases left <;> cases right <;> cases same <;> rfl

/-- The segments of the path of a file, and how its name is read. -/
structure IsFile (path : String) (coord : Coordinate) (checksum : Option ChecksumAlgo)
    (group : List String) (name : String) : Prop where
  grouped : group ≠ []
  segmented : segments path = group ++ [coord.artifactId, coord.version, name]
  groupId : coord.groupId = ".".intercalate group
  plain : mavenMetadataSuffix name = none
  stripped : stripChecksumSuffix name = (coord.filename, checksum)
  named : splitFilename coord.artifactId coord.version coord.filename =
    .ok (coord.classifier, coord.extension)

private theorem pathClass_of_classifyMetadata {beforeFile : List String} {checksum : Option ChecksumAlgo}
    (found : classifyMetadata beforeFile checksum = .ok layout) :
    ∃ versionLevel, layout.pathClass = .metadata versionLevel checksum := by
  unfold classifyMetadata at found
  split at found
  · split at found <;> exact ⟨_, (layoutPath_eq_ok_iff.mp found).2⟩
  · cases found

private theorem fileClass_ne_metadata (checksum other : Option ChecksumAlgo) (versionLevel : Bool) :
    fileClass checksum ≠ .metadata versionLevel other := by
  cases checksum <;> exact nofun

/-- The paths that are read as files. -/
theorem parseLayoutPath_file_iff : parseLayoutPath path = .ok ⟨coord, fileClass checksum⟩ ↔
    ∃ group name, IsFile path coord checksum group name := by
  constructor
  · intro found
    unfold parseLayoutPath at found
    split at found
    · cases found
    split at found
    · cases found
    rename_i name beforeFile reversed
    split at found
    · obtain ⟨level, other⟩ := pathClass_of_classifyMetadata found
      exact absurd other (fileClass_ne_metadata _ _ _)
    rename_i plain
    split at found
    · rename_i version artifactId first others
      dsimp only at found
      split at found
      · cases found
      rename_i classifier extension named
      obtain ⟨⟨groupId, rfl, rfl, rfl, rfl⟩, sameClass⟩ := layoutPath_eq_ok_iff.mp found
      dsimp only at groupId sameClass named
      have filename := eq_filenameOf named
      refine ⟨(first :: others).reverse, name, by simp, ?_, groupId, plain, ?_, ?_⟩
      · have forward := congrArg List.reverse reversed
        rw [List.reverse_reverse] at forward
        rw [forward]
        simp
      · rw [fileClass_injective sameClass]
        exact Prod.ext filename rfl
      · rw [filename] at named
        exact named
    · cases found
  · rintro ⟨group, name, file⟩
    obtain ⟨most, last, rfl⟩ := (List.eq_nil_or_concat group).resolve_left file.grouped
    have reversed : (segments path).reverse =
        name :: coord.version :: coord.artifactId :: last :: most.reverse := by
      rw [file.segmented]
      simp
    have long : ¬ (segments path).length < 3 := by
      rw [file.segmented]
      simp
    rw [parseLayoutPath, if_neg long, reversed]
    simp only [file.plain, file.stripped, file.named]
    rw [layoutPath_eq_ok_iff]
    exact ⟨⟨by simpa using file.groupId, rfl, rfl, rfl, rfl⟩, rfl⟩

/-- The paths that are read as artifacts. -/
theorem parseLayoutPath_artifact_iff : parseLayoutPath path = .ok ⟨coord, .artifact⟩ ↔
    ∃ group, IsFile path coord none group coord.filename := by
  refine (@parseLayoutPath_file_iff path coord none).trans ?_
  constructor
  · rintro ⟨group, name, file⟩
    refine ⟨group, ?_⟩
    rwa [stripChecksumSuffix_fst_of_none file.stripped]
  · rintro ⟨group, file⟩
    exact ⟨group, _, file⟩

/-- A path of a class is the path of some coordinate. -/
theorem exists_of_pathClass (read : (parseLayoutPath path).toOption.map LayoutPath.pathClass = some pathClass) :
    ∃ coord, parseLayoutPath path = .ok ⟨coord, pathClass⟩ := by
  obtain ⟨layout, parsed, rfl⟩ := Fallible.exists_of_toOption_map read
  exact ⟨layout.coordinate, parsed⟩

/-- The name of a document, or of one of its sidecars, has one dash. -/
theorem count_dash_of_mavenMetadataSuffix
    (found : mavenMetadataSuffix name = some kind) : name.toList.count '-' = 1 := by
  unfold mavenMetadataSuffix at found
  split at found
  · rename_i raw
    rw [raw]
    decide
  · split at found
    · rename_i rest start
      obtain ⟨algo, known, -⟩ := Option.map_eq_some_iff.mp found
      rw [stripPrefix_eq_some_iff.mp start, fromExtension_eq_some_iff.mp known]
      cases algo <;> decide
    · cases found

/-- The path of a document is read by the segments before its name. -/
theorem parseLayoutPath_of_metadata
    (segmented : segments path = before ++ [name]) (named : mavenMetadataSuffix name = some kind)
    (long : 2 ≤ before.length) : parseLayoutPath path = classifyMetadata before.reverse kind.checksum := by
  have reversed : (segments path).reverse = name :: before.reverse := by
    rw [segmented]
    simp
  have enough : ¬ (segments path).length < 3 := by
    rw [segmented, List.length_append, List.length_singleton]
    omega
  rw [parseLayoutPath, if_neg enough, reversed]
  simp only [named]

/-- A path that is read without a document at its end is the path of a file. -/
theorem exists_fileClass (segmented : segments path = before ++ [name]) (plain : mavenMetadataSuffix name = none)
    (parsed : parseLayoutPath path = .ok layout) : ∃ checksum, layout.pathClass = fileClass checksum := by
  have reversed : (segments path).reverse = name :: before.reverse := by
    rw [segmented]
    simp
  unfold parseLayoutPath at parsed
  split at parsed
  · cases parsed
  simp only [reversed, plain] at parsed
  split at parsed
  · split at parsed
    · cases parsed
    · exact ⟨_, (layoutPath_eq_ok_iff.mp parsed).2⟩
  · cases parsed

end Files

end FerroProtocols.Maven
