import FerroProtocols.Maven.Turns

/-! Keys of the layout, how those of builds are told apart, and the paths of coordinates. -/

namespace FerroProtocols.Maven

open BlobStore Texts Coordinate

/-- The segments of a key are those of the repository and of the path. -/
theorem segments_buildKey (repo path : String) :
    segments (buildKey repo path) = segments repo ++ segments path := segments_append repo path

/-- A repository without a slash is read off a key. -/
theorem buildKey_inj {repo repo' path path' : String} (whole : '/' ∉ repo.toList) (whole' : '/' ∉ repo'.toList)
    (same : buildKey repo path = buildKey repo' path') : repo = repo' ∧ path = path' :=
  join_inj rfl same whole whole'

namespace Coordinate

variable (coord : Coordinate)

/-- The parts of a group between its dots. -/
def groupParts : List String := split '.' coord.groupId

/-- No part of a group has a slash. -/
theorem slash_notMem_part : ∀ part ∈ coord.groupParts, '/' ∉ part.toList :=
  fun _ member inside => coord.group.slash_notMem (mem_of_mem_split member inside).1

/-- The path of a group has slashes between its parts. -/
theorem groupPath_eq_intercalate : coord.groupPath = "/".intercalate coord.groupParts :=
  replace_eq_intercalate '.' '/' coord.groupId

/-- The parts of a group are read off its path. -/
theorem split_groupPath : split '/' coord.groupPath = coord.groupParts := by
  rw [groupPath_eq_intercalate]
  exact split_intercalate coord.slash_notMem_part (split_ne_nil coord.groupId)

/-- A group is read off its path. -/
theorem groupId_of_groupPath {other : Coordinate} (same : coord.groupPath = other.groupPath) :
    coord.groupId = other.groupId := by
  have parts : coord.groupParts = other.groupParts := by rw [← split_groupPath, same, split_groupPath]
  have whole : ".".intercalate coord.groupParts = coord.groupId := intercalate_split coord.groupId
  rw [← whole, parts]
  exact intercalate_split other.groupId

/-- What follows the version in the name of a file. -/
def ending : String :=
  match coord.classifier with
  | none => "." ++ coord.extension
  | some text => "-" ++ text ++ "." ++ coord.extension

/-- The name of a file ends with the classifier and the extension. -/
theorem filenameOf_eq_append (artifactId version : String) :
    filenameOf artifactId version coord.classifier coord.extension =
      artifactId ++ "-" ++ version ++ coord.ending := by
  cases named : coord.classifier <;> simp only [filenameOf, ending, named, String.append_assoc]

private theorem slash_notMem_ending : '/' ∉ coord.ending.toList := by
  have extension := coord.extended.slash_notMem
  cases named : coord.classifier with
  | none =>
    simp only [ending, named, String.toList_append, List.mem_append, not_or]
    exact ⟨by decide, extension⟩
  | some text =>
    simp only [ending, named, String.toList_append, List.mem_append, not_or]
    exact ⟨⟨⟨by decide, (coord.classified text named).slash_notMem⟩, by decide⟩, extension⟩

/-- The name of the file of a coordinate has no slash. -/
theorem slash_notMem_filename : '/' ∉ coord.filename.toList := by
  rw [filename, filenameOf_eq_append]
  simp only [String.toList_append, List.mem_append, not_or]
  exact ⟨⟨⟨coord.artifact.slash_notMem, by decide⟩, coord.versioned.slash_notMem⟩,
    coord.slash_notMem_ending⟩

variable {coord}

variable {name : String}

/-- The segments of a path with a name at its end. -/
theorem segments_pathTo (filled : name ≠ "") (whole : '/' ∉ name.toList) : segments (coord.pathTo name) =
      segments coord.groupPath ++ [coord.artifactId, coord.version, name] := by
  rw [pathTo, segments_append, segments_append, segments_append,
    segments_of_notMem coord.artifact.filled coord.artifact.slash_notMem,
    segments_of_notMem coord.versioned.filled coord.versioned.slash_notMem, segments_of_notMem filled whole]
  simp

/-- A path with a name at its end, split at its slashes. -/
theorem split_pathTo (whole : '/' ∉ name.toList) : split '/' (coord.pathTo name) =
    coord.groupParts ++ [coord.artifactId, coord.version, name] := by
  have joined (left right : String) : split '/' (left ++ "/" ++ right) = split '/' left ++ split '/' right :=
    split_append left right
  rw [pathTo, joined, joined, joined, split_groupPath, split_of_notMem coord.artifact.slash_notMem,
    split_of_notMem coord.versioned.slash_notMem, split_of_notMem whole]
  simp

/-- The parts of a path with a name at its end are read off it. -/
theorem pathTo_inj {other : Coordinate} {name' : String} (whole : '/' ∉ name.toList) (whole' : '/' ∉ name'.toList)
    (same : coord.pathTo name = other.pathTo name') :
    coord.groupPath = other.groupPath ∧ coord.artifactId = other.artifactId ∧
      coord.version = other.version ∧ name = name' := by
  obtain ⟨folders, names⟩ := join_inj_last rfl same whole whole'
  obtain ⟨folders, versions⟩ := join_inj_last rfl folders coord.versioned.slash_notMem other.versioned.slash_notMem
  obtain ⟨groups, artifacts⟩ := join_inj_last rfl folders coord.artifact.slash_notMem other.artifact.slash_notMem
  exact ⟨groups, artifacts, versions, names⟩

end Coordinate

section Builds

variable {coord : Coordinate} {time : DateTime} {buildNumber : Nat}

namespace Coordinate

private theorem timestampedFilename_eq : coord.timestampedFilename time buildNumber =
    coord.artifactId ++ "-" ++ baseVersion coord.version ++ "-" ++ time.format ++ "-" ++
      toString buildNumber ++ coord.ending := by
  rw [timestampedFilename, filenameOf_eq_append, DateTime.composeVersion]
  simp only [String.append_assoc]

/-- The name of a file of a build may stand in a path. -/
theorem slash_notMem_timestampedFilename : '/' ∉ (coord.timestampedFilename time buildNumber).toList := by
  have versioned := time.isField_composeVersion buildNumber coord.versioned
  rw [timestampedFilename, filenameOf_eq_append]
  simp only [String.toList_append, List.mem_append, not_or]
  exact ⟨⟨⟨coord.artifact.slash_notMem, by decide⟩, versioned.slash_notMem⟩, coord.slash_notMem_ending⟩

private theorem timestampedFilename_ne_empty : coord.timestampedFilename time buildNumber ≠ "" := by
  intro empty
  have dash : '-' ∈ (coord.timestampedFilename time buildNumber).toList := by simp [timestampedFilename_eq]
  rw [empty] at dash
  cases dash

private theorem timestampedFilename_ne_append (snapshot : isSnapshotVersion coord.version = true) (rest : String) :
    coord.timestampedFilename time buildNumber ≠ coord.artifactId ++ "-" ++ coord.version ++ rest := by
  intro same
  have versions := baseVersion_append snapshot
  rw [timestampedFilename_eq] at same
  generalize baseVersion coord.version = base at same versions
  rw [versions] at same
  -- Behind the base version there is the timestamp on one side, and the word on the other.
  simp only [← String.toList_inj, String.toList_append, List.append_assoc, List.append_cancel_left_eq] at same
  cases stamp : time.format.toList with
  | nil =>
    have dot : '.' ∈ time.format.toList := by simp [DateTime.format]
    rw [stamp] at dot
    cases dot
  | cons first others =>
    rw [stamp] at same
    have word : first = 'S' := (List.cons.inj (List.cons.inj same).2).1
    exact time.format_ne_cons (by decide) (by decide) (word ▸ stamp)

private theorem segments_buildPath : segments (coord.buildPath time buildNumber) = segments coord.groupPath ++
    [coord.artifactId, coord.version, coord.timestampedFilename time buildNumber] :=
  segments_pathTo timestampedFilename_ne_empty slash_notMem_timestampedFilename

end Coordinate

variable {checksum : Option ChecksumAlgo} {group : List String} {other : Coordinate}

private theorem IsFile.name_eq_append {path name : String} (file : IsFile path coord checksum group name) :
    ∃ rest, name = coord.artifactId ++ "-" ++ coord.version ++ rest := by
  obtain ⟨rest, start⟩ := startsWith_of_splitFilename file.named
  have stripped := file.stripped
  cases checksum with
  | none => exact ⟨rest, by rw [← stripChecksumSuffix_fst_of_none stripped, start]⟩
  | some algo =>
    refine ⟨rest ++ "." ++ algo.extension, ?_⟩
    rw [stripChecksumSuffix_eq_some_iff.mp stripped, start]
    simp only [String.append_assoc]

private theorem IsFile.not_build {path name : String}
    {before before' : List String} (file : IsFile path other checksum group name)
    (snapshot : isSnapshotVersion coord.version = true) : before ++ segments path ≠ before' ++
      [coord.artifactId, coord.version, coord.timestampedFilename time buildNumber] := by
  intro same
  rw [file.segmented, ← List.append_assoc] at same
  have last := (List.append_inj' same rfl).2
  simp only [List.cons.injEq, and_true] at last
  obtain ⟨artifacts, versions, names⟩ := last
  obtain ⟨rest, start⟩ := file.name_eq_append
  rw [names, artifacts, versions] at start
  exact coord.timestampedFilename_ne_append snapshot rest start

/-- The key of a build is not the key of a file that can be uploaded, in whatever repository. -/
theorem timestampedKey_ne_buildKey {other : Coordinate} {repo repo' path : String} {checksum : Option ChecksumAlgo}
    (snapshot : isSnapshotVersion coord.version = true)
    (parsed : parseLayoutPath path = .ok ⟨other, fileClass checksum⟩) :
    coord.timestampedKey time buildNumber repo ≠ buildKey repo' path := by
  intro same
  obtain ⟨group, name, file⟩ := parseLayoutPath_file_iff.mp parsed
  have segmented : segments repo ++ segments (coord.buildPath time buildNumber) =
      segments repo' ++ segments path := by
    rw [← segments_buildKey, ← segments_buildKey]
    exact congrArg segments same
  rw [segments_buildPath, ← List.append_assoc] at segmented
  exact file.not_build snapshot segmented.symm

/-- The path of a build is refused. -/
theorem parseLayoutPath_buildPath (snapshot : isSnapshotVersion coord.version = true) :
    ∃ error, parseLayoutPath (coord.buildPath time buildNumber) = .error error := by
  cases parsed : parseLayoutPath (coord.buildPath time buildNumber) with
  | error error => exact ⟨error, rfl⟩
  | ok layout =>
    have segmented := @Coordinate.segments_buildPath coord time buildNumber
    -- The name has more dashes than the name of a document.
    have plain : mavenMetadataSuffix (coord.timestampedFilename time buildNumber) = none := by
      refine Option.eq_none_iff_forall_ne_some.mpr fun kind found => ?_
      have dashes := count_dash_of_mavenMetadataSuffix found
      simp only [timestampedFilename_eq, String.toList_append, List.count_append] at dashes
      have single : "-".toList.count '-' = 1 := by decide
      omega
    have ended : segments (coord.buildPath time buildNumber) =
        (segments coord.groupPath ++ [coord.artifactId, coord.version]) ++
          [coord.timestampedFilename time buildNumber] := by
      rw [segmented]
      simp
    obtain ⟨other, pathClass⟩ := layout
    obtain ⟨checksum, rfl⟩ := exists_fileClass ended plain parsed
    obtain ⟨group, name, file⟩ := parseLayoutPath_file_iff.mp parsed
    exact absurd ((List.nil_append _).trans segmented) (file.not_build snapshot)

private theorem Coordinate.ending_eq_cons (coord : Coordinate) :
    ∃ first rest, coord.ending.toList = first :: rest ∧ first.isDigit = false := by
  cases named : coord.classifier with
  | none => exact ⟨'.', coord.extension.toList, by simp [ending, named], by decide⟩
  | some text => exact ⟨'-', (text ++ "." ++ coord.extension).toList, by simp [ending, named], by decide⟩

/-- A year that is written with four digits. -/
def DateTime.FourDigits (time : DateTime) : Prop := 0 ≤ time.year ∧ time.year ≤ 9999

/-- What a build is counted under, and its number, are read off its key. -/
theorem timestampedKey_inj {time' : DateTime} {buildNumber' : Nat} {repo repo' : String}
    (whole : '/' ∉ repo.toList) (whole' : '/' ∉ repo'.toList) (year : time.FourDigits) (year' : time'.FourDigits)
    (same : coord.timestampedKey time buildNumber repo = other.timestampedKey time' buildNumber' repo') :
    coord.counterKey repo = other.counterKey repo' ∧ buildNumber = buildNumber' := by
  obtain ⟨repos, paths⟩ := buildKey_inj whole whole' same
  obtain ⟨groups, artifacts, versions, names⟩ := pathTo_inj slash_notMem_timestampedFilename
    slash_notMem_timestampedFilename paths
  refine ⟨?_, ?_⟩
  · rw [Coordinate.counterKey, Coordinate.counterKey, repos, groups, artifacts, versions]
  · rw [timestampedFilename_eq, timestampedFilename_eq, artifacts, versions] at names
    simp only [← String.toList_inj, String.toList_append, List.append_assoc, List.append_cancel_left_eq] at names
    -- The timestamps have the same width, and so the numbers begin at the same place.
    have width : time.format.toList.length = time'.format.toList.length := by
      rw [time.length_format year, time'.length_format year']
    have numbers := List.append_cancel_left (List.append_inj names width).2
    obtain ⟨first, rest, ending, notDigit⟩ := coord.ending_eq_cons
    obtain ⟨first', rest', ending', notDigit'⟩ := other.ending_eq_cons
    rw [ending, ending'] at numbers
    exact toString_append_inj notDigit notDigit' numbers

end Builds

section Paths

/-- A path that leads nowhere else than down. -/
structure Inside (path : String) : Prop where
  relative : ∀ rest, path ≠ "/" ++ rest
  named : ∀ segment ∈ split '/' path, segment ≠ "" ∧ segment ≠ "." ∧ segment ≠ ".."

/-- The path of a coordinate stays inside exactly if no part of the group is empty. -/
theorem Coordinate.inside_repositoryPath_iff (coord : Coordinate) :
    Inside coord.repositoryPath ↔ ∀ part ∈ coord.groupParts, part ≠ "" := by
  have pieces : split '/' coord.repositoryPath =
      coord.groupParts ++ [coord.artifactId, coord.version, coord.filename] :=
    split_pathTo coord.slash_notMem_filename
  constructor
  · intro inside part member
    refine (inside.named part ?_).1
    rw [pieces]
    exact List.mem_append_left _ member
  · intro filled
    have named : ∀ segment ∈ split '/' coord.repositoryPath, segment ≠ "" ∧ segment ≠ "." ∧ segment ≠ ".." := by
      intro segment member
      rw [pieces, List.mem_append] at member
      rcases member with part | last
      · -- A part of the group has no dot.
        have dotless : '.' ∉ segment.toList := fun dot => (mem_of_mem_split part dot).2 rfl
        refine ⟨filled segment part, ?_, ?_⟩
        · rintro rfl
          exact dotless (by decide)
        · rintro rfl
          exact dotless (by decide)
      · simp only [List.mem_cons, List.not_mem_nil, or_false] at last
        rcases last with rfl | rfl | rfl
        · exact ⟨coord.artifact.filled, coord.artifact.inside⟩
        · exact ⟨coord.versioned.filled, coord.versioned.inside⟩
        · -- The name of a file has a dash.
          have dash : '-' ∈ coord.filename.toList := by
            rw [filename, filenameOf_eq_append]
            simp
          have other : ∀ text : String, '-' ∉ text.toList → coord.filename ≠ text :=
            fun text dashless same => dashless (same ▸ dash)
          exact ⟨other _ (by decide), other _ (by decide), other _ (by decide)⟩
    refine ⟨?_, named⟩
    -- In front of a slash at the beginning there would be an empty segment.
    intro rest slash
    have first : "" ∈ split '/' coord.repositoryPath := by
      have cut : split '/' ("" ++ "/" ++ rest) = split '/' "" ++ split '/' rest := split_append "" rest
      rw [String.empty_append] at cut
      rw [slash, cut]
      exact List.mem_append_left _ (by decide)
    exact (named "" first).1 rfl

/-- A path that goes up is read, and its coordinate has a path that begins with slashes. -/
theorem repositoryPath_outside : ∃ coord,
    parseLayoutPath "../org/demo/1.0/demo-1.0.jar" = .ok ⟨coord, .artifact⟩ ∧
      coord.repositoryPath = "///org/demo/1.0/demo-1.0.jar" ∧ ¬ Inside coord.repositoryPath := by
  have evaluated : ((parseLayoutPath "../org/demo/1.0/demo-1.0.jar").toOption.map fun layout =>
      (layout.pathClass, layout.coordinate.repositoryPath)) = some (.artifact, "///org/demo/1.0/demo-1.0.jar") := by
    decide +kernel
  obtain ⟨⟨coord, pathClass⟩, parsed, read⟩ := Fallible.exists_of_toOption_map evaluated
  obtain ⟨rfl, path⟩ := Prod.mk.inj read
  refine ⟨coord, parsed, path, fun inside => inside.relative "//org/demo/1.0/demo-1.0.jar" ?_⟩
  rw [path]
  decide

end Paths

end FerroProtocols.Maven
