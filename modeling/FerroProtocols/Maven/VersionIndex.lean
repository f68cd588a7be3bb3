import FerroProtocols.Lib.Runs
import FerroProtocols.Maven.Alone

/-! The index of an artifact, and the entries of other artifacts that it lists. -/

namespace FerroProtocols.Maven

open BlobStore Std Texts MavenServer Coordinate

section EntryVersions

variable {start key version : String}

private theorem entryVersion_eq_some_iff :
    entryVersion start key = some version ↔ '/' ∉ version.toList ∧
      ∃ rest, key = start ++ version ++ "/" ++ rest := by
  unfold entryVersion
  have tail_iff (tail rest : String) : splitOnce '/' tail = some (version, rest) ↔
      '/' ∉ version.toList ∧ tail = version ++ "/" ++ rest := by
    rw [splitOnce_eq_some_iff, and_comm, ← String.toList_inj]
    simp
  constructor
  · intro found
    split at found
    · rename_i tail stripped
      obtain ⟨⟨before, rest⟩, cut, rfl⟩ := Option.map_eq_some_iff.mp found
      obtain ⟨whole, joined⟩ := (tail_iff tail rest).mp cut
      refine ⟨whole, rest, ?_⟩
      rw [stripPrefix_eq_some_iff.mp stripped, joined]
      simp only [String.append_assoc]
    · cases found
  · rintro ⟨whole, rest, joined⟩
    have stripped : stripPrefix start key = some (version ++ "/" ++ rest) := by
      rw [stripPrefix_eq_some_iff, joined]
      simp only [String.append_assoc]
    rw [stripped]
    dsimp only
    rw [(tail_iff _ rest).mpr ⟨whole, rfl⟩]
    rfl

variable {layout : ExtTreeMap String Digest}

private theorem versionsOf_eq_dedup : versionsOf start layout =
    ((layout.keys.filterMap (entryVersion start)).insertionSort fun left right => left ≤ right).dedup :=
  (List.pairwise_insertionSort _ _).destutter_eq_dedup

/-- The index lists the versions of all entries. -/
theorem mem_versionsOf : version ∈ versionsOf start layout ↔
    ∃ (key : String) (digest : Digest), layout[key]? = some digest ∧ entryVersion start key = some version := by
  rw [versionsOf_eq_dedup, List.mem_dedup, List.mem_insertionSort, List.mem_filterMap]
  simp only [ExtTreeMap.mem_keys, ← ExtTreeMap.contains_iff_mem, ExtTreeMap.contains_eq_isSome_getElem?,
    Option.isSome_iff_exists, exists_and_right]

private theorem nodup_versionsOf : (versionsOf start layout).Nodup := by
  rw [versionsOf_eq_dedup]
  exact List.nodup_dedup _

/-- The index lists the versions in the order of their texts. -/
theorem pairwise_versionsOf : (versionsOf start layout).Pairwise (· ≤ ·) := by
  rw [versionsOf_eq_dedup]
  exact (List.pairwise_insertionSort _ _).sublist (List.dedup_sublist _)

end EntryVersions

namespace Coordinate

/-- The group of one artifact is another artifact, or lies below it. -/
def Nested (inner outer : Coordinate) : Prop := outer.groupParts ++ [outer.artifactId] <+: inner.groupParts

private theorem below_or_eq {group group' tail : List String} {artifact artifact' version version' name : String}
    (same : group' ++ [artifact', version', name] = group ++ [artifact] ++ version :: tail) (filled : tail ≠ []) :
    group = group' ∧ artifact = artifact' ∧ version = version' ∨ group ++ [artifact] <+: group' := by
  rcases List.append_eq_append_iff.mp same with ⟨more, longer, rest⟩ | ⟨more, shorter, -⟩
  · -- The first of the three segments are behind the group only if they are those of the other path.
    rcases more with _ | ⟨first, _ | ⟨second, more⟩⟩
    · exact .inr (by rw [longer, List.append_nil])
    · obtain ⟨groups, artifacts⟩ := List.append_inj' longer rfl
      cases rest
      cases artifacts
      exact .inl ⟨groups, rfl, rfl⟩
    · -- There is no room for the slash behind the version.
      have lengths := congrArg List.length rest
      have tail_pos := List.length_pos_iff.mpr filled
      simp only [List.length_cons, List.length_nil, List.length_append] at lengths
      omega
  · exact .inr ⟨more, shorter.symm⟩

variable {coord other : Coordinate} {repo repo' name version : String}

/-- An entry of an artifact is listed with its version. -/
theorem entryVersion_of_same (groups : other.groupPath = coord.groupPath)
    (artifacts : other.artifactId = coord.artifactId) (name : String) :
    entryVersion (coord.entryStart repo) (buildKey repo (other.pathTo name)) = some other.version := by
  refine entryVersion_eq_some_iff.mpr ⟨other.versioned.slash_notMem, name, ?_⟩
  simp only [buildKey, pathTo, entryStart, groups, artifacts, String.append_assoc]

private theorem of_entryVersion (whole : '/' ∉ repo.toList) (whole' : '/' ∉ repo'.toList) (named : '/' ∉ name.toList)
    (found : entryVersion (coord.entryStart repo) (buildKey repo' (other.pathTo name)) = some version) :
    repo = repo' ∧ (coord.groupPath = other.groupPath ∧ coord.artifactId = other.artifactId ∧
      version = other.version ∨ other.Nested coord) := by
  obtain ⟨tight, rest, joined⟩ := entryVersion_eq_some_iff.mp found
  have regrouped : buildKey repo' (other.pathTo name) = buildKey repo (coord.groupPath ++ "/" ++
      coord.artifactId ++ "/" ++ version ++ "/" ++ rest) := by
    rw [joined]
    simp only [entryStart, buildKey, String.append_assoc]
  obtain ⟨repos, paths⟩ := buildKey_inj whole' whole regrouped
  refine ⟨repos.symm, ?_⟩
  -- Both paths are split at their slashes, and the shorter list of segments is a beginning of the longer one.
  have cut (left right : String) : split '/' (left ++ "/" ++ right) = split '/' left ++ split '/' right :=
    split_append left right
  have pieces := congrArg (split '/') paths
  rw [split_pathTo named, cut, cut, cut, split_groupPath, split_of_notMem coord.artifact.slash_notMem,
    split_of_notMem tight, List.append_assoc, List.singleton_append] at pieces
  rcases below_or_eq pieces (split_ne_nil rest) with ⟨groups, artifacts, versions⟩ | below
  · refine .inl ⟨?_, artifacts, versions⟩
    rw [groupPath_eq_intercalate, groups, ← groupPath_eq_intercalate]
  · exact .inr below

end Coordinate

/-- A key is one of an artifact: the key of its path, or of a file of one of its builds. -/
inductive Coordinate.Names (coord : Coordinate) (repo : String) : String → Prop
  | upload (path : String) (parsed : parseLayoutPath path = .ok ⟨coord, .artifact⟩) :
    Names coord repo (buildKey repo path)
  | build (time : DateTime) (buildNumber : Nat) (snapshot : isSnapshotVersion coord.version = true) :
    Names coord repo (coord.timestampedKey time buildNumber repo)

/-- In repositories without a slash in their names, a key is one of at most one version of an artifact. -/
theorem Coordinate.Names.unique {coord other : Coordinate} {repo repo' key : String}
    (names : coord.Names repo key) (names' : other.Names repo' key) (whole : '/' ∉ repo.toList)
    (whole' : '/' ∉ repo'.toList) : repo = repo' ∧ coord.groupId = other.groupId ∧
      coord.artifactId = other.artifactId ∧ coord.version = other.version := by
  generalize same : key = key' at names'
  cases names with
  | upload path parsed =>
    cases names' with
    | upload path' parsed' =>
      obtain ⟨rfl, rfl⟩ := buildKey_inj whole whole' same
      rw [parsed] at parsed'
      cases parsed'
      exact ⟨rfl, rfl, rfl, rfl⟩
    | build time buildNumber snapshot =>
      exact absurd same.symm (@timestampedKey_ne_buildKey _ _ _ _ _ _ _ none snapshot parsed)
  | build time buildNumber snapshot =>
    cases names' with
    | upload path' parsed' => exact absurd same (@timestampedKey_ne_buildKey _ _ _ _ _ _ _ none snapshot parsed')
    | build time' buildNumber' snapshot' =>
      obtain ⟨repos, paths⟩ := buildKey_inj whole whole' same
      obtain ⟨groups, artifacts, versions, -⟩ := pathTo_inj slash_notMem_timestampedFilename
        slash_notMem_timestampedFilename paths
      exact ⟨repos, coord.groupId_of_groupPath groups, artifacts, versions⟩

/-- A file of a version is stored. -/
def StoredVersion (layout : ExtTreeMap String Digest) (repo groupId artifactId version : String) : Prop :=
  ∃ (key : String) (digest : Digest) (coord : Coordinate), layout[key]? = some digest ∧
    coord.Names repo key ∧ coord.groupId = groupId ∧ coord.artifactId = artifactId ∧
      coord.version = version

/-- Requests that upload nothing but artifacts. -/
def ArtifactsOnly (calls : List MavenCall) : Prop :=
  ∀ call ∈ calls, ∀ repo path body layout, call.request = .put repo path body → parseLayoutPath path = .ok layout →
    layout.pathClass = .artifact

/-- One of the requests uploads an artifact to a repository. -/
def Known (calls : List MavenCall) (repo : String) (coord : Coordinate) : Prop :=
  ∃ call ∈ calls, ∃ path body, call.request.Uploads repo path coord body

/-- The uploads are made to the paths of their coordinates, and no group lies below an artifact. -/
structure Tidy (calls : List MavenCall) : Prop where
  whole : ∀ repo coord, Known calls repo coord → '/' ∉ repo.toList
  paths : ∀ call ∈ calls, ∀ repo path coord body, call.request.Uploads repo path coord body →
    path = coord.repositoryPath
  separate : ∀ repo coord other, Known calls repo coord → Known calls repo other → ¬ other.Nested coord

/-- A deletion of a file that is stored does not remove the last file of a version. -/
def LeavesSibling {ι : Type} (state : MavenState ι) (call : MavenCall) : Prop :=
  ∀ repo path stored, call.request = .delete repo path → state.layout[buildKey repo path]? = some stored →
    ∀ (own : String) (coord : Coordinate), '/' ∉ own.toList → coord.Names own (buildKey repo path) →
    ∃ (other : String) (digest : Digest) (sibling : Coordinate), other ≠ buildKey repo path ∧
      state.layout[other]? = some digest ∧ sibling.Names own other ∧ sibling.groupId = coord.groupId ∧
        sibling.artifactId = coord.artifactId ∧ sibling.version = coord.version

section Sequential

variable {ι : Type} {calls : List MavenCall} {state : MavenState ι} {coord : Coordinate} {repo : String}

/-- Every entry is one of an artifact that was uploaded to its own path. -/
def Filed (calls : List MavenCall) (state : MavenState ι) : Prop :=
  ∀ (key : String) (digest : Digest), state.layout[key]? = some digest → ∃ repo coord name,
    Known calls repo coord ∧ key = buildKey repo (coord.pathTo name) ∧ '/' ∉ name.toList ∧
      coord.Names repo key

private theorem Filed.mem_versionsOf_iff (filed : Filed calls state) (tidy : Tidy calls)
    (known : Known calls repo coord) (version : String) :
    version ∈ versionsOf (coord.entryStart repo) state.layout ↔
      StoredVersion state.layout repo coord.groupId coord.artifactId version := by
  rw [mem_versionsOf]
  constructor
  · rintro ⟨key, digest, found, listed⟩
    obtain ⟨repo', other, name, known', rfl, named, names⟩ := filed key digest found
    obtain ⟨rfl, own | nested⟩ := of_entryVersion (tidy.whole _ _ known) (tidy.whole _ _ known') named listed
    · obtain ⟨groups, artifacts, versions⟩ := own
      exact ⟨_, digest, other, found, names, other.groupId_of_groupPath groups.symm, artifacts.symm, versions.symm⟩
    · exact absurd nested (tidy.separate _ _ _ known known')
  · rintro ⟨key, digest, other, found, names, groups, artifacts, versions⟩
    obtain ⟨repo', filer, name, known', rfl, named, names'⟩ := filed key digest found
    obtain ⟨rfl, groups', artifacts', versions'⟩ :=
      names.unique names' (tidy.whole _ _ known) (tidy.whole _ _ known')
    refine ⟨_, digest, found, ?_⟩
    have groupPaths : filer.groupPath = coord.groupPath := by
      rw [Coordinate.groupPath, Coordinate.groupPath, ← groups', groups]
    rw [entryVersion_of_same groupPaths (artifacts'.symm.trans artifacts), ← versions', versions]

/-- The entries and the indexes, given which artifacts have been received. -/
structure Listed (calls : List MavenCall) (received : String → Coordinate → Prop) (state : MavenState ι) : Prop where
  unlocked : state.writer = none
  filed : Filed calls state
  indexes : ∀ repo coord, received repo coord → Known calls repo coord ∧
    ∃ doc, state.metadata[coord.indexKey repo]? = some doc ∧ doc.versions.Nodup ∧
      ∀ version, version ∈ doc.versions ↔
        StoredVersion state.layout repo coord.groupId coord.artifactId version

variable {server : MavenServer} {received : String → Coordinate → Prop}

/-- An upload that is accepted is listed, and what was listed before stays so. -/
theorem Listed.uploaded (listed : Listed calls received state) (tidy : Tidy calls) {path : String}
    {body : Bytes} {events : Nat → MavenEvent}
    (parsed : parseLayoutPath path = .ok ⟨coord, .artifact⟩) (canonical : path = coord.repositoryPath)
    (known : Known calls repo coord) :
    Listed calls (fun repo' other => received repo' other ∨ repo' = repo ∧ other = coord)
      (server.uploaded repo path coord body events state) := by
  -- The new entries are all of this artifact.
  have fresh : ∀ entry ∈ MavenServer.uploadPaths repo path coord events state,
      coord.Names repo (buildKey repo entry) ∧ ∃ name, '/' ∉ name.toList ∧ entry = coord.pathTo name := by
    intro entry member
    rw [MavenServer.uploadPaths, List.mem_append] at member
    rcases member with built | own
    · split at built
      · rename_i snapshot
        rw [List.mem_singleton.mp built]
        exact ⟨.build _ _ snapshot, _, slash_notMem_timestampedFilename, rfl⟩
      · cases built
    · rw [List.mem_singleton.mp own]
      exact ⟨.upload path parsed, _, coord.slash_notMem_filename, canonical⟩
  have filed : Filed calls (server.uploaded repo path coord body events state) := by
    intro key digest found
    rw [layout_uploaded] at found
    split at found
    · rename_i own
      obtain ⟨entry, member, rfl⟩ := own
      obtain ⟨names, name, named, rfl⟩ := fresh entry member
      exact ⟨repo, coord, name, known, rfl, named, names⟩
    · exact listed.filed key digest found
  refine ⟨writer_uploaded.trans listed.unlocked, filed, ?_⟩
  intro repo' other before
  have known' : Known calls repo' other := by
    rcases before with before | ⟨rfl, rfl⟩
    · exact (listed.indexes repo' other before).1
    · exact known
  refine ⟨known', ?_⟩
  rw [index_uploaded rfl]
  by_cases same : coord.indexKey repo = other.indexKey repo'
  · -- The index is made anew.
    obtain ⟨repos, groups, artifacts, -⟩ := ArtifactKey.mk.inj same
    have starts : coord.entryStart repo = other.entryStart repo' := by
      rw [Coordinate.entryStart, Coordinate.entryStart, repos, groups, artifacts]
    rw [if_pos same, starts]
    exact ⟨_, rfl, nodup_versionsOf, filed.mem_versionsOf_iff tidy known'⟩
  · rw [if_neg same]
    have earlier := before.resolve_right fun own => same (by rw [own.1, own.2])
    obtain ⟨doc, cached, distinct, lists⟩ := (listed.indexes repo' other earlier).2
    refine ⟨doc, cached, distinct, fun version => (lists version).trans ⟨?_, ?_⟩⟩
    · rintro ⟨key, digest, file, found, names, fields⟩
      by_cases own : ∃ entry ∈ MavenServer.uploadPaths repo path coord events state, buildKey repo entry = key
      · exact ⟨key, _, file, (layout_uploaded key).trans (if_pos own), names, fields⟩
      · exact ⟨key, digest, file, (layout_uploaded key).trans ((if_neg own).trans found), names, fields⟩
    · rintro ⟨key, digest, file, found, names, fields⟩
      rw [layout_uploaded] at found
      split at found
      · -- A new entry is one of the artifact that was uploaded, and its index is another one.
        rename_i own
        obtain ⟨entry, member, rfl⟩ := own
        obtain ⟨repos, groups, artifacts, -⟩ :=
          (fresh entry member).1.unique names (tidy.whole _ _ known) (tidy.whole _ _ known')
        refine absurd ?_ same
        rw [Coordinate.indexKey, Coordinate.indexKey, Coordinate.groupPath, Coordinate.groupPath, repos, groups,
          artifacts, fields.1, fields.2.1]
      · exact ⟨key, digest, file, found, names, fields⟩

/-- A deletion that leaves another file of the version changes no version that is stored. -/
theorem Listed.deleted (listed : Listed calls received state) (tidy : Tidy calls) {call : MavenCall}
    {path : String} {blobs : InMemoryBlobStore} (asked : call.request = .delete repo path)
    (leaves : LeavesSibling state call) :
    Listed calls received { state with blobs, layout := state.layout.erase (buildKey repo path) } := by
  have erased (key : String) : (state.layout.erase (buildKey repo path))[key]? =
      if buildKey repo path = key then none else state.layout[key]? := by
    simp only [ExtTreeMap.getElem?_erase, LawfulEqCmp.compare_eq_iff_eq]
  have kept {key : String} {digest : Digest} (found : (state.layout.erase (buildKey repo path))[key]? =
    some digest) :
      state.layout[key]? = some digest := by
    rw [erased] at found
    split at found
    · cases found
    · exact found
  refine ⟨listed.unlocked, fun key digest found => listed.filed key digest (kept found), ?_⟩
  intro repo' other before
  obtain ⟨known, doc, cached, distinct, lists⟩ := listed.indexes repo' other before
  refine ⟨known, doc, cached, distinct, fun version => (lists version).trans ⟨?_, ?_⟩⟩
  · rintro ⟨key, digest, file, found, names, groups, artifacts, versions⟩
    by_cases gone : buildKey repo path = key
    · obtain ⟨another, digest', sibling, differs, found', names', groups', artifacts', versions'⟩ :=
        leaves repo path digest asked (gone ▸ found) repo' file (tidy.whole _ _ known) (gone ▸ names)
      exact ⟨another, digest', sibling, (erased another).trans ((if_neg (Ne.symm differs)).trans found'), names',
        groups'.trans groups, artifacts'.trans artifacts, versions'.trans versions⟩
    · exact ⟨key, digest, file, (erased key).trans ((if_neg gone).trans found), names, groups, artifacts, versions⟩
  · rintro ⟨key, digest, file, found, fields⟩
    exact ⟨key, digest, file, kept found, fields⟩

/-- An upload of the artifact to the repository has been accepted. -/
def Received (server : MavenServer) (thread : ι) (start : MavenState ι) (past : List MavenCall) (repo : String)
    (coord : Coordinate) : Prop :=
  ∃ earlier call later, past = earlier ++ call :: later ∧
    (∃ path body, call.request.Uploads repo path coord body) ∧
      server.Accepts thread (server.afterCalls thread start earlier) call

private theorem received_concat {thread : ι} {start : MavenState ι} {past : List MavenCall} {call : MavenCall}
    (received : Received server thread start (past ++ [call]) repo coord) :
    Received server thread start past repo coord ∨ (∃ path body, call.request.Uploads repo path coord body) ∧
        server.Accepts thread (server.afterCalls thread start past) call := by
  obtain ⟨earlier, accepted, later, split, uploads, accepts⟩ := received
  rcases List.eq_nil_or_concat later with rfl | ⟨most, last, rfl⟩
  · obtain ⟨rfl, same⟩ := List.append_inj' split rfl
    cases same
    exact .inr ⟨uploads, accepts⟩
  · rw [List.concat_eq_append, ← List.cons_append, ← List.append_assoc] at split
    obtain ⟨rfl, -⟩ := List.append_inj' split rfl
    exact .inl ⟨earlier, accepted, most, rfl, uploads, accepts⟩

/-- It is enough that the index of everything that was received is right. -/
theorem Listed.mono {received' : String → Coordinate → Prop} (listed : Listed calls received state)
    (fewer : ∀ repo coord, received' repo coord → received repo coord) : Listed calls received' state :=
  ⟨listed.unlocked, listed.filed, fun repo coord before => listed.indexes _ _ (fewer repo coord before)⟩

/-- One more request keeps the indexes right. -/
theorem Listed.afterCall {thread : ι} {start : MavenState ι} {past : List MavenCall} {call : MavenCall}
    (listed : Listed calls (Received server thread start past) (server.afterCalls thread start past))
    (artifacts : ArtifactsOnly calls) (tidy : Tidy calls) (member : call ∈ calls)
    (leaves : LeavesSibling (server.afterCalls thread start past) call) :
    Listed calls (Received server thread start (past ++ [call]))
      (server.afterCall thread (server.afterCalls thread start past) call) := by
  have performed := server.performs thread call.request call.events listed.unlocked
  rw [MavenServer.afterCall]
  have accepted : ∀ repo coord, Received server thread start (past ++ [call]) repo coord →
      Received server thread start past repo coord ∨ (∃ path body, call.request.Uploads repo path coord body) ∧
        ∃ response, (server.perform thread call.request call.events (server.afterCalls thread start past)).2 =
          .answered (.responded response) :=
    fun repo coord received => (received_concat received).imp_right (And.imp_right And.right)
  generalize server.perform thread call.request call.events (server.afterCalls thread start past) = result
    at performed accepted ⊢
  cases performed with
  | answers answer quiet =>
    refine listed.mono fun repo coord received => (accepted repo coord received).resolve_right ?_
    rintro ⟨⟨path, body, upload⟩, response, answered⟩
    rcases quiet with ⟨_, _, _, asked⟩ | ⟨error, rfl⟩
    · cases upload.asked.symm.trans asked
    · cases answered
  | uploads repo path coord body blobs upload checked put =>
    have known : Known calls repo coord := ⟨call, member, path, body, upload⟩
    have stored : Listed calls (Received server thread start past)
        { server.afterCalls thread start past with blobs } := ⟨listed.unlocked, listed.filed, listed.indexes⟩
    refine (stored.uploaded tidy upload.parsed (tidy.paths call member _ _ _ _ upload) known).mono ?_
    intro repo' other received
    refine (accepted repo' other received).imp_right ?_
    rintro ⟨⟨path', body', upload'⟩, -⟩
    obtain ⟨rfl, -, rfl, -⟩ := upload.unique upload'
    exact ⟨rfl, rfl⟩
  | attaches repo path mainPath declared algo body blobs attached =>
    obtain ⟨coord, parsed⟩ := attached.parsed
    cases artifacts call member _ _ _ _ attached.asked parsed
  | documents repo path layout versionLevel checksum body doc asked parsed addressed =>
    cases addressed.symm.trans (artifacts call member _ _ _ _ asked parsed)
  | deletes repo path digest blobs answer asked found collected =>
    refine (listed.deleted tidy asked leaves).mono fun repo' other received =>
      (accepted repo' other received).resolve_right ?_
    rintro ⟨⟨path', body', upload⟩, -⟩
    cases asked.symm.trans upload.asked

/-- After uploads of artifacts to their own paths, none of whose groups lies below an artifact, and deletions
that leave another file of the version, the index of everything that was received lists the versions that are
stored, each once. -/
theorem index_lists_stored (server : MavenServer) (thread : ι) (calls : List MavenCall)
    (artifacts : ArtifactsOnly calls)
    (tidy : Tidy calls)
    (leaves : Runs.Along (server.afterCall thread) LeavesSibling (MavenState.new ι) calls) (repo : String)
    (coord : Coordinate) (received : Received server thread (MavenState.new ι) calls repo coord) :
    ∃ doc, (server.afterCalls thread (MavenState.new ι) calls).metadata[coord.indexKey repo]? = some doc ∧
      doc.versions.Nodup ∧ ∀ version, version ∈ doc.versions ↔
        StoredVersion (server.afterCalls thread (MavenState.new ι) calls).layout repo coord.groupId
          coord.artifactId version := by
  have along : Runs.Along (server.afterCall thread) (fun state call => LeavesSibling state call ∧ call ∈ calls)
    (MavenState.new ι) calls := leaves.and_of_forall fun _ member => member
  have listed : Listed calls (Received server thread (MavenState.new ι) calls)
      (server.afterCalls thread (MavenState.new ι) calls) := by
    refine along.history (motive :=
      fun past state => Listed calls (Received server thread (MavenState.new ι) past) state)
      ?_ fun past call listed met => listed.afterCall artifacts tidy met.2 met.1
    refine ⟨rfl, ?_, ?_⟩
    · intro key digest found
      have empty : (MavenState.new ι).layout[key]? = none := ExtTreeMap.getElem?_empty
      rw [empty] at found
      cases found
    · rintro repo coord ⟨earlier, call, later, split, -⟩
      simp at split
  exact (listed.indexes repo coord received).2

end Sequential

section Runs

/-- The sources of the release. -/
def sources : Coordinate where
  groupId := "org"
  artifactId := "demo"
  version := "1.0"
  classifier := some "sources"
  extension := "jar"
  group := demo.group
  artifact := demo.artifact
  versioned := demo.versioned
  extended := demo.extended
  classified := fun _ named => Option.some.inj named ▸ (validateField_ok_iff "classifier" "sources").mp (by decide)

/-- The removal of a file from that repository. -/
def remove (path : String) : MavenCall := ⟨.delete "releases" path, fun _ => .sample⟩

/-- A release is uploaded with its sources, which are removed again, as is one that was never uploaded. -/
def withoutSources : List MavenCall :=
  [deploy "org/demo/1.0/demo-1.0.jar" [1], deploy "org/demo/1.0/demo-1.0-sources.jar" [1, 2],
    remove "org/demo/1.0/demo-1.0-sources.jar", remove "org/demo/2.0/demo-2.0.jar"]

private theorem parse_withoutSources : parseLayoutPath "org/demo/1.0/demo-1.0.jar" = .ok ⟨demo, .artifact⟩ ∧
    parseLayoutPath "org/demo/1.0/demo-1.0-sources.jar" = .ok ⟨sources, .artifact⟩ := by
  decide +kernel

private theorem uploads_withoutSources {call : MavenCall} (member : call ∈ withoutSources) {repo path : String}
    {coord : Coordinate} {body : Bytes} (upload : call.request.Uploads repo path coord body) :
    repo = "releases" ∧ (coord = demo ∧ path = "org/demo/1.0/demo-1.0.jar" ∨
      coord = sources ∧ path = "org/demo/1.0/demo-1.0-sources.jar") := by
  obtain ⟨asked, parsed⟩ := upload
  simp only [withoutSources, List.mem_cons, List.not_mem_nil, or_false] at member
  rcases member with rfl | rfl | rfl | rfl
  · cases asked
    cases parse_withoutSources.1.symm.trans parsed
    exact ⟨rfl, .inl ⟨rfl, rfl⟩⟩
  · cases asked
    cases parse_withoutSources.2.symm.trans parsed
    exact ⟨rfl, .inr ⟨rfl, rfl⟩⟩
  all_goals cases asked

private theorem tidy_withoutSources : Tidy withoutSources where
  whole := by
    rintro repo coord ⟨call, member, path, body, upload⟩
    rw [(uploads_withoutSources member upload).1]
    decide
  paths := by
    intro call member repo path coord body upload
    rcases (uploads_withoutSources member upload).2 with ⟨rfl, rfl⟩ | ⟨rfl, rfl⟩ <;> decide +kernel
  separate := by
    rintro repo coord other ⟨call, member, path, body, upload⟩ ⟨call', member', path', body', upload'⟩
    have fields {call : MavenCall} (member : call ∈ withoutSources) {path : String} {coord : Coordinate}
        {body : Bytes} (upload : call.request.Uploads repo path coord body) :
        coord.groupParts = ["org"] ∧ coord.artifactId = "demo" := by
      rcases (uploads_withoutSources member upload).2 with ⟨rfl, -⟩ | ⟨rfl, -⟩ <;> decide +kernel
    rw [Coordinate.Nested, (fields member upload).1, (fields member upload).2, (fields member' upload').1]
    decide

private theorem leaves_withoutSources :
    Runs.Along (sample.afterCall ()) LeavesSibling (MavenState.new Unit) withoutSources := by
  refine ⟨fun _ _ _ asked => (by cases asked), fun _ _ _ asked => (by cases asked), ?_, ?_, trivial⟩
  on_goal 2 =>
    intro repo path stored asked found
    obtain ⟨rfl, rfl⟩ := MavenRequest.delete.inj asked
    have absent : (sample.afterCalls () (MavenState.new Unit) (withoutSources.take 3)).layout[
        buildKey "releases" "org/demo/2.0/demo-2.0.jar"]? = none := by
      decide +kernel
    cases absent.symm.trans found
  intro repo path stored asked _ own coord whole names
  obtain ⟨rfl, rfl⟩ := MavenRequest.delete.inj asked
  have removed : sources.Names "releases" (buildKey "releases" "org/demo/1.0/demo-1.0-sources.jar") :=
    .upload _ parse_withoutSources.2
  obtain ⟨rfl, groups, artifacts, versions⟩ := names.unique removed whole (by decide)
  have left : buildKey "releases" "org/demo/1.0/demo-1.0.jar" ≠
        buildKey "releases" "org/demo/1.0/demo-1.0-sources.jar" ∧
      (sample.afterCalls () (MavenState.new Unit) (withoutSources.take 2)).layout[
        buildKey "releases" "org/demo/1.0/demo-1.0.jar"]? = some (sample.digestOf [1]) := by
    decide +kernel
  exact ⟨_, _, demo, left.1, left.2, .upload _ parse_withoutSources.1, groups.symm, artifacts.symm, versions.symm⟩

/-- After the sources are removed the index lists the version of the jar. -/
theorem index_lists_stored_withoutSources : Received sample () (MavenState.new Unit) withoutSources "releases" demo ∧
      ∃ doc, (sample.afterCalls () (MavenState.new Unit) withoutSources).metadata[
          demo.indexKey "releases"]? = some doc ∧
        doc.versions.Nodup ∧ ∀ version, version ∈ doc.versions ↔
          StoredVersion (sample.afterCalls () (MavenState.new Unit) withoutSources).layout "releases" "org"
            "demo" version := by
  have answered : (sample.perform () (.put "releases" "org/demo/1.0/demo-1.0.jar" [1]) (fun _ => .sample)
      (MavenState.new Unit)).2 = .answered (sample.uploadAnswer [1]) := by
    decide +kernel
  have upload : (deploy "org/demo/1.0/demo-1.0.jar" [1]).request.Uploads "releases" "org/demo/1.0/demo-1.0.jar" demo
      [1] := ⟨rfl, parse_withoutSources.1⟩
  have received : Received sample () (MavenState.new Unit) withoutSources "releases" demo :=
    ⟨[], _, _, rfl, ⟨_, _, upload⟩, ⟨_, _, _, _, upload⟩, _, answered⟩
  have artifacts : ArtifactsOnly withoutSources := by
    intro call member repo path body layout asked parsed
    simp only [withoutSources, List.mem_cons, List.not_mem_nil, or_false] at member
    rcases member with rfl | rfl | rfl | rfl
    · cases asked
      cases parse_withoutSources.1.symm.trans parsed
      rfl
    · cases asked
      cases parse_withoutSources.2.symm.trans parsed
      rfl
    all_goals cases asked
  exact ⟨received, index_lists_stored sample () withoutSources artifacts tidy_withoutSources
    leaves_withoutSources "releases" demo received⟩

/-- The index lists a version that was removed, takes an artifact below for a version, and misses a version
whose path was written with one more slash. -/
theorem index_differs :
    let versions (calls : List MavenCall) := (sample.afterCalls () (MavenState.new Unit) calls).metadata[
      demo.indexKey "releases"]?.map MavenMetadata.versions
    let keys (calls : List MavenCall) := (sample.afterCalls () (MavenState.new Unit) calls).layout.keys
    (keys [deploy "org/demo/1.0/demo-1.0.jar" [1], remove "org/demo/1.0/demo-1.0.jar"] = [] ∧
      versions [deploy "org/demo/1.0/demo-1.0.jar" [1], remove "org/demo/1.0/demo-1.0.jar"] = some ["1.0"]) ∧
    versions [deploy "org/demo/inner/2.0/inner-2.0.jar" [1], deploy "org/demo/1.0/demo-1.0.jar" [1]] =
      some ["1.0", "inner"] ∧
    versions [deploy "org//demo/2.0/demo-2.0.jar" [1], deploy "org/demo/1.0/demo-1.0.jar" [1]] = some ["1.0"] := by
  decide +kernel

end Runs

end FerroProtocols.Maven
