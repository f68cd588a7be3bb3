import FerroProtocols.Maven.VersionIndex

/-! The newest versions of an artifact, and those that its index names so. -/

namespace FerroProtocols.Maven

open BlobStore Std MavenServer

/-- The version of what a request uploads. -/
def MavenRequest.version : MavenRequest → Option String
  | .put _ path _ => (parseLayoutPath path).toOption.map fun layout => layout.coordinate.version
  | .get _ _ _ | .delete _ _ => none

/-- The versions that requests upload, in their order. -/
def versionsPut (calls : List MavenCall) : List String := calls.filterMap fun call => call.request.version

/-- Those of them that are no SNAPSHOT versions. -/
def releasesPut (calls : List MavenCall) : List String :=
  (versionsPut calls).filter fun version => !isSnapshotVersion version

/-- The upload of a file of an artifact, in any version, to its own path. -/
def MavenCall.DeploysTo (repo : String) (artifact : Coordinate) (call : MavenCall) : Prop :=
  ∃ (coord : Coordinate) (body : Bytes), call.request.Uploads repo coord.repositoryPath coord body ∧
    coord.groupId = artifact.groupId ∧ coord.artifactId = artifact.artifactId

section Greatest

variable {sorted list : List String}

private theorem getLast?_eq_iff (ordered : sorted.Pairwise (· ≤ ·))
    (same : ∀ version, version ∈ sorted ↔ version ∈ list) :
    sorted.getLast? = list.getLast? ↔ ∀ version ∈ list, ∀ last ∈ list.getLast?, version ≤ last := by
  rcases List.eq_nil_or_concat list with rfl | ⟨init, last, rfl⟩
  · have empty : sorted = [] :=
      List.eq_nil_iff_forall_not_mem.mpr fun version member => by cases (same version).mp member
    simp [empty]
  rcases List.eq_nil_or_concat sorted with rfl | ⟨most, greatest, rfl⟩
  · cases (same last).mpr (by simp)
  -- The greatest one is the last one exactly if none is greater than that.
  have bound (version : String) (member : version ∈ init.concat last) : version ≤ greatest := by
    have listed := (same version).mpr member
    rw [List.concat_eq_append, List.mem_append, List.mem_singleton] at listed
    rcases listed with before | rfl
    · rw [List.concat_eq_append, List.pairwise_append] at ordered
      exact ordered.2.2 version before greatest (List.mem_singleton.mpr rfl)
    · exact String.le_refl _
  have there : greatest ∈ init.concat last := (same greatest).mp (by simp)
  simp only [List.concat_eq_append, List.getLast?_append, List.getLast?_singleton, Option.some_or,
    Option.mem_some_iff,
    Option.some.injEq, forall_eq'] at bound there ⊢
  refine ⟨fun equal version member => equal ▸ bound version member,
    fun all => String.le_antisymm (all greatest there) ?_⟩
  exact bound last (by simp)

end Greatest

variable {ι : Type} {server : MavenServer} {thread : ι} {state : MavenState ι} {artifact : Coordinate}
  {repo : String}

private theorem mem_versionsOf_uploaded {coord : Coordinate} {body : Bytes} {events : Nat → MavenEvent}
    (groups : coord.groupId = artifact.groupId) (artifacts : coord.artifactId = artifact.artifactId)
    (version : String) :
    version ∈ versionsOf (artifact.entryStart repo)
        (server.uploaded repo coord.repositoryPath coord body events state).layout ↔
      version ∈ versionsOf (artifact.entryStart repo) state.layout ∨ version = coord.version := by
  have own : ∀ entry ∈ MavenServer.uploadPaths repo coord.repositoryPath coord events state,
      entryVersion (artifact.entryStart repo) (buildKey repo entry) = some coord.version := by
    have named :=
      @Coordinate.entryVersion_of_same artifact coord repo (by rw [Coordinate.groupPath, groups]; rfl) artifacts
    intro entry member
    rw [MavenServer.uploadPaths, List.mem_append] at member
    rcases member with built | uploaded
    · split at built
      · rw [List.mem_singleton.mp built]
        exact named _
      · cases built
    · rw [List.mem_singleton.mp uploaded]
      exact named _
  rw [mem_versionsOf, mem_versionsOf]
  simp only [layout_uploaded]
  constructor
  · rintro ⟨key, digest, found, listed⟩
    split at found
    · rename_i new
      obtain ⟨entry, member, rfl⟩ := new
      exact .inr (Option.some.inj (listed.symm.trans (own entry member)))
    · exact .inl ⟨key, digest, found, listed⟩
  · rintro (⟨key, digest, found, listed⟩ | rfl)
    · by_cases new : ∃ entry ∈ MavenServer.uploadPaths repo coord.repositoryPath coord events state,
        buildKey repo entry = key
      · exact ⟨key, server.digestOf body, if_pos new, listed⟩
      · exact ⟨key, digest, (if_neg new).trans found, listed⟩
    · have member : coord.repositoryPath ∈
          MavenServer.uploadPaths repo coord.repositoryPath coord events state := by
        simp [MavenServer.uploadPaths]
      exact ⟨_, server.digestOf body, if_pos ⟨_, member, rfl⟩, own _ member⟩

/-- The index of an artifact after uploads of it. -/
structure Indexed (repo : String) (artifact : Coordinate) (past : List MavenCall) (state : MavenState ι) : Prop where
  unlocked : state.writer = none
  listed : ∀ version, version ∈ versionsOf (artifact.entryStart repo) state.layout ↔ version ∈ versionsPut past
  cached : past ≠ [] → ∃ time, state.metadata[artifact.indexKey repo]? =
    some (.artifactIndex artifact.groupId artifact.artifactId
      (versionsOf (artifact.entryStart repo) state.layout) time)

private theorem Indexed.afterCall {past : List MavenCall} {call : MavenCall}
    (indexed : Indexed repo artifact past state)
    (deploys : call.DeploysTo repo artifact) (accepted : server.Accepts thread state call) :
    Indexed repo artifact (past ++ [call]) (server.afterCall thread state call) := by
  obtain ⟨coord, body, upload, groups, artifacts⟩ := deploys
  obtain ⟨repo', path', other, body', blobs, again, put, done⟩ := accepted.uploaded indexed.unlocked
  obtain ⟨rfl, rfl, rfl, rfl⟩ := upload.unique again
  have version : call.request.version = some coord.version := by
    rw [upload.asked, MavenRequest.version, upload.parsed]
    rfl
  rw [done]
  refine ⟨writer_uploaded.trans indexed.unlocked, fun version => ?_, fun _ => ?_⟩
  · rw [mem_versionsOf_uploaded groups artifacts, indexed.listed version]
    simp [versionsPut, *]
  · have key : coord.indexKey repo = artifact.indexKey repo := by
      simp [Coordinate.indexKey, Coordinate.groupPath, groups, artifacts]
    have start : coord.entryStart repo = artifact.entryStart repo := by
      simp [Coordinate.entryStart, Coordinate.groupPath, groups, artifacts]
    rw [index_uploaded rfl, if_pos key, groups, artifacts, start]
    exact ⟨_, rfl⟩

/-- The index names the versions that were uploaded last exactly if they are the greatest ones as texts. -/
theorem newest_named_iff (server : MavenServer) (thread : ι) {repo : String} {artifact : Coordinate}
    {calls : List MavenCall}
    (deploys : ∀ call ∈ calls, call.DeploysTo repo artifact)
    (accepted : Runs.Along (server.afterCall thread) (server.Accepts thread) (MavenState.new ι) calls)
    (filled : calls ≠ []) :
    ∃ doc, (server.afterCalls thread (MavenState.new ι) calls).metadata[artifact.indexKey repo]? = some doc ∧
      (doc.latest = (versionsPut calls).getLast? ↔
        ∀ version ∈ versionsPut calls, ∀ last ∈ (versionsPut calls).getLast?, version ≤ last) ∧
      (doc.release = (releasesPut calls).getLast? ↔
        ∀ version ∈ releasesPut calls, ∀ last ∈ (releasesPut calls).getLast?, version ≤ last) := by
  have indexed : Indexed repo artifact calls (server.afterCalls thread (MavenState.new ι) calls) := by
    refine (accepted.and_of_forall deploys).history (motive := fun past state => Indexed repo artifact past state) ?_
      fun past call indexed met => indexed.afterCall met.2 met.1
    refine ⟨rfl, fun version => ?_, fun filled => absurd rfl filled⟩
    rw [mem_versionsOf]
    simp [MavenState.new, versionsPut]
  obtain ⟨time, cached⟩ := indexed.cached filled
  refine ⟨_, cached, getLast?_eq_iff pairwise_versionsOf indexed.listed, ?_⟩
  rw [MavenMetadata.artifactIndex, ← List.head?_filter, List.filter_reverse, List.head?_reverse]
  refine getLast?_eq_iff (pairwise_versionsOf.filter _) fun version => ?_
  rw [releasesPut, List.mem_filter, List.mem_filter, indexed.listed version]

/-- A release, and then a SNAPSHOT of the next one. -/
def increasing : List MavenCall :=
  [deploy "org/demo/1.0/demo-1.0.jar" [1], deploy "org/demo/2.0-SNAPSHOT/demo-2.0-SNAPSHOT.jar" [1, 2]]

private theorem deploysTo_demo {path : String} {body : Bytes}
    (read : ((parseLayoutPath path).toOption.map fun layout =>
      (layout.pathClass, layout.coordinate.repositoryPath, layout.coordinate.groupId,
        layout.coordinate.artifactId)) =
        some (.artifact, path, "org", "demo")) : (deploy path body).DeploysTo "releases" demo := by
  obtain ⟨⟨coord, pathClass⟩, parsed, seen⟩ := Fallible.exists_of_toOption_map read
  simp only [Prod.mk.injEq] at seen
  obtain ⟨rfl, same, groups, artifacts⟩ := seen
  exact ⟨coord, body, ⟨by rw [same]; rfl, by rw [same]; exact parsed⟩, groups, artifacts⟩

/-- The index names the SNAPSHOT as the latest version, and the release before it. -/
theorem newest_named_demo : ∃ doc, (sample.afterCalls () (MavenState.new Unit) increasing).metadata[
    demo.indexKey "releases"]? = some doc ∧ doc.latest = some "2.0-SNAPSHOT" ∧ doc.release = some "1.0" := by
  have deploys : ∀ call ∈ increasing, call.DeploysTo "releases" demo := by
    intro call member
    simp only [increasing, List.mem_cons, List.not_mem_nil, or_false] at member
    rcases member with rfl | rfl <;> exact deploysTo_demo (by decide +kernel)
  have answered : (sample.perform () (increasing.getD 0 (deploy "" [])).request (fun _ => .sample)
        (MavenState.new Unit)).2 = .answered (sample.uploadAnswer [1]) ∧
      (sample.perform () (increasing.getD 1 (deploy "" [])).request (fun _ => .sample)
        (sample.afterCalls () (MavenState.new Unit) (increasing.take 1))).2 =
          .answered (sample.uploadAnswer [1, 2]) := by
    decide +kernel
  have put : versionsPut increasing = ["1.0", "2.0-SNAPSHOT"] ∧ releasesPut increasing = ["1.0"] := by
    decide +kernel
  have uploads (call : MavenCall) (member : call ∈ increasing) :
      ∃ repo path coord body, call.request.Uploads repo path coord body := by
    obtain ⟨coord, body, upload, _⟩ := deploys call member
    exact ⟨_, _, coord, body, upload⟩
  obtain ⟨doc, cached, latest, release⟩ := newest_named_iff sample () deploys
    ⟨⟨uploads _ (by simp [increasing]), _, answered.1⟩, ⟨uploads _ (by simp [increasing]), _, answered.2⟩, trivial⟩
    (List.cons_ne_nil _ _)
  rw [put.1] at latest
  rw [put.2] at release
  exact ⟨doc, cached, latest.mpr (by decide), release.mpr (by decide)⟩

/-- Of the versions 9.0 and 10.0, uploaded in this order, the index names the first one. -/
theorem older_version_named :
    let calls := [deploy "org/demo/9.0/demo-9.0.jar" [1], deploy "org/demo/10.0/demo-10.0.jar" [1, 2]]
    versionsPut calls = ["9.0", "10.0"] ∧
      (((sample.afterCalls () (MavenState.new Unit) calls).metadata[demo.indexKey "releases"]?).map
        fun doc => (doc.latest, doc.release)) = some (some "9.0", some "9.0") := by
  decide +kernel

end FerroProtocols.Maven
