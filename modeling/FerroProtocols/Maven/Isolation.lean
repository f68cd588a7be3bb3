import FerroProtocols.Maven.Entries

/-! Repositories of one server, whose entries are all kept in one map. -/

namespace FerroProtocols.Maven

open BlobStore Std Texts MavenServer

/-- Neither name continues the other one behind a slash. -/
structure Apart (repo other : String) : Prop where
  different : repo ≠ other
  notBelow : ∀ rest, other ≠ repo ++ "/" ++ rest
  notAbove : ∀ rest, repo ≠ other ++ "/" ++ rest

namespace Apart

variable {repo other : String}

private theorem of_notMem (different : repo ≠ other) (whole : '/' ∉ repo.toList) (whole' : '/' ∉ other.toList) :
    Apart repo other := by
  refine ⟨different, ?_, ?_⟩
  · rintro rest rfl
    simp at whole'
  · rintro rest rfl
    simp at whole

private theorem buildKey_ne (apart : Apart repo other) (path path' : String) :
    buildKey repo path ≠ buildKey other path' := by
  intro same
  have lists : repo.toList ++ '/' :: path.toList = other.toList ++ '/' :: path'.toList := by
    have characters := congrArg String.toList same
    simpa [buildKey] using characters
  -- The longer name is the shorter one, or continues it behind the slash.
  rcases List.append_eq_append_iff.mp lists with ⟨more, longer, rest⟩ | ⟨more, longer, rest⟩
  · cases more with
    | nil => exact apart.different (String.toList_inj.mp (by simpa using longer.symm))
    | cons first more =>
      obtain rfl := (List.cons.inj rest).1
      exact apart.notBelow (String.ofList more) (String.toList_inj.mp (by simpa using longer))
  · cases more with
    | nil => exact apart.different (String.toList_inj.mp (by simpa using longer))
    | cons first more =>
      obtain rfl := (List.cons.inj rest).1
      exact apart.notAbove (String.ofList more) (String.toList_inj.mp (by simpa using longer))

end Apart

/-- The repository of an upload or a deletion. -/
def MavenRequest.writes : MavenRequest → Option String
  | .put repo _ _ | .delete repo _ => some repo
  | .get _ _ _ => none

variable {ι : Type}

namespace MavenServer

variable {server : MavenServer} {thread : ι} {events : Nat → MavenEvent} {state after : MavenState ι}
  {repo path : String}
  {coord : Coordinate}

private theorem layout_afterCall (server : MavenServer) (thread : ι) {call : MavenCall} {other : String}
    (unlocked : state.writer = none)
    (writes : call.request.writes = some repo) (apart : Apart repo other) (path : String) :
    (server.afterCall thread state call).layout[buildKey other path]? = state.layout[buildKey other path]? := by
  have performed := server.performs thread call.request call.events unlocked
  rw [afterCall]
  generalize server.perform thread call.request call.events state = result at performed ⊢
  cases performed with
  | answers | documents => rfl
  | uploads repo' path' coord body blobs upload checked put =>
    rw [upload.asked] at writes
    cases writes
    rw [layout_uploaded, if_neg]
    rintro ⟨entry, -, same⟩
    exact apart.buildKey_ne entry path same
  | attaches repo' path' mainPath declared algo body blobs attached joined declares compared put =>
    rw [attached.asked] at writes
    cases writes
    rw [MavenState.getElem?_enter, if_neg (apart.buildKey_ne path' path)]
  | deletes repo' path' digest blobs answer asked found collected =>
    rw [asked] at writes
    cases writes
    simp only [ExtTreeMap.getElem?_erase, LawfulEqCmp.compare_eq_iff_eq, apart.buildKey_ne path' path, if_false]

private theorem perform_get_congr {layout : LayoutPath} {checksum : Option ChecksumAlgo} (withBody : Bool)
    (unlocked : state.writer = none) (unlocked' : after.writer = none) (parsed : parseLayoutPath path = .ok layout)
    (file : layout.pathClass = fileClass checksum)
    (entries : ∀ path : String, after.layout[buildKey repo path]? = state.layout[buildKey repo path]?)
    (blobs : ∀ (path : String) (digest : Digest), state.layout[buildKey repo path]? = some digest →
      after.blobs.get digest = state.blobs.get digest) :
    (server.perform thread (.get repo path withBody) events after).2 =
      (server.perform thread (.get repo path withBody) events state).2 := by
  obtain ⟨coord, pathClass⟩ := layout
  cases checksum with
  | none =>
    cases file
    cases found : state.layout[buildKey repo path]? with
    | none =>
      rw [perform_get_absent unlocked parsed found, perform_get_absent unlocked' parsed ((entries path).trans found)]
    | some digest =>
      rw [perform_get_artifact unlocked parsed found,
        perform_get_artifact unlocked' parsed ((entries path).trans found),
        blobs path digest found]
  | some algo =>
    cases file
    cases found : state.layout[buildKey repo path]? with
    | some digest =>
      rw [perform_get_sidecar unlocked parsed found,
        perform_get_sidecar unlocked' parsed ((entries path).trans found),
        blobs path digest found]
    | none =>
      by_cases stored : ∃ mainPath digest, path = mainPath ++ ("." ++ algo.extension) ∧
        state.layout[buildKey repo mainPath]? = some digest
      · obtain ⟨mainPath, digest, joined, main⟩ := stored
        rw [perform_get_computed unlocked parsed found joined main,
          perform_get_computed unlocked' parsed ((entries path).trans found) joined ((entries mainPath).trans main),
          blobs mainPath digest main]
      · have missing (mainPath : String) (joined : path = mainPath ++ ("." ++ algo.extension)) :
            state.layout[buildKey repo mainPath]? = none :=
          Option.eq_none_iff_forall_ne_some.mpr fun digest main => stored ⟨mainPath, digest, joined, main⟩
        rw [perform_get_no_checksum unlocked parsed found missing,
          perform_get_no_checksum unlocked' parsed ((entries path).trans found) fun mainPath joined =>
            (entries mainPath).trans (missing mainPath joined)]

end MavenServer

/-- Repositories that are apart are isolated: after any requests, an upload or a deletion in one of them
changes no download of an artifact or a checksum from the other one, unless two bodies have the same digest;
and their entries are different. -/
theorem repositories_isolated (server : MavenServer) (thread : ι) (calls : List MavenCall) (call : MavenCall)
    (distinct : Set.InjOn server.digestOf {body | ∃ earlier ∈ calls ++ [call], earlier.request.upload = some body})
    {repo other : String} (writes : call.request.writes = some repo) (apart : Apart repo other) :
    (∀ (path : String) (layout : LayoutPath) (checksum : Option ChecksumAlgo) (withBody : Bool)
      (events : Nat → MavenEvent), parseLayoutPath path = .ok layout → layout.pathClass = fileClass checksum →
      (server.perform thread (.get other path withBody) events
        (server.afterCalls thread (MavenState.new ι) (calls ++ [call]))).2 =
      (server.perform thread (.get other path withBody) events
        (server.afterCalls thread (MavenState.new ι) calls)).2) ∧
    ∀ path path', buildKey repo path ≠ buildKey other path' := by
  refine ⟨?_, apart.buildKey_ne⟩
  intro path layout checksum withBody events parsed file
  have known : ∀ earlier ∈ calls ++ [call], ∀ body, earlier.request.upload = some body →
      body ∈ {body | ∃ earlier ∈ calls ++ [call], earlier.request.upload = some body} :=
    fun earlier member body uploads => ⟨earlier, member, uploads⟩
  generalize {body | ∃ earlier ∈ calls ++ [call], earlier.request.upload = some body} = bodies at distinct known
  have intact : Intact server bodies (server.afterCalls thread (MavenState.new ι) calls) :=
    .afterCalls distinct thread fun earlier member => known earlier (List.mem_append_left [call] member)
  have intact' : Intact server bodies
      (server.afterCall thread (server.afterCalls thread (MavenState.new ι) calls) call) :=
    intact.afterCall distinct thread (known call (List.mem_append_right calls List.mem_cons_self))
  rw [server.afterCalls_concat]
  have entries := server.layout_afterCall thread intact.unlocked writes apart
  refine perform_get_congr withBody intact.unlocked intact'.unlocked parsed file entries ?_
  intro path digest found
  -- Both blobs are of the one body with the digest.
  obtain ⟨body, member, same, stored⟩ := intact.entries _ _ found
  obtain ⟨body', member', same', stored'⟩ := intact'.entries _ _ ((entries path).trans found)
  rw [stored, stored', distinct member member' (same.symm.trans same')]

section Runs

/-- The upload of a jar to a repository. -/
def deployTo (repo path : String) (body : Bytes) : MavenCall := ⟨.put repo path body, fun _ => .sample⟩

/-- The same path in two repositories: the first jar is still there. -/
theorem repositories_isolated_samePath :
    let before := sample.afterCalls () (MavenState.new Unit)
      [deployTo "snapshots" "org/demo/1.0/demo-1.0.jar" [1]]
    let after := sample.afterCalls () (MavenState.new Unit)
      [deployTo "snapshots" "org/demo/1.0/demo-1.0.jar" [1], deployTo "releases" "org/demo/1.0/demo-1.0.jar" [1, 2]]
    (sample.perform () (.get "snapshots" "org/demo/1.0/demo-1.0.jar" true) (fun _ => .sample) after).2 =
      (sample.perform () (.get "snapshots" "org/demo/1.0/demo-1.0.jar" true) (fun _ => .sample) before).2 := by
  obtain ⟨parsed, distinct⟩ : parseLayoutPath "org/demo/1.0/demo-1.0.jar" = .ok ⟨demo, .artifact⟩ ∧
      sample.digestOf [1] ≠ sample.digestOf [1, 2] := by
    decide +kernel
  refine (repositories_isolated sample () [deployTo "snapshots" "org/demo/1.0/demo-1.0.jar" [1]]
    (deployTo "releases" "org/demo/1.0/demo-1.0.jar" [1, 2]) ?_ rfl
    (.of_notMem (by decide) (by decide) (by decide))).1 _ _ none true _ parsed rfl
  refine (Set.injOn_pair.mpr fun same => absurd same distinct).mono ?_
  rintro body ⟨call, member, uploads⟩
  simp only [List.singleton_append, List.mem_cons, List.not_mem_nil, or_false] at member
  rcases member with rfl | rfl <;> cases uploads
  · exact .inl rfl
  · exact .inr rfl

/-- A jar that is uploaded to one repository is downloaded from another one. -/
theorem repositories_meet :
    let path := "org/demo/demo/1.0/demo-1.0.jar"
    let path' := "demo/demo/1.0/demo-1.0.jar"
    let after := sample.afterCalls () (MavenState.new Unit) [deployTo "a" path [1]]
    buildKey "a" path = buildKey "a/org" path' ∧
      (sample.perform () (.get "a/org" path' true) (fun _ => .sample) (MavenState.new Unit)).2 =
        .answered (.refused (.notFound path')) ∧
      (sample.perform () (.get "a/org" path' true) (fun _ => .sample) after).2 =
        .answered (.responded (buildArtifactResponse sample.hashes demo (sample.digestOf [1]) [1]
          true)) := by
  decide +kernel

end Runs

end FerroProtocols.Maven
