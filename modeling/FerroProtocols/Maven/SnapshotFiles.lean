import FerroProtocols.Lib.Runs
import FerroProtocols.Maven.Alone

/-! The files that the document of a SNAPSHOT version lists. -/

namespace FerroProtocols.Maven

open BlobStore Std MavenServer

/-- What the document of the builds of a counter is kept under. -/
def CounterKey.document (key : CounterKey) : MetadataKey := ⟨key.repo, key.groupPath, key.artifactId, some key.base⟩

/-- A file of a SNAPSHOT version, and the timestamped version that was assigned to its upload. -/
structure BuiltFile where
  classifier : Option String
  extension : String
  value : String
  deriving DecidableEq

namespace BuiltFile

/-- What uploads of the same file have in common. -/
def pair (file : BuiltFile) : Option String × String := (file.classifier, file.extension)

/-- The version that was assigned to the newest upload of a file. -/
def newest (pair : Option String × String) (files : List BuiltFile) : Option String :=
  (files.reverse.find? fun file => file.pair = pair).map value

end BuiltFile

variable {ι : Type}

/-- The file that an upload of a coordinate brings. -/
def Coordinate.builtFile (coord : Coordinate) (repo : String) (now : DateTime) (state : MavenState ι) : BuiltFile :=
  ⟨coord.classifier, coord.extension,
    now.composeVersion coord.version (state.nextBuild (coord.counterKey repo))⟩

namespace MavenServer

variable (server : MavenServer) (thread : ι)

/-- The file that a request brings, if it is the upload of an artifact that succeeds. -/
def builtFiles (state : MavenState ι) (call : MavenCall) : List BuiltFile :=
  match call.request, (server.perform thread call.request call.events state).2 with
  | .put repo path _, .answered (.responded _) =>
    match parseLayoutPath path with
    | .ok ⟨coord, .artifact⟩ => [coord.builtFile repo (call.events 2).now state]
    | _ => []
  | _, _ => []

/-- The files that requests bring one after the other. -/
def builtAlong (state : MavenState ι) (calls : List MavenCall) : List BuiltFile :=
  Runs.collect (server.afterCall thread) (server.builtFiles thread) state calls

variable {server thread}

private theorem document_uploaded {repo path : String} {coord : Coordinate} {body : Bytes}
    {events : Nat → MavenEvent}
    {state : MavenState ι} (snapshot : isSnapshotVersion coord.version = true) :
    (server.uploaded repo path coord body events state).metadata[coord.snapshotKey repo]? =
      some (coord.snapshotDocument (state.nextBuild (coord.counterKey repo)) (events 2).now (events 3).now
        (events 3).later) := by
  have other : coord.indexKey repo ≠ coord.snapshotKey repo := fun same => by
    cases congrArg ArtifactKey.base same
  rw [uploaded, indexed, MavenState.getElem?_cache, if_neg other, entered, if_pos snapshot]
  change (server.registered repo coord body events state).metadata[coord.snapshotKey repo]? = _
  rw [registered, MavenState.getElem?_cache, if_pos rfl]

private theorem built_or_refused {key : CounterKey} {state : MavenState ι} {call : MavenCall}
    (unlocked : state.writer = none)
    (builds : call.request.counter = some key) :
    (server.builtFiles thread state call = [] ∧ server.afterCall thread state call = state) ∨
      ∃ file doc updated, server.builtFiles thread state call = [file] ∧
        (server.afterCall thread state call).metadata[key.document]? = some doc ∧
        doc.snapshotVersions = [⟨file.classifier, file.extension, file.value, updated⟩] := by
  obtain ⟨repo, path, coord, body, upload, snapshot, counted⟩ := MavenRequest.counter_eq_some_iff.mp builds
  have performed := server.performs thread call.request call.events unlocked
  rw [afterCall, builtFiles]
  generalize server.perform thread call.request call.events state = result at performed ⊢
  rcases performed.of_uploads upload with ⟨error, rfl⟩ | ⟨blobs, -, rfl⟩
  · left
    simp [upload.asked]
  · right
    have same : coord.snapshotKey repo = key.document := by
      rw [← counted]
      rfl
    refine ⟨coord.builtFile repo (call.events 2).now state,
      coord.snapshotDocument (state.nextBuild (coord.counterKey repo)) (call.events 2).now
        (call.events 3).now (call.events 3).later, (call.events 3).now.formatLastUpdated, ?_, ?_, rfl⟩
    · simp only [upload.asked, upload.parsed, uploadAnswer]
    · rw [← same]
      exact document_uploaded snapshot

private theorem lists_last {key : CounterKey} {state : MavenState ι} (unlocked : state.writer = none)
    {calls : List MavenCall}
    (builds : ∀ call ∈ calls, call.request.counter = some key) :
    (server.afterCalls thread state calls).writer = none ∧
      ∀ file, (server.builtAlong thread state calls).getLast? = some file →
        ∃ doc updated, (server.afterCalls thread state calls).metadata[key.document]? = some doc ∧
          doc.snapshotVersions = [⟨file.classifier, file.extension, file.value, updated⟩] := by
  induction calls using List.reverseRecOn with
  | nil => exact ⟨unlocked, nofun⟩
  | append_singleton past call ih =>
    obtain ⟨free, listed⟩ := ih fun earlier member => builds earlier (List.mem_append_left [call] member)
    rw [server.afterCalls_concat, builtAlong, Runs.collect_concat]
    refine ⟨server.writer_afterCall thread free call, ?_⟩
    have last := builds call (List.mem_append_right past List.mem_cons_self)
    rcases built_or_refused free last with ⟨nothing, same⟩ | ⟨file, doc, updated, brought, cached, only⟩
    · -- A refused upload leaves the document as it is.
      change server.builtFiles thread (past.foldl (server.afterCall thread) state) call = [] at nothing
      rw [nothing, List.append_nil, same]
      exact listed
    · change server.builtFiles thread (past.foldl (server.afterCall thread) state) call = [file] at brought
      intro found final
      rw [brought, List.getLast?_concat, Option.some.injEq] at final
      rw [← final]
      exact ⟨doc, updated, cached, only⟩

end MavenServer

/-- The document lists every file that was ever uploaded, with the version of its newest upload. -/
def ListsFiles (key : CounterKey) (files : List BuiltFile) (state : MavenState ι) : Prop :=
  ∀ file ∈ files, ∃ doc, state.metadata[key.document]? = some doc ∧
    ∃ listed ∈ doc.snapshotVersions, listed.classifier = file.classifier ∧ listed.extension = file.extension ∧
      BuiltFile.newest file.pair files = some listed.value

/-- After any uploads of one SNAPSHOT version the document lists all files exactly if all uploads were of the
same file. -/
theorem MavenServer.lists_files_iff (server : MavenServer) (thread : ι) {key : CounterKey} {state : MavenState ι}
    (unlocked : state.writer = none) (calls : List MavenCall)
    (builds : ∀ call ∈ calls, call.request.counter = some key) :
    ListsFiles key (server.builtAlong thread state calls) (server.afterCalls thread state calls) ↔
      ∀ first ∈ server.builtAlong thread state calls, ∀ second ∈ server.builtAlong thread state calls,
        first.pair = second.pair := by
  obtain ⟨-, listed⟩ := @lists_last ι server thread key state unlocked calls builds
  generalize server.builtAlong thread state calls = files at listed ⊢
  constructor
  · -- Whatever is listed for a file is the file of the last upload.
    intro lists
    have own : ∀ file ∈ files, ∀ last, files.getLast? = some last → file.pair = last.pair := by
      intro file member last final
      obtain ⟨doc, cached, entry, among, classifier, extension, -⟩ := lists file member
      obtain ⟨found, updated, same, only⟩ := listed last final
      cases cached.symm.trans same
      rw [only, List.mem_singleton] at among
      rw [BuiltFile.pair, BuiltFile.pair, ← classifier, ← extension, among]
    intro first member second member'
    have some := List.getLast?_eq_some_getLast (List.ne_nil_of_mem member)
    rw [own first member _ some, own second member' _ some]
  · intro alike file member
    have final := List.getLast?_eq_some_getLast (List.ne_nil_of_mem member)
    have last := List.getLast_mem (List.ne_nil_of_mem member)
    generalize files.getLast _ = newest at final last
    obtain ⟨doc, updated, cached, only⟩ := listed newest final
    have same : newest.pair = file.pair := alike newest last file member
    refine ⟨doc, cached, _, only ▸ List.mem_singleton_self _, congrArg Prod.fst same, congrArg Prod.snd same, ?_⟩
    -- The last upload is the newest one of every file.
    obtain ⟨earlier, rfl⟩ := List.getLast?_eq_some_iff.mp final
    rw [BuiltFile.newest, List.reverse_concat, List.find?_cons_of_pos]
    · rfl
    · exact decide_eq_true same

section Runs

/-- The jar is uploaded twice. -/
def jarTwice : List MavenCall :=
  [deploy "org/demo/1.0-SNAPSHOT/demo-1.0-SNAPSHOT.jar" [1],
    deploy "org/demo/1.0-SNAPSHOT/demo-1.0-SNAPSHOT.jar" [1, 2]]

/-- The jar is uploaded, and then its sources. -/
def jarAndSources : List MavenCall :=
  [deploy "org/demo/1.0-SNAPSHOT/demo-1.0-SNAPSHOT.jar" [1],
    deploy "org/demo/1.0-SNAPSHOT/demo-1.0-SNAPSHOT-sources.jar" [1, 2]]

/-- A jar that is uploaded again is listed with its second version. -/
theorem lists_files_iff_jarTwice : let files := sample.builtAlong () (MavenState.new Unit) jarTwice
    files.map BuiltFile.value = ["1.0-20260101.000000-1", "1.0-20260101.000000-2"] ∧
      ListsFiles demoCounter files (sample.afterCalls () (MavenState.new Unit) jarTwice) := by
  obtain ⟨builds, built⟩ : (∀ call ∈ jarTwice, call.request.counter = some demoCounter) ∧
      sample.builtAlong () (MavenState.new Unit) jarTwice =
        [⟨none, "jar", "1.0-20260101.000000-1"⟩, ⟨none, "jar", "1.0-20260101.000000-2"⟩] := by
    decide +kernel
  refine ⟨by rw [built]; rfl, (sample.lists_files_iff () rfl jarTwice builds).mpr ?_⟩
  rw [built]
  decide

/-- The document of the sources takes the place of the one with the jar. -/
theorem jar_not_listed : (∀ call ∈ jarAndSources, call.request.counter = some demoCounter) ∧
      (sample.builtAlong () (MavenState.new Unit) jarAndSources).map BuiltFile.pair =
        [(none, "jar"), (some "sources", "jar")] ∧
      ((sample.afterCalls () (MavenState.new Unit) jarAndSources).metadata[demoCounter.document]?.map
        fun doc => doc.snapshotVersions.map fun listed => (listed.classifier, listed.extension)) =
        some [(some "sources", "jar")] := by
  decide +kernel

end Runs

end FerroProtocols.Maven
