import FerroProtocols.Lib.Runs
import FerroProtocols.Maven.Alone

/-! What is downloaded after uploads. -/

namespace FerroProtocols.Maven

open BlobStore Std Texts

/-- A file that was entered. -/
structure StoredFile where
  repo : String
  path : String
  body : Bytes

/-- The key a file was entered under. -/
def StoredFile.key (file : StoredFile) : String := buildKey file.repo file.path

/-- The bytes that were stored last under a key. -/
def lastStored (key : String) (files : List StoredFile) : Option Bytes :=
  files.foldl (fun found file => if file.key = key then some file.body else found) none

section LastStored

variable {key : String}

private theorem lastStored_append (files later : List StoredFile) :
    lastStored key (files ++ later) = (lastStored key later).or (lastStored key files) := by
  have from_any : ∀ found, later.foldl (fun found file => if file.key = key then some file.body else found) found =
      (lastStored key later).or found := by
    -- What was found before is used only if nothing is found later.
    induction later using List.reverseRecOn with
    | nil => exact fun _ => rfl
    | append_singleton later file ih =>
      intro found
      rw [lastStored, List.foldl_append, List.foldl_append, ih found]
      simp only [List.foldl_cons, List.foldl_nil]
      split <;> rfl
  rw [lastStored, List.foldl_append]
  exact from_any _

private theorem lastStored_map (repo : String) (paths : List String) (body : Bytes) :
    lastStored key (paths.map fun path => ⟨repo, path, body⟩) =
      if ∃ path ∈ paths, buildKey repo path = key then some body else none := by
  induction paths using List.reverseRecOn with
  | nil => simp [lastStored]
  | append_singleton paths path ih =>
    rw [List.map_append, lastStored_append, ih]
    by_cases last : buildKey repo path = key
    · simp [lastStored, StoredFile.key, last]
    · simp [lastStored, StoredFile.key, last]

private theorem exists_lastStored {files : List StoredFile} {file : StoredFile} (member : file ∈ files) :
    ∃ body, lastStored file.key files = some body := by
  obtain ⟨before, after, rfl⟩ := List.append_of_mem member
  rw [lastStored_append]
  cases later : lastStored file.key (file :: after) with
  | some body => exact ⟨body, rfl⟩
  | none =>
    rw [← List.singleton_append, lastStored_append] at later
    have own : lastStored file.key [file] = some file.body := if_pos rfl
    rw [own] at later
    cases found : lastStored file.key after <;> rw [found] at later <;> cases later

end LastStored

variable {ι : Type}

/-- The files that a request enters, if it is an upload that succeeds. -/
def MavenCall.files (call : MavenCall) (state : MavenState ι) : List StoredFile :=
  match call.request with
  | .put repo path body =>
    match parseLayoutPath path with
    | .ok ⟨coord, .artifact⟩ =>
      (MavenServer.uploadPaths repo path coord call.events state).map fun entry => ⟨repo, entry, body⟩
    | _ => []
  | _ => []

namespace MavenServer

variable (server : MavenServer) (thread : ι)

/-- The files that requests enter one after the other. -/
def filesAlong : MavenState ι → List MavenCall → List StoredFile
  | _, [] => []
  | state, call :: rest => call.files state ++ filesAlong (server.afterCall thread state call) rest

private theorem filesAlong_concat (state : MavenState ι) (calls : List MavenCall) (call : MavenCall) :
    server.filesAlong thread state (calls ++ [call]) =
      server.filesAlong thread state calls ++ call.files (server.afterCalls thread state calls) := by
  induction calls generalizing state with
  | nil => simp [filesAlong, afterCalls]
  | cons first rest ih =>
    rw [List.cons_append, filesAlong, ih, filesAlong, List.append_assoc]
    rfl

end MavenServer

/-- What was stored last under every key is what its entry stands for. -/
structure Current (server : MavenServer) (bodies : Set Bytes) (files : List StoredFile)
    (state : MavenState ι) : Prop where
  unlocked : state.writer = none
  known : ∀ key body, lastStored key files = some body → body ∈ bodies
  entries : ∀ key body, lastStored key files = some body → state.layout[key]? = some (server.digestOf body)
  blobs : ∀ key body, lastStored key files = some body → state.blobs.get (server.digestOf body) = .ok body

/-- An accepted upload keeps this, unless two bodies have the same digest. -/
theorem Current.afterCall {server : MavenServer} {thread : ι} {bodies : Set Bytes} {files : List StoredFile}
    {state : MavenState ι} {call : MavenCall} (current : Current server bodies files state)
    (distinct : Set.InjOn server.digestOf bodies) (accepted : server.Accepts thread state call)
    (member : ∀ body, call.request.upload = some body → body ∈ bodies) :
    Current server bodies (files ++ call.files state) (server.afterCall thread state call) := by
  obtain ⟨repo, path, coord, body, blobs, upload, put, after⟩ := accepted.uploaded current.unlocked
  obtain ⟨asked, parsed⟩ := upload
  have known : body ∈ bodies := member body (by rw [asked]; rfl)
  have entered : call.files state = (MavenServer.uploadPaths repo path coord call.events state).map
      fun entry => ⟨repo, entry, body⟩ := by
    simp only [MavenCall.files, asked, parsed]
  -- The last file under a key is the one of this upload, or as before.
  have cases : ∀ key found, lastStored key (files ++ call.files state) = some found →
      (∃ entry ∈ MavenServer.uploadPaths repo path coord call.events state, buildKey repo entry = key) ∧
        found = body ∨
      (¬ ∃ entry ∈ MavenServer.uploadPaths repo path coord call.events state, buildKey repo entry = key) ∧
        lastStored key files = some found := by
    intro key found last
    rw [lastStored_append, entered, lastStored_map] at last
    split at last
    · rename_i own
      exact .inl ⟨own, (Option.some.inj last).symm⟩
    · rename_i other
      exact .inr ⟨other, last⟩
  have stored : (server.afterCall thread state call).blobs = blobs := by rw [after, MavenServer.blobs_uploaded]
  refine ⟨server.writer_afterCall thread current.unlocked call, ?_, ?_, ?_⟩
  · intro key found last
    rcases cases key found last with ⟨-, rfl⟩ | ⟨-, before⟩
    · exact known
    · exact current.known key found before
  · intro key found last
    rw [after, MavenServer.layout_uploaded]
    rcases cases key found last with ⟨own, rfl⟩ | ⟨other, before⟩
    · exact if_pos own
    · exact (if_neg other).trans (current.entries key found before)
  · intro key found last
    rw [stored, InMemoryBlobStore.get_put put]
    rcases cases key found last with ⟨-, rfl⟩ | ⟨-, before⟩
    · exact if_pos rfl
    · by_cases same : server.digestOf body = server.digestOf found
      · rw [if_pos same, distinct known (current.known key found before) same]
      · rw [if_neg same]
        exact current.blobs key found before

namespace MavenServer

variable {server : MavenServer} {thread : ι} {start : MavenState ι} {calls : List MavenCall}

private theorem current_afterCalls (unlocked : start.writer = none)
    (distinct : Set.InjOn server.digestOf {body | ∃ call ∈ calls, call.request.upload = some body})
    (accepted : Runs.Along (server.afterCall thread) (server.Accepts thread) start calls) :
    Current server {body | ∃ call ∈ calls, call.request.upload = some body}
      (server.filesAlong thread start calls) (server.afterCalls thread start calls) := by
  have along : Runs.Along (server.afterCall thread) (fun state call => server.Accepts thread state call ∧
    call ∈ calls)
    start calls := accepted.and_of_forall fun _ member => member
  refine along.history (motive := fun past state => Current server
    {body | ∃ call ∈ calls, call.request.upload = some body} (server.filesAlong thread start past) state) ?_ ?_
  · have nothing : ∀ (key : String) (body : Bytes), lastStored key (server.filesAlong thread start []) ≠ some body :=
      nofun
    exact ⟨unlocked, fun key body found => absurd found (nothing key body),
      fun key body found => absurd found (nothing key body), fun key body found => absurd found (nothing key body)⟩
  · intro past call current met
    rw [filesAlong_concat]
    exact current.afterCall distinct met.1 fun body uploads => ⟨call, met.2, uploads⟩

private theorem exists_files_subset {call : MavenCall} (member : call ∈ calls) :
    ∃ state : MavenState ι, call.files state ⊆ server.filesAlong thread start calls := by
  induction calls generalizing start with
  | nil => cases member
  | cons first rest ih =>
    rcases List.mem_cons.mp member with rfl | later
    · exact ⟨start, List.subset_append_left _ _⟩
    · obtain ⟨state, inside⟩ := @ih (server.afterCall thread start first) later
      exact ⟨state, fun file found => List.mem_append_right _ (inside found)⟩

private theorem of_mem_filesAlong {file : StoredFile} (member : file ∈ server.filesAlong thread start calls) :
    ∃ call ∈ calls, ∃ state : MavenState ι, file ∈ call.files state := by
  induction calls generalizing start with
  | nil => cases member
  | cons first rest ih =>
    rcases List.mem_append.mp member with own | later
    · exact ⟨first, List.mem_cons_self, start, own⟩
    · obtain ⟨call, among, state, found⟩ := ih later
      exact ⟨call, List.mem_cons_of_mem _ among, state, found⟩

private theorem not_serves_buildPath {coord : Coordinate} {time : DateTime} {buildNumber : Nat} {repo : String}
    {state : MavenState ι} {bytes : Bytes} (thread : ι) (snapshot : isSnapshotVersion coord.version = true) :
    ¬ server.Serves state repo (coord.buildPath time buildNumber) bytes := by
  intro serves
  obtain ⟨response, downloaded, -⟩ := serves thread (fun _ => .sample) fun _ => rfl
  obtain ⟨error, refused⟩ := @parseLayoutPath_buildPath coord time buildNumber snapshot
  have answered := @perform_of_answered ι server thread (.get repo (coord.buildPath time buildNumber) true)
    (fun _ => .sample) state state (.refused error) (by simp only [handle, serve, refused])
  rw [answered] at downloaded
  cases downloaded

section Serving

variable (server thread start calls)

/-- After accepted uploads the path of each of them returns what was uploaded there last.
All files that were entered can be downloaded exactly if none of the uploads was a SNAPSHOT. -/
theorem uploads_are_served (unlocked : start.writer = none)
    (distinct : Set.InjOn server.digestOf {body | ∃ call ∈ calls, call.request.upload = some body})
    (accepted : Runs.Along (server.afterCall thread) (server.Accepts thread) start calls) :
    let files := server.filesAlong thread start calls
    let after := server.afterCalls thread start calls
    (∀ call ∈ calls, ∀ repo path body, call.request = .put repo path body →
      ∃ last, lastStored (buildKey repo path) files = some last ∧ server.Serves after repo path last) ∧
    ((∀ file ∈ files, ∃ last, lastStored file.key files = some last ∧ server.Serves after file.repo file.path last) ↔
      ∀ call ∈ calls, ∀ repo path coord body, call.request.Uploads repo path coord body →
        isSnapshotVersion coord.version = false) := by
  intro files after
  have current := current_afterCalls unlocked distinct accepted
  -- A file that was entered under a path that can be read is downloaded from there.
  have served {file : StoredFile} {coord : Coordinate} (member : file ∈ files)
      (parsed : parseLayoutPath file.path = .ok ⟨coord, .artifact⟩) :
      ∃ last, lastStored file.key files = some last ∧ server.Serves after file.repo file.path last := by
    obtain ⟨last, found⟩ := exists_lastStored member
    refine ⟨last, found, serves_of_entry current.unlocked parsed (nofun)
      (current.entries _ _ found) (current.blobs _ _ found)⟩
  have entered {call : MavenCall} {repo path : String} {coord : Coordinate} {body : Bytes}
      (upload : call.request.Uploads repo path coord body) (state : MavenState ι) :
      call.files state = (uploadPaths repo path coord call.events state).map fun entry => ⟨repo, entry, body⟩ := by
    simp only [MavenCall.files, upload.asked, upload.parsed]
  refine ⟨?_, ?_, ?_⟩
  · intro call member repo path body asked
    obtain ⟨reached, ⟨repo', path', coord, body', upload⟩, -⟩ := accepted.exists_of_mem member
    obtain ⟨rfl, rfl, rfl⟩ := MavenRequest.put.inj (asked.symm.trans upload.asked)
    obtain ⟨state, inside⟩ := @exists_files_subset ι server thread start calls call member
    have own : (⟨repo, path, body⟩ : StoredFile) ∈ files := by
      refine inside ?_
      rw [entered upload]
      simp [uploadPaths]
    exact served own upload.parsed
  · intro all call member repo path coord body upload
    obtain ⟨state, inside⟩ := @exists_files_subset ι server thread start calls call member
    by_contra released
    have snapshot : isSnapshotVersion coord.version = true := by simpa using released
    have built : (⟨repo, coord.buildPath (call.events 2).now (state.nextBuild (coord.counterKey repo)), body⟩ :
        StoredFile) ∈ files := by
      refine inside ?_
      rw [entered upload]
      simp [uploadPaths, snapshot]
    obtain ⟨last, -, serves⟩ := all _ built
    exact not_serves_buildPath thread snapshot serves
  · intro released file member
    obtain ⟨call, among, state, own⟩ := of_mem_filesAlong member
    obtain ⟨reached, ⟨repo, path, coord, body, upload⟩, -⟩ := accepted.exists_of_mem among
    rw [entered upload] at own
    have release := released call among repo path coord body upload
    simp only [uploadPaths, release, Bool.false_eq_true, if_false, List.nil_append, List.map_cons, List.map_nil,
      List.mem_singleton] at own
    subst own
    exact served member upload.parsed

end Serving

/-- A release is uploaded twice. -/
def redeployed : List MavenCall :=
  [deploy "org/demo/1.0/demo-1.0.jar" [1], deploy "org/demo/1.0/demo-1.0.jar" [1, 2]]

/-- A release that was uploaded twice is downloaded as it was the second time. -/
theorem uploads_are_served_redeployed :
    Runs.Along (sample.afterCall ()) (sample.Accepts ()) (MavenState.new Unit) redeployed ∧
      sample.Serves (sample.afterCalls () (MavenState.new Unit) redeployed) "releases" "org/demo/1.0/demo-1.0.jar"
        [1, 2] := by
  have evaluated : (parseLayoutPath "org/demo/1.0/demo-1.0.jar").toOption.map LayoutPath.pathClass = some .artifact ∧
      (sample.perform () (.put "releases" "org/demo/1.0/demo-1.0.jar" [1]) (fun _ => .sample)
        (MavenState.new Unit)).2 =
        .answered (sample.uploadAnswer [1]) ∧
      (sample.perform () (.put "releases" "org/demo/1.0/demo-1.0.jar" [1, 2]) (fun _ => .sample)
        (sample.afterCall () (MavenState.new Unit) (deploy "org/demo/1.0/demo-1.0.jar" [1]))).2 =
        .answered (sample.uploadAnswer [1, 2]) ∧
      lastStored (buildKey "releases" "org/demo/1.0/demo-1.0.jar")
        (sample.filesAlong () (MavenState.new Unit) redeployed) = some [1, 2] := by
    decide +kernel
  obtain ⟨read, first, second, last⟩ := evaluated
  obtain ⟨coord, parsed⟩ := exists_of_pathClass read
  have accepted : Runs.Along (sample.afterCall ()) (sample.Accepts ()) (MavenState.new Unit) redeployed :=
    ⟨⟨⟨_, _, coord, _, rfl, parsed⟩, _, first⟩, ⟨⟨_, _, coord, _, rfl, parsed⟩, _, second⟩, trivial⟩
  have apart : sample.digestOf [1] ≠ sample.digestOf [1, 2] := by decide +kernel
  have distinct : Set.InjOn sample.digestOf {body | ∃ call ∈ redeployed, call.request.upload = some body} := by
    have bodies : ∀ body, (∃ call ∈ redeployed, call.request.upload = some body) → body = [1] ∨ body = [1, 2] := by
      simp [redeployed, deploy, MavenRequest.upload, eq_comm]
    intro left inLeft right inRight same
    rcases bodies left inLeft with rfl | rfl <;> rcases bodies right inRight with rfl | rfl
    · rfl
    · exact absurd same apart
    · exact absurd same.symm apart
    · rfl
  refine ⟨accepted, ?_⟩
  obtain ⟨bytes, stored, serves⟩ :=
    (uploads_are_served sample () (MavenState.new Unit) redeployed rfl distinct accepted).1
    (deploy "org/demo/1.0/demo-1.0.jar" [1, 2]) (by simp [redeployed]) _ _ _ rfl
  rw [last] at stored
  cases stored
  exact serves

/-- A build that was entered is refused when it is asked for. -/
theorem build_is_refused :
    let state := sample.afterCalls () (MavenState.new Unit)
      [deploy "org/demo/1.0-SNAPSHOT/demo-1.0-SNAPSHOT.jar" [1]]
    state.layout[buildKey "releases" "org/demo/1.0-SNAPSHOT/demo-1.0-20260101.000000-1.jar"]? =
        some (sample.digestOf [1]) ∧
      (sample.perform () (.get "releases" "org/demo/1.0-SNAPSHOT/demo-1.0-20260101.000000-1.jar" true)
        (fun _ => .sample) state).2 =
      .answered (.refused (.invalidPath
        "filename `demo-1.0-20260101.000000-1.jar` does not start with `demo-1.0-SNAPSHOT`")) := by
  decide +kernel

end MavenServer

end FerroProtocols.Maven
