import FerroProtocols.Lib.Runs
import FerroProtocols.Maven.Alone

/-! Entries and their blobs, after requests one after the other. -/

namespace FerroProtocols.Maven

open BlobStore Std InMemoryBlobStore

variable {ι : Type}

/-- Among the entries of paths that can be asked for, an upload enters its own path only. -/
theorem MavenServer.layout_uploaded_file {server : MavenServer} {repo path repo' path' : String}
    {coord other : Coordinate} {body : Bytes} {events : Nat → MavenEvent} {state : MavenState ι}
    (checksum : Option ChecksumAlgo) (parsed : parseLayoutPath path' = .ok ⟨other, fileClass checksum⟩) :
    (server.uploaded repo path coord body events state).layout[buildKey repo' path']? =
      if buildKey repo path = buildKey repo' path' then some (server.digestOf body)
      else state.layout[buildKey repo' path']? := by
  have own : (∃ entry ∈ uploadPaths repo path coord events state, buildKey repo entry = buildKey repo' path') ↔
      buildKey repo path = buildKey repo' path' := by
    rw [uploadPaths]
    split
    · -- The file of a build cannot be asked for.
      rename_i snapshot
      have hidden := @timestampedKey_ne_buildKey coord (events 2).now (state.nextBuild (coord.counterKey repo))
        other repo repo' path' checksum snapshot parsed
      have apart : buildKey repo (coord.buildPath (events 2).now (state.nextBuild (coord.counterKey repo))) ≠
        buildKey repo' path' := hidden
      simp [apart]
    · simp
  rw [layout_uploaded]
  simp only [own]

/-- Every entry stands for one of some bodies, whose blob is stored. -/
structure Intact (server : MavenServer) (bodies : Set Bytes) (state : MavenState ι) : Prop where
  unlocked : state.writer = none
  entries : ∀ (key : String) (digest : Digest), state.layout[key]? = some digest →
    ∃ body ∈ bodies, digest = server.digestOf body ∧ state.blobs.get digest = .ok body

namespace Intact

variable {server : MavenServer} {bodies : Set Bytes} {state : MavenState ι} {body : Bytes}
  {blobs : InMemoryBlobStore}

/-- There is nothing in an empty repository. -/
theorem new : Intact server bodies (MavenState.new ι) := ⟨rfl, nofun⟩

variable (intact : Intact server bodies state) (distinct : Set.InjOn server.digestOf bodies)

include intact distinct

/-- The body of an entry is the only one with its digest. -/
theorem get_eq (known : body ∈ bodies) {key : String} (found : state.layout[key]? = some (server.digestOf body)) :
    state.blobs.get (server.digestOf body) = .ok body := by
  obtain ⟨other, known', same, stored⟩ := intact.entries key _ found
  obtain rfl := distinct known known' same
  exact stored

/-- Storing a body leaves the blobs of all entries. -/
private theorem get_of_put (known : body ∈ bodies)
    (put : state.blobs.put server.hashes.store (server.digestOf body) body = .ok blobs)
    {key : String} {digest : Digest} (found : state.layout[key]? = some digest) :
    ∃ other ∈ bodies, digest = server.digestOf other ∧ blobs.get digest = .ok other := by
  obtain ⟨other, known', same, stored⟩ := intact.entries key digest found
  refine ⟨other, known', same, ?_⟩
  rw [get_put put]
  split
  · rename_i own
    rw [distinct known known' (own.trans same)]
  · exact stored

/-- A body that is stored may be entered anywhere. -/
theorem store (known : body ∈ bodies)
    (put : state.blobs.put server.hashes.store (server.digestOf body) body = .ok blobs) {after : MavenState ι}
    (unlocked : after.writer = none) (stored : after.blobs = blobs)
    (entries : ∀ key : String, after.layout[key]? = some (server.digestOf body) ∨
      after.layout[key]? = state.layout[key]?) : Intact server bodies after := by
  refine ⟨unlocked, fun key digest found => ?_⟩
  rw [stored]
  rcases entries key with own | before
  · cases own.symm.trans found
    refine ⟨body, known, rfl, ?_⟩
    rw [get_put put, if_pos rfl]
  · exact intact.get_of_put distinct known put (before.symm.trans found)

/-- Every request keeps the blobs of entries. -/
theorem afterCall (thread : ι) {call : MavenCall}
    (known : ∀ body, call.request.upload = some body → body ∈ bodies) :
    Intact server bodies (server.afterCall thread state call) := by
  have unlocked := server.writer_afterCall thread intact.unlocked call
  have performed := server.performs thread call.request call.events intact.unlocked
  rw [MavenServer.afterCall] at unlocked ⊢
  generalize server.perform thread call.request call.events state = result at performed unlocked ⊢
  cases performed with
  | answers => exact intact
  | uploads repo path coord body blobs upload checked put =>
    refine intact.store distinct (known body (by rw [upload.asked]; rfl)) put unlocked MavenServer.blobs_uploaded ?_
    intro key
    rw [MavenServer.layout_uploaded]
    split
    · exact .inl rfl
    · exact .inr rfl
  | attaches repo path mainPath declared algo body blobs attached joined parsed compared put =>
    refine intact.store distinct (known body (by rw [attached.asked]; rfl)) put unlocked rfl ?_
    intro key
    rw [MavenState.getElem?_enter]
    split
    · exact .inl rfl
    · exact .inr rfl
  | documents => exact ⟨intact.unlocked, intact.entries⟩
  | deletes repo path digest blobs answer asked found collected =>
    refine ⟨intact.unlocked, fun key other there => ?_⟩
    -- An entry that is left was there before, and its blob is not the one that goes.
    have before : state.layout[key]? = some other := by
      rw [ExtTreeMap.getElem?_erase] at there
      split at there
      · cases there
      · exact there
    obtain ⟨body, member, same, stored⟩ := intact.entries key other before
    refine ⟨body, member, same, ?_⟩
    rcases collected with rfl | ⟨rfl, last⟩
    · exact stored
    · have different : digest ≠ other := by
        rintro rfl
        exact last key there
      rw [get_delete_of_ne different]
      exact stored

omit intact in
/-- So do requests one after the other. -/
theorem afterCalls (thread : ι) {calls : List MavenCall}
    (known : ∀ call ∈ calls, ∀ body, call.request.upload = some body → body ∈ bodies) :
    Intact server bodies (server.afterCalls thread (MavenState.new ι) calls) := by
  induction calls using List.reverseRecOn with
  | nil => exact new
  | append_singleton past call ih =>
    rw [server.afterCalls_concat]
    exact (ih fun earlier member => known earlier (List.mem_append_left [call] member)).afterCall distinct thread
      (known call (List.mem_append_right past List.mem_cons_self))

end Intact

end FerroProtocols.Maven
