import FerroProtocols.Oci.Registry

/-! A mutation that cannot be persisted leaves no trace. -/

namespace FerroProtocols.Oci

open BlobStore Std SparseMap InMemoryState

/-- What a repository holds, whether or not it has entries for it. -/
structure Repository where
  manifests : ManifestMap
  tags : TagMap
  referrers : String → List ReferrerDescriptor

namespace Repository

/-- The text of the digest a reference stands for. -/
def resolve (repository : Repository) : Reference → Option String
  | .digest digest => some digest.toString
  | .tag tag => repository.tags[tag]?

/-- The manifest a repository holds under a reference. -/
def getManifest (repository : Repository) (ref : Reference) :
    Except BlobStoreError (Option (Digest × String × Bytes)) :=
  match repository.resolve ref with
  | none => .ok none
  | some digestStr =>
    match repository.manifests[digestStr]? with
    | none => .ok none
    | some (mediaType, body) =>
      match Digest.parse digestStr with
      | .error error => .error (.invalidDigest error)
      | .ok digest => .ok (some (digest, mediaType, body))

end Repository

namespace InMemoryState

/-- What the registry holds for a name. -/
def repository (state : InMemoryState) (name : String) : Repository where
  manifests := valueAt state.manifests name
  tags := valueAt state.tags name
  referrers := fun subject => valueAt (valueAt state.referrers name) subject

variable (state : InMemoryState)

/-- Fetching a manifest reads the repository only. -/
theorem getManifest_eq (name : String) (ref : Reference) :
    state.getManifest name ref = (state.repository name).getManifest ref := by
  unfold getManifest Repository.getManifest repository valueAt
  cases stored : state.manifests[name]? with
  | none =>
    -- A repository without an entry holds no manifest under any digest.
    cases ref with
    | digest digest => simp [Repository.resolve]
    | tag tag => cases state.tags[name]? with
      | none => simp [Repository.resolve]
      | some map => cases found : map[tag]? <;> simp [Repository.resolve, found]
  | some nameMap =>
    cases ref with
    | digest digest => rfl
    | tag tag => cases state.tags[name]? with
      | none => simp [Repository.resolve]
      | some map => rfl

private theorem page_nil (last : Option String) (n : Option Nat) : page [] last n = [] := by
  cases last <;> cases n <;> simp [page]

/-- Listing tags reads the repository only. -/
theorem listTags_eq (name : String) (last : Option String)
    (n : Option Nat) : state.listTags name last n = page (state.repository name).tags.keys last n := by
  unfold listTags repository valueAt
  cases state.tags[name]? with
  | none => exact (page_nil last n).symm
  | some tagMap => rfl

/-- Listing referrers reads the repository only. -/
theorem listReferrers_eq (name : String) (digest : Digest) (artifactType : Option String) :
    state.listReferrers name digest artifactType = match artifactType with
      | none => (state.repository name).referrers digest.toString
      | some wanted => ((state.repository name).referrers digest.toString).filter fun desc =>
          decide (desc.artifactType = some wanted) := by
  unfold listReferrers repository valueAt
  cases state.referrers[name]? with
  | none => cases artifactType <;> simp
  | some nameMap =>
    dsimp only [Option.getD_some]
    cases nameMap[digest.toString]? with
    | none => cases artifactType <;> rfl
    | some list => rfl

/-- Two states that answer every question alike and have the same sessions. -/
structure Unchanged (before after : InMemoryState) : Prop where
  getManifest : ∀ name ref, after.getManifest name ref = before.getManifest name ref
  listTags : ∀ name last n, after.listTags name last n = before.listTags name last n
  listReferrers : ∀ name digest artifactType,
    after.listReferrers name digest artifactType = before.listReferrers name digest artifactType
  uploads : after.uploads = before.uploads

private theorem unchanged_of_repository {before after : InMemoryState}
    (same : ∀ name, after.repository name = before.repository name)
    (uploads : after.uploads = before.uploads) : Unchanged before after where
  getManifest name ref := by rw [getManifest_eq, getManifest_eq, same]
  listTags name last n := by rw [listTags_eq, listTags_eq, same]
  listReferrers name digest artifactType := by rw [listReferrers_eq, listReferrers_eq, same]
  uploads := uploads

private theorem repository_pruneEmptyRepo (name other : String) :
    (state.pruneEmptyRepo name).repository other = state.repository other := by
  simp only [repository, pruneEmptyRepo, valueAt_prune]

/-- Tidy the subjects of one repository. -/
def tidySubjects (state : InMemoryState) (name : String) (tidy : SubjectMap → SubjectMap) :
    InMemoryState :=
  { state with referrers := state.referrers.modify name tidy }

private theorem repository_tidySubjects (name other : String) {tidy : SubjectMap → SubjectMap}
    (same : ∀ subjects subject, valueAt (tidy subjects) subject = valueAt subjects subject) :
    (state.tidySubjects name tidy).repository other = state.repository other := by
  unfold repository tidySubjects
  congr 1
  funext subject
  rw [valueAt, valueAt, valueAt, valueAt, ExtTreeMap.getElem?_modify]
  split
  · rename_i here
    rw [← LawfulEqCmp.eq_of_compare here]
    cases state.referrers[name]? with
    | none => rfl
    | some subjects => exact same subjects subject
  · rfl

/-- The subject a put or a registration appends to. -/
def tidySubject (subject : Option String) (subjects : SubjectMap) : SubjectMap :=
  match subject with
  | some subject => prune subjects subject
  | none => subjects

private theorem popReferrer_pushReferrer (referrers : ExtTreeMap String SubjectMap) (name subject : String)
    (desc : ReferrerDescriptor) :
    prune (popReferrer (pushReferrer referrers name subject desc) name subject) name =
      prune (referrers.modify name fun subjects => prune subjects subject) name := by
  unfold popReferrer pushReferrer
  -- Inside the repository the same argument applies to the list of the subject.
  apply prune_modify_update
  · apply prune_undo_update
    simp
  · exact prune_eq_self (by simp)

/-- The subject of a referrer entry, if there is one. -/
def subjectOf (referrer : Option (Digest × ReferrerDescriptor)) : Option String :=
  referrer.map fun entry => entry.1.toString

private theorem undoPut_applyPut (name : String) (ref : Reference)
    (digest : Digest) (mediaType : String) (body : Bytes) (referrer : Option (Digest × ReferrerDescriptor)) :
    let applied := state.applyPut name ref digest mediaType body referrer
    applied.1.undoPut name applied.2 =
      (state.tidySubjects name (tidySubject (subjectOf referrer))).pruneEmptyRepo name := by
  have manifests : prune ((update state.manifests name
      fun map => map.insert digest.toString (mediaType, body)).modify name
        fun map => putBack map digest.toString (valueAt state.manifests name)[digest.toString]?) name =
      prune state.manifests name := prune_undo_update (putBack_insert _ _ _)
  have tags (tag : String) : prune ((update state.tags name fun map => map.insert tag digest.toString).modify name
        fun map => putBack map tag (valueAt state.tags name)[tag]?) name =
      prune state.tags name := prune_undo_update (putBack_insert _ _ _)
  have kept : state.referrers.modify name (tidySubject none) = state.referrers := modify_eq_self fun _ _ => rfl
  -- Each part is undone on its own, whether or not there is a tag and a referrer entry.
  cases ref with
  | tag tag =>
    cases referrer with
    | none => simp [applyPut, undoPut, pruneEmptyRepo, tidySubjects, subjectOf, manifests, tags, kept]
    | some entry =>
      simp only [applyPut, undoPut, pruneEmptyRepo, tidySubjects, subjectOf, Option.map_some,
        manifests, tags, popReferrer_pushReferrer]
      rfl
  | digest _ =>
    cases referrer with
    | none => simp [applyPut, undoPut, pruneEmptyRepo, tidySubjects, subjectOf, manifests, kept]
    | some entry =>
      simp only [applyPut, undoPut, pruneEmptyRepo, tidySubjects, subjectOf, Option.map_some,
        manifests, popReferrer_pushReferrer]
      rfl

private theorem editAll_pruneList (subjects : SubjectMap) (digestStr : String) :
    editAll Splice.insertBack (sweep (subjects.map fun _ list => (pruneList digestStr list).1))
        (listAll (fun list => (pruneList digestStr list).2) subjects).reverse = sweep subjects := by
  -- Neither side has empty subjects, so it is enough to compare the lists.
  apply Sparse.ext
  · exact (sparse_sweep _).editAll _ Splice.insertBack_ne_nil _
  · exact sparse_sweep _
  · intro subject
    have mapped : valueAt (subjects.map fun _ list => (pruneList digestStr list).1) subject =
        (pruneList digestStr (valueAt subjects subject)).1 := valueAt_map subjects subject rfl
    rw [valueAt_editAll, editsAt_reverse, editsAt_listAll rfl, valueAt_sweep, valueAt_sweep, mapped,
      List.foldl_reverse]
    exact Splice.foldr_insertBack_takeOut _ _ _

private theorem undo_referrers (referrers : ExtTreeMap String SubjectMap) (name digestStr : String) :
    let removed := listAll (fun list => (pruneList digestStr list).2) (valueAt referrers name)
    let applied := referrers.modify name fun subjects =>
      sweep (subjects.map fun _ list => (pruneList digestStr list).1)
    (if removed.isEmpty then applied
      else update applied name fun subjects => editAll Splice.insertBack subjects removed.reverse) =
      referrers.modify name sweep := by
  intro removed applied
  have restored := editAll_pruneList (valueAt referrers name) digestStr
  cases stored : referrers[name]? with
  | none =>
    -- Without an entry nothing was taken out, and nothing is modified.
    have nothing : removed = [] := by
      simp only [removed, valueAt, stored]
      rfl
    have absent {tidy : SubjectMap → SubjectMap} : referrers.modify name tidy = referrers :=
      modify_eq_self fun subjects found => by rw [stored] at found; cases found
    simp [nothing, applied, absent]
  | some subjects =>
    have here : valueAt referrers name = subjects := by rw [valueAt, stored, Option.getD_some]
    rw [here] at restored
    have taken : removed = listAll (fun list => (pruneList digestStr list).2) subjects := by rw [← here]
    cases empty : removed.isEmpty with
    | true =>
      rw [← taken, List.isEmpty_iff.mp empty] at restored
      rw [if_pos rfl]
      apply ExtTreeMap.ext_getElem?
      intro other
      simp only [applied, ExtTreeMap.getElem?_modify]
      split
      · rw [stored, Option.map_some, Option.map_some]
        exact congrArg some restored
      · rfl
    | false =>
      rw [if_neg (by simp)]
      apply update_modify stored
      rw [taken, restored]

private theorem undo_tags (tags : ExtTreeMap String TagMap) (name digestStr : String) :
    let removed := (valueAt tags name).toList.filterMap fun (tag, target) =>
      if target = digestStr then some tag else none
    let applied := tags.modify name fun map => map.filter fun _ target => decide (target ≠ digestStr)
    (if removed.isEmpty then applied
      else update applied name fun map => removed.foldl (fun map tag => map.insert tag digestStr) map) = tags := by
  intro removed applied
  -- A tag was removed exactly when it stood for the digest.
  have member (tag : String) : tag ∈ removed ↔ (valueAt tags name)[tag]? = some digestStr := by
    simp only [removed, List.mem_filterMap, Prod.exists, Option.ite_none_right_eq_some,
      Option.some.injEq, ExtTreeMap.mem_toList_iff_getElem?_eq_some]
    constructor
    · rintro ⟨other, target, found, rfl, rfl⟩
      exact found
    · intro found
      exact ⟨tag, digestStr, found, rfl, rfl⟩
  have restored : removed.foldl (fun map tag => map.insert tag digestStr)
      ((valueAt tags name).filter fun _ target => decide (target ≠ digestStr)) =
      valueAt tags name := by
    apply ExtTreeMap.ext_getElem?
    intro tag
    rw [getElem?_foldl_insert, ExtTreeMap.getElem?_filter']
    by_cases inside : tag ∈ removed
    · rw [if_pos inside, (member tag).mp inside]
    · rw [if_neg inside]
      cases found : (valueAt tags name)[tag]? with
      | none => rfl
      | some target =>
        have other : target ≠ digestStr := by
          rintro rfl
          exact inside ((member tag).mpr found)
        simp [Option.filter, other]
  cases stored : tags[name]? with
  | none =>
    have nothing : removed = [] := by
      simp only [removed, valueAt, stored]
      rfl
    simp only [nothing, List.isEmpty_nil, if_true, applied]
    exact modify_eq_self fun map found => by rw [stored] at found; cases found
  | some map =>
    have here : valueAt tags name = map := by rw [valueAt, stored, Option.getD_some]
    cases empty : removed.isEmpty with
    | true =>
      rw [List.isEmpty_iff.mp empty, here] at restored
      rw [if_pos rfl]
      apply modify_eq_self
      intro value found
      rw [stored] at found
      cases found
      exact restored
    | false =>
      rw [if_neg (by simp)]
      apply update_modify_self stored
      rw [here] at restored
      exact restored

private theorem undoDelete_applyDelete {state : InMemoryState} {name digestStr : String}
    {nameMap : ManifestMap} {manifest : String × Bytes}
    (stored : state.manifests[name]? = some nameMap) (found : nameMap[digestStr]? = some manifest) :
    let applied := state.applyDelete name digestStr manifest
    applied.1.undoDelete name applied.2 = state.tidySubjects name sweep := by
  have manifests : update (state.manifests.modify name fun map => map.erase digestStr) name
      (fun map => map.insert digestStr manifest) = state.manifests := by
    apply update_modify_self stored
    apply ExtTreeMap.ext_getElem?
    intro other
    rw [ExtTreeMap.getElem?_insert, ExtTreeMap.getElem?_erase]
    split
    · rename_i here
      rw [← LawfulEqCmp.eq_of_compare here, found]
    · rfl
  have tags := undo_tags state.tags name digestStr
  have referrers := undo_referrers state.referrers name digestStr
  dsimp only at tags referrers
  simp only [applyDelete, undoDelete, tidySubjects, manifests, tags, referrers]

private theorem valueAt_tidySubject (subject : Option String) (subjects : SubjectMap) (other : String) :
    valueAt (tidySubject subject subjects) other = valueAt subjects other := by
  cases subject with
  | none => rfl
  | some subject => exact valueAt_prune subjects subject other

end InMemoryState

namespace Mutation

/-- The state a mutation leaves when it cannot be persisted. -/
def undone : Mutation → InMemoryState → InMemoryState
  | .putManifestWithReferrer name _ _ _ _ referrer, state =>
    (state.tidySubjects name
      (InMemoryState.tidySubject (InMemoryState.subjectOf referrer))).pruneEmptyRepo name
  | .registerReferrer name subject _, state =>
    (state.tidySubjects name
      (InMemoryState.tidySubject (some subject.toString))).pruneEmptyRepo name
  | .deleteManifest name _, state => state.tidySubjects name sweep

/-- The state a mutation persists, if it has anything to persist. -/
def applied : Mutation → InMemoryState → Option InMemoryState
  | .putManifestWithReferrer name ref digest mediaType body referrer, state =>
    some (state.applyPut name ref digest mediaType body referrer).1
  | .registerReferrer name subject desc, state =>
    some { state with
      referrers := InMemoryState.pushReferrer state.referrers name subject.toString desc }
  | .deleteManifest _ (.tag _), _ => none
  | .deleteManifest name (.digest digest), state =>
    (valueAt state.manifests name)[digest.toString]?.map fun manifest =>
      (state.applyDelete name digest.toString manifest).1

/-- What a mutation answers when it has been persisted. -/
def answer : Mutation → Option Bool
  | .deleteManifest _ _ => some true
  | _ => none

/-- All that a mutation can do: nothing, the change it persists, or an undone change. -/
theorem run_eq {ω : Type} (persist : Persist ω) (mutation : Mutation) (state : InMemoryState) (world : ω) :
    mutation.run persist state world = match mutation.applied state with
      | none => (.ok (some false), state, world)
      | some applied =>
        match persist applied world with
        | (.ok (), after) => (.ok mutation.answer, applied, after)
        | (.error error, after) => (.error (.io error), mutation.undone state, after) := by
  cases mutation with
  | putManifestWithReferrer name ref digest mediaType body referrer =>
    have undo := undoPut_applyPut state name ref digest mediaType body referrer
    simp only [run, InMemoryState.putManifestWithReferrer, applied, undone, ← undo]
    rcases persist (state.applyPut name ref digest mediaType body referrer).1 world with
      ⟨_ | _, after⟩ <;> rfl
  | registerReferrer name subject desc =>
    simp only [run, InMemoryState.registerReferrer, applied]
    rcases persist { state with
      referrers := InMemoryState.pushReferrer state.referrers name subject.toString desc }
      world with ⟨_ | _, after⟩
    · simp only [InMemoryState.pruneEmptyRepo, popReferrer_pushReferrer]
      rfl
    · rfl
  | deleteManifest name ref =>
    -- Only the delete of a stored manifest by its digest has anything to persist.
    cases ref with
    | tag tag => rfl
    | digest digest =>
      simp only [run, InMemoryState.deleteManifest, applied]
      cases stored : state.manifests[name]? with
      | none =>
        simp only [valueAt, stored, Option.getD_none, ExtTreeMap.getElem?_empty, Option.map_none]
        rfl
      | some nameMap =>
        simp only [valueAt, stored, Option.getD_some]
        cases found : nameMap[digest.toString]? with
        | none => rfl
        | some manifest =>
          have undo := undoDelete_applyDelete stored found
          simp only [Option.map_some, undone, ← undo]
          rcases persist (state.applyDelete name digest.toString manifest).1 world with
            ⟨_ | _, after⟩ <;> rfl

private theorem run_failed {ω : Type} {persist : Persist ω} {mutation : Mutation} {state : InMemoryState}
    {world : ω} {error : BlobStoreError} (failed : (mutation.run persist state world).1 = .error error) :
    (mutation.run persist state world).2.1 = mutation.undone state := by
  rw [run_eq] at failed ⊢
  cases attempted : mutation.applied state with
  | none => simp [attempted] at failed
  | some applied =>
    simp only [attempted] at failed ⊢
    generalize persist applied world = outcome at failed ⊢
    rcases outcome with ⟨_ | _, after⟩
    · rfl
    · cases failed

/-- Undoing a mutation does not change what any repository holds. -/
theorem repository_undone (mutation : Mutation) (state : InMemoryState) (name : String) :
    (mutation.undone state).repository name = state.repository name := by
  cases mutation with
  | putManifestWithReferrer | registerReferrer =>
    rw [undone, repository_pruneEmptyRepo, repository_tidySubjects _ _ _ (valueAt_tidySubject _)]
  | deleteManifest => rw [undone, repository_tidySubjects _ _ _ valueAt_sweep]

/-- A mutation that fails changes no answer of the registry and no upload session. -/
theorem failed_unchanged {ω : Type} (persist : Persist ω) (mutation : Mutation)
    (state : InMemoryState) (world : ω) {error : BlobStoreError}
    (failed : (mutation.run persist state world).1 = .error error) :
    InMemoryState.Unchanged state (mutation.run persist state world).2.1 := by
  rw [run_failed failed]
  apply unchanged_of_repository
  · exact mutation.repository_undone state
  · cases mutation <;> rfl

/-- A disk that takes nothing more. -/
def fullDisk : Persist Unit := fun _ _ => (.error ⟨.other, "full"⟩, ())

/-- A manifest with a tag that is listed twice as a referrer of itself. -/
def referring : InMemoryState where
  manifests := {("a", {(emptySha.toString, "m", [])})}
  tags := {("a", {("t", emptySha.toString)})}
  referrers := {("a",
    {(emptySha.toString, [⟨"m", emptySha, 0, none, none⟩, ⟨"n", emptySha, 0, none, none⟩])})}

/-- Its delete is undone when the disk is full. -/
theorem failed_unchanged_referring : InMemoryState.Unchanged referring
      ((deleteManifest "a" (.digest emptySha)).run fullDisk referring ()).2.1 := by
  have failed : ((deleteManifest "a" (.digest emptySha)).run fullDisk referring ()).1 =
      .error (.io ⟨.other, "full"⟩) := by decide +kernel
  exact failed_unchanged fullDisk (deleteManifest "a" (.digest emptySha)) referring () failed

end Mutation

end FerroProtocols.Oci
