import FerroProtocols.Oci.Rollback

/-! What a mutation does to a repository, apart from how its entries are kept. -/

namespace FerroProtocols.Oci

open BlobStore Std SparseMap

namespace Repository

/-- A repository with one more referrer of a subject. -/
def refer (repository : Repository) (subject : String) (desc : ReferrerDescriptor) :
    Repository :=
  { repository with
    referrers := fun other =>
      if subject = other then repository.referrers subject ++ [desc]
      else repository.referrers other }

/-- A repository with a manifest, its tag and its referrer entry. -/
def put (repository : Repository) (ref : Reference) (digestStr mediaType : String)
    (body : Bytes) (referrer : Option (Digest × ReferrerDescriptor)) : Repository :=
  let stored := { repository with
    manifests := repository.manifests.insert digestStr (mediaType, body)
    tags :=
      match ref with
      | .tag tag => repository.tags.insert tag digestStr
      | .digest _ => repository.tags }
  match referrer with
  | some (subject, desc) => stored.refer subject.toString desc
  | none => stored

/-- A repository without a manifest, its tags and its descriptors. -/
def remove (repository : Repository) (digestStr : String) : Repository where
  manifests := repository.manifests.erase digestStr
  tags := repository.tags.filter fun _ target => decide (target ≠ digestStr)
  referrers := fun subject =>
    (repository.referrers subject).filter fun desc =>
      !InMemoryState.describes digestStr desc

/-- The manifests of a repository after a put. -/
@[simp] theorem manifests_put (repository : Repository) (ref : Reference)
    (digestStr mediaType : String) (body : Bytes) (referrer : Option (Digest × ReferrerDescriptor)) :
    (repository.put ref digestStr mediaType body referrer).manifests =
      repository.manifests.insert digestStr (mediaType, body) := by
  cases referrer <;> rfl

end Repository

namespace InMemoryState

/-- Appending a descriptor changes one list of one repository. -/
theorem valueAt_pushReferrer (referrers : ExtTreeMap String SubjectMap)
    (name subject other another : String) (desc : ReferrerDescriptor) :
    valueAt (valueAt (pushReferrer referrers name subject desc) other) another =
      if name = other ∧ subject = another then
        valueAt (valueAt referrers name) subject ++ [desc]
      else valueAt (valueAt referrers other) another := by
  rw [pushReferrer, valueAt_update]
  by_cases here : name = other
  · rw [if_pos here, valueAt_update]
    simp [here]
  · simp [here]

private theorem repository_register (state : InMemoryState) (name subject other : String)
    (desc : ReferrerDescriptor) :
    ({ state with referrers := pushReferrer state.referrers name subject desc } :
        InMemoryState).repository other = if name = other then (state.repository name).refer subject desc
      else state.repository other := by
  simp only [repository, valueAt_pushReferrer]
  by_cases here : name = other
  · subst here
    simp [Repository.refer]
  · simp [here]

/-- A put stores a manifest, its tag and its referrer entry. -/
theorem repository_applyPut (state : InMemoryState) (name other : String) (ref : Reference)
    (digest : Digest) (mediaType : String) (body : Bytes) (referrer : Option (Digest × ReferrerDescriptor)) :
    (state.applyPut name ref digest mediaType body referrer).1.repository other = if name = other then
        (state.repository name).put ref digest.toString mediaType body referrer
      else state.repository other := by
  by_cases here : name = other
  · subst here
    cases ref <;> cases referrer <;>
      simp [applyPut, repository, Repository.put, Repository.refer, valueAt_update, valueAt_pushReferrer]
  · cases ref <;> cases referrer <;>
      simp [applyPut, repository, valueAt_update, valueAt_pushReferrer, here]

private theorem pruneList_fst (digestStr : String) (list : List ReferrerDescriptor) :
    (pruneList digestStr list).1 = list.filter fun desc => !describes digestStr desc := by
  simp [pruneList, Splice.takeOut_fst]

private theorem repository_applyDelete (state : InMemoryState) (name digestStr other : String)
    (manifest : String × Bytes) : (state.applyDelete name digestStr manifest).1.repository other =
      if name = other then (state.repository name).remove digestStr else state.repository other := by
  have subjects : sweep ((∅ : SubjectMap).map fun _ list => (pruneList digestStr list).1) = ∅ := by
    apply (sparse_sweep _).ext sparse_empty
    intro subject
    rw [valueAt_sweep]
    simp [valueAt]
  have targets : ((∅ : TagMap).filter fun _ target => decide (target ≠ digestStr)) = ∅ := by rfl
  -- Each of the three maps is modified under the name only.
  have manifests : valueAt (state.manifests.modify name fun map => map.erase digestStr) other =
      if name = other then (valueAt state.manifests name).erase digestStr
      else valueAt state.manifests other := valueAt_modify _ _ _ (by simp)
  have tags : valueAt (state.tags.modify name fun map =>
      map.filter fun _ target => decide (target ≠ digestStr)) other =
      if name = other then (valueAt state.tags name).filter fun _ target => decide (target ≠ digestStr)
      else valueAt state.tags other := valueAt_modify _ _ _ targets
  have referrers : valueAt (state.referrers.modify name fun subjects =>
      sweep (subjects.map fun _ list => (pruneList digestStr list).1)) other =
      if name = other then
        sweep ((valueAt state.referrers name).map fun _ list => (pruneList digestStr list).1)
      else valueAt state.referrers other := valueAt_modify _ _ _ subjects
  simp only [applyDelete, repository]
  rw [manifests, tags, referrers]
  by_cases here : name = other
  · subst here
    have lists (subject : String) : valueAt ((valueAt state.referrers name).map fun _ list =>
        (pruneList digestStr list).1) subject =
        (pruneList digestStr (valueAt (valueAt state.referrers name) subject)).1 :=
      valueAt_map _ _ rfl
    simp only [if_true, valueAt_sweep, lists]
    simp only [pruneList_fst, Repository.remove]
  · simp [here]

end InMemoryState

namespace Mutation

/-- What a mutation that is carried out makes of a repository. -/
def effect (mutation : Mutation) (other : String) (repository : Repository) : Repository :=
  match mutation with
  | .putManifestWithReferrer name ref digest mediaType body referrer =>
    if name = other then repository.put ref digest.toString mediaType body referrer
    else repository
  | .registerReferrer name subject desc =>
    if name = other then repository.refer subject.toString desc else repository
  | .deleteManifest _ (.tag _) => repository
  | .deleteManifest name (.digest digest) =>
    if name = other then repository.remove digest.toString else repository

/-- What a mutation persists has its effect on every repository. -/
theorem repository_applied {mutation : Mutation} {state after : InMemoryState}
    (persisted : mutation.applied state = some after) (other : String) :
    after.repository other = mutation.effect other (state.repository other) := by
  -- Each mutation acts on one repository and leaves the others alone.
  cases mutation with
  | putManifestWithReferrer name ref digest mediaType body referrer =>
    cases persisted
    rw [InMemoryState.repository_applyPut, effect]
    split
    · rename_i here
      rw [here]
    · rfl
  | registerReferrer name subject desc =>
    cases persisted
    rw [InMemoryState.repository_register, effect]
    split
    · rename_i here
      rw [here]
    · rfl
  | deleteManifest name ref =>
    cases ref with
    | tag tag => cases persisted
    | digest digest =>
      obtain ⟨manifest, _, rfl⟩ := Option.map_eq_some_iff.mp persisted
      rw [InMemoryState.repository_applyDelete, effect]
      split
      · rename_i here
        rw [here]
      · rfl

end Mutation

section Deletes

namespace InMemoryState

/-- A state is another one without a manifest and what hangs on it. -/
structure Without (before after : InMemoryState) (name : String) (digest : Digest) : Prop where
  manifests : ∀ digestStr : String, (valueAt after.manifests name)[digestStr]? =
    if digestStr = digest.toString then none else (valueAt before.manifests name)[digestStr]?
  tags : ∀ tag target : String, (valueAt after.tags name)[tag]? = some target ↔
    target ≠ digest.toString ∧ (valueAt before.tags name)[tag]? = some target
  -- The descriptors that stay keep their order.
  referrers : ∀ subject : String, valueAt (valueAt after.referrers name) subject =
    (valueAt (valueAt before.referrers name) subject).filter fun desc =>
      decide (desc.digest ≠ digest)
  others : ∀ other : String, other ≠ name → after.manifests[other]? = before.manifests[other]? ∧
    after.tags[other]? = before.tags[other]? ∧ after.referrers[other]? = before.referrers[other]?
  uploads : after.uploads = before.uploads

private theorem describes_toString (digest : Digest) (desc : ReferrerDescriptor) :
    describes digest.toString desc = decide (desc.digest = digest) := by
  rw [describes, decide_eq_decide]
  exact ⟨fun same => Digest.toString_injective same, congrArg Digest.toString⟩

private theorem getElem?_modify_of_ne {β : Type} (map : ExtTreeMap String β) {name other : String}
    (change : β → β) (different : other ≠ name) : (map.modify name change)[other]? = map[other]? := by
  rw [ExtTreeMap.getElem?_modify, if_neg]
  intro same
  exact different (LawfulEqCmp.eq_of_compare same).symm

private theorem without_applyDelete (state : InMemoryState) (name : String) (digest : Digest)
    (manifest : String × Bytes) : Without state (state.applyDelete name digest.toString manifest).1 name digest := by
  have here := repository_applyDelete state name digest.toString name manifest
  rw [if_pos rfl] at here
  generalize left : (state.applyDelete name digest.toString manifest).1 = after at here
  refine ⟨?_, ?_, ?_, ?_, ?_⟩
  · intro digestStr
    have manifests : valueAt after.manifests name =
        (valueAt state.manifests name).erase digest.toString := congrArg Repository.manifests here
    rw [manifests, ExtTreeMap.getElem?_erase]
    simp [@eq_comm _ digest.toString digestStr]
  · intro tag target
    have tags : valueAt after.tags name =
        (valueAt state.tags name).filter fun _ target => decide (target ≠ digest.toString) :=
      congrArg Repository.tags here
    rw [tags, ExtTreeMap.getElem?_filter']
    simp only [Option.filter_eq_some_iff, decide_eq_true_eq]
    exact and_comm
  · intro subject
    have referrers : valueAt (valueAt after.referrers name) subject =
        (valueAt (valueAt state.referrers name) subject).filter fun desc =>
          !describes digest.toString desc := congrFun (congrArg Repository.referrers here) subject
    rw [referrers]
    simp [describes_toString]
  · intro other different
    rw [← left]
    exact ⟨getElem?_modify_of_ne _ _ different, getElem?_modify_of_ne _ _ different,
      getElem?_modify_of_ne _ _ different⟩
  · rw [← left]
    rfl

/-- A delete that succeeds removes exactly a stored manifest and what hangs on it, and one that
finds nothing to delete changes nothing. -/
theorem deleteManifest_exact {ω : Type} (persist : Persist ω) (state : InMemoryState) (world : ω)
    (name : String) (ref : Reference) : ((state.deleteManifest persist world name ref).1 = .ok true →
      ∃ digest manifest, ref = .digest digest ∧ (valueAt state.manifests name)[digest.toString]? = some manifest ∧
        Without state (state.deleteManifest persist world name ref).2.1 name digest) ∧
    ((state.deleteManifest persist world name ref).1 = .ok false → (∀ digest, ref = .digest digest →
        (valueAt state.manifests name)[digest.toString]? = none) ∧
      (state.deleteManifest persist world name ref).2 = (state, world)) := by
  cases ref with
  | tag tag =>
    refine ⟨fun deleted => ?_, fun _ => ⟨fun digest same => ?_, rfl⟩⟩
    · cases deleted
    · cases same
  | digest digest =>
    simp only [deleteManifest]
    cases stored : state.manifests[name]? with
    | none =>
      refine ⟨fun deleted => ?_, fun _ => ⟨fun other same => ?_, rfl⟩⟩
      · cases deleted
      · cases same
        simp [valueAt, stored]
    | some nameMap =>
      have map : valueAt state.manifests name = nameMap := by simp [valueAt, stored]
      dsimp only
      rw [map]
      cases found : nameMap[digest.toString]? with
      | none =>
        refine ⟨fun deleted => ?_, fun _ => ⟨fun other same => ?_, rfl⟩⟩
        · cases deleted
        · grind
      | some manifest =>
        -- Whether the change stays is decided by how persisting it ends.
        dsimp only
        generalize persist (state.applyDelete name digest.toString manifest).1 world = outcome
        obtain ⟨result, after⟩ := outcome
        cases result with
        | error error =>
          constructor
          · intro deleted
            cases deleted
          · intro kept
            cases kept
        | ok _ =>
          refine ⟨fun _ => ⟨digest, manifest, rfl, found, ?_⟩, ?_⟩
          · exact without_applyDelete state name digest manifest
          · intro kept
            cases kept

/-- A manifest that is its own referrer is deleted from its repository; another repository has nothing to delete. -/
theorem deleteManifest_exact_referring : Without Mutation.referring (Mutation.referring.deleteManifest
        (fun _ world => (.ok (), world)) () "a" (.digest emptySha)).2.1 "a" emptySha ∧
      (Mutation.referring.deleteManifest (fun _ world => (.ok (), world)) () "b" (.digest emptySha)).2 =
        (Mutation.referring, ()) := by
  have evaluated : (Mutation.referring.deleteManifest
        (fun _ world => (.ok (), world)) () "a" (.digest emptySha)).1 = .ok true ∧
      (Mutation.referring.deleteManifest (fun _ world => (.ok (), world)) () "b" (.digest emptySha)).1 =
        .ok false := by
    decide +kernel
  obtain ⟨digest, _, named, _, without⟩ := (deleteManifest_exact _ _ _ _ _).1 evaluated.1
  cases named
  exact ⟨without, ((deleteManifest_exact _ _ _ _ _).2 evaluated.2).2⟩

end InMemoryState

end Deletes

section Manifests

variable {holds : String → String × Bytes → Prop}

/-- Every manifest of every repository has a property together with the text it is stored under. -/
def InMemoryState.AllManifests (holds : String → String × Bytes → Prop) (state : InMemoryState) :
    Prop :=
  ∀ name digestStr manifest, (valueAt state.manifests name)[digestStr]? = some manifest →
    holds digestStr manifest

/-- The manifest that a mutation stores has a property. -/
def Mutation.Stores (holds : String → String × Bytes → Prop) : Mutation → Prop
  | .putManifestWithReferrer _ _ digest mediaType body _ => holds digest.toString (mediaType, body)
  | .registerReferrer _ _ _ => True
  | .deleteManifest _ _ => True

private theorem Mutation.manifest_effect {mutation : Mutation} {repository : Repository}
    {name digestStr : String} {manifest : String × Bytes} (own : mutation.Stores holds)
    (found : (mutation.effect name repository).manifests[digestStr]? = some manifest) :
    repository.manifests[digestStr]? = some manifest ∨ holds digestStr manifest := by
  -- Only a put adds a manifest, and only a delete takes one away.
  cases mutation with
  | putManifestWithReferrer target ref digest mediaType body referrer =>
    simp only [effect] at found
    split at found
    · rw [Repository.manifests_put, ExtTreeMap.getElem?_insert] at found
      split at found
      · rename_i here
        cases found
        rw [← LawfulEqCmp.eq_of_compare here]
        exact .inr own
      · exact .inl found
    · exact .inl found
  | registerReferrer target subject desc =>
    simp only [effect] at found
    split at found <;> exact .inl found
  | deleteManifest target ref =>
    cases ref with
    | tag tag => exact .inl found
    | digest digest =>
      simp only [effect] at found
      split at found
      · exact .inl (SparseMap.getElem?_of_erase found)
      · exact .inl found

/-- What a mutation persists has the property if what it stores has it. -/
theorem Mutation.allManifests_applied {mutation : Mutation} {state after : InMemoryState}
    (all : state.AllManifests holds) (own : mutation.Stores holds)
    (persisted : mutation.applied state = some after) : after.AllManifests holds := by
  intro name digestStr manifest found
  have there : (after.repository name).manifests[digestStr]? = some manifest := found
  rw [repository_applied persisted] at there
  rcases manifest_effect own there with before | stored
  · exact all name digestStr manifest before
  · exact stored

/-- A mutation that is undone leaves the manifests as they were. -/
theorem Mutation.allManifests_undone {state : InMemoryState} (all : state.AllManifests holds)
    (mutation : Mutation) : (mutation.undone state).AllManifests holds := by
  intro name digestStr manifest found
  have there : ((mutation.undone state).repository name).manifests[digestStr]? = some manifest := found
  rw [repository_undone] at there
  exact all name digestStr manifest there

end Manifests

end FerroProtocols.Oci
