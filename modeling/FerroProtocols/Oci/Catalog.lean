import FerroProtocols.Lib.Paging
import FerroProtocols.Lib.Runs
import FerroProtocols.Oci.Repositories

/-! Which repositories the catalog lists. -/

namespace FerroProtocols.Oci

open BlobStore Std SparseMap

/-- A mutation, and the error its write ends with, if it fails. -/
structure Attempt where
  mutation : Mutation
  fault : Option IoError

namespace InMemoryState

/-- A write that ends as given. -/
def writing (fault : Option IoError) : Persist Unit := fun _ _ =>
  match fault with
  | none => (.ok (), ())
  | some error => (.error error, ())

/-- Carry out a mutation, whatever becomes of it. -/
def attempt (state : InMemoryState) (step : Attempt) : InMemoryState :=
  (step.mutation.run (writing step.fault) state ()).2.1

/-- A repository holds a manifest. -/
def HoldsManifest (state : InMemoryState) (name : String) : Prop :=
  ∃ (digestStr : String) (manifest : String × Bytes),
    (state.repository name).manifests[digestStr]? = some manifest

/-- A delete that goes through leaves another manifest in its repository. -/
def LeavesOne (state : InMemoryState) (step : Attempt) : Prop :=
  ∀ name digest, step.mutation = .deleteManifest name (.digest digest) → step.fault = none →
    ∀ manifest, (state.repository name).manifests[digest.toString]? = some manifest →
      ∃ (other : String) (left : String × Bytes), other ≠ digest.toString ∧
        (state.repository name).manifests[other]? = some left

private theorem attempt_eq (state : InMemoryState) (step : Attempt) : state.attempt step =
      match step.mutation.applied state, step.fault with
      | none, _ => state
      | some applied, none => applied
      | some _, some _ => step.mutation.undone state := by
  unfold attempt
  rw [Mutation.run_eq]
  cases step.mutation.applied state with
  | none => rfl
  | some applied => cases step.fault <;> rfl

private theorem pairwise_listRepositories (state : InMemoryState) :
    (state.listRepositories none none).Pairwise (· < ·) :=
  Paging.pairwise_sorted (nodup_keys state.manifests)

variable {state : InMemoryState}

private theorem mem_listRepositories (sparse : Sparse state.manifests)
    (name : String) : name ∈ state.listRepositories none none ↔ state.HoldsManifest name := by
  have listed : name ∈ state.listRepositories none none ↔ name ∈ state.manifests.keys := Paging.mem_sorted
  rw [listed, ExtTreeMap.mem_keys, ExtTreeMap.mem_iff_isSome_getElem?, HoldsManifest, exists_getElem?_iff]
  simp only [repository, valueAt]
  cases stored : state.manifests[name]? with
  | none => simp
  | some nameMap =>
    have filled : nameMap ≠ ∅ := fun empty => sparse name (by rw [stored, empty])
    simpa using filled

private theorem manifests_undone (sparse : Sparse state.manifests)
    (mutation : Mutation) : (mutation.undone state).manifests = state.manifests := by
  cases mutation with
  | putManifestWithReferrer name | registerReferrer name => exact prune_eq_self (sparse name)
  | deleteManifest name ref => rfl

private theorem sparse_applied {after : InMemoryState} (sparse : Sparse state.manifests)
    {mutation : Mutation} (leaves : state.LeavesOne ⟨mutation, none⟩)
    (change : mutation.applied state = some after) : Sparse after.manifests := by
  cases mutation with
  | putManifestWithReferrer name ref digest mediaType body referrer =>
    cases change
    have filled : (valueAt state.manifests name).insert digest.toString (mediaType, body) ≠ ∅ :=
      exists_getElem?_iff.mp ⟨digest.toString, (mediaType, body), by simp⟩
    cases ref <;> cases referrer <;> exact sparse.update name filled
  | registerReferrer name subject desc =>
    cases change
    exact sparse
  | deleteManifest name ref =>
    cases ref with
    | tag tag => cases change
    | digest digest =>
      obtain ⟨manifest, found, rfl⟩ := Option.map_eq_some_iff.mp change
      obtain ⟨other, left, different, kept⟩ := leaves name digest rfl rfl manifest found
      intro key stored
      simp only [applyDelete, ExtTreeMap.getElem?_modify] at stored
      split at stored
      · -- The other manifest is still there.
        obtain ⟨nameMap, there, empty⟩ := Option.map_eq_some_iff.mp stored
        have survives : (nameMap.erase digest.toString)[other]? = some left := by
          have held : nameMap[other]? = some left := by simpa [repository, valueAt, there] using kept
          simpa [ExtTreeMap.getElem?_erase, Ne.symm different] using held
        rw [empty] at survives
        simp at survives
      · exact sparse key stored

private theorem sparse_attempt (sparse : Sparse state.manifests) {step : Attempt}
    (leaves : state.LeavesOne step) : Sparse (state.attempt step).manifests := by
  obtain ⟨mutation, fault⟩ := step
  rw [attempt_eq]
  -- A failed attempt prunes what it has emptied; a persisted one must leave a manifest.
  cases change : mutation.applied state with
  | none => exact sparse
  | some applied =>
    cases fault with
    | none => exact sparse_applied sparse leaves change
    | some error =>
      dsimp only
      rw [manifests_undone sparse]
      exact sparse

/-- As long as no delete takes the last manifest of a repository, the catalog lists exactly the
repositories that hold a manifest, and a mutation that fails does not change it. -/
theorem catalog_exact (steps : List Attempt) (leaves : Runs.Along attempt LeavesOne {} steps) :
    let state := steps.foldl attempt {}
    (state.listRepositories none none).Pairwise (· < ·) ∧
      (∀ name, name ∈ state.listRepositories none none ↔ state.HoldsManifest name) ∧
      ∀ mutation error, (state.attempt ⟨mutation, some error⟩).listRepositories none none =
        state.listRepositories none none := by
  intro state
  -- The catalog lists the keys of the map, so it is exact as long as no key has an empty map.
  have sparse : Sparse state.manifests :=
    leaves.invariant (motive := fun state => Sparse state.manifests)
      (fun _ _ before meets => sparse_attempt before meets) sparse_empty
  refine ⟨state.pairwise_listRepositories, mem_listRepositories sparse, ?_⟩
  intro mutation error
  have same : (state.attempt ⟨mutation, some error⟩).manifests = state.manifests := by
    rw [attempt_eq]
    cases mutation.applied state with
    | none => rfl
    | some applied => exact manifests_undone sparse mutation
  simp only [listRepositories, same]

/-- Put the same manifest under its digest. -/
def putEmpty (name : String) : Mutation :=
  .putManifestWithReferrer name (.digest emptySha) emptySha "m" [] none

/-- A put that fails, and a delete after which the repository has a manifest left, leave the catalog with one
repository. -/
theorem catalog_exact_put : let steps : List Attempt := [⟨putEmpty "b", none⟩, ⟨putEmpty "a", some ⟨.other, "full"⟩⟩,
      ⟨.putManifestWithReferrer "b" (.digest sevenSha) sevenSha "m" [7] none, none⟩,
      ⟨.deleteManifest "b" (.digest emptySha), none⟩]
    let state := steps.foldl attempt {}
    (state.listRepositories none none).Pairwise (· < ·) ∧
      (∀ name, name ∈ state.listRepositories none none ↔ state.HoldsManifest name) ∧
      ∀ mutation error, (state.attempt ⟨mutation, some error⟩).listRepositories none none =
        state.listRepositories none none := by
  apply catalog_exact
  refine ⟨?_, ?_, ?_, ?_, trivial⟩
  · intro name digest deletes
    cases deletes
  · intro name digest deletes
    cases deletes
  · intro name digest deletes
    cases deletes
  · intro name digest deletes
    cases deletes
    exact fun _ _ _ => ⟨sevenSha.toString, ("m", [7]), by decide +kernel, by decide +kernel⟩

/-- A repository stays listed when its only manifest is deleted, until a put to it fails. -/
theorem catalog_lists_emptied :
    let steps : List Attempt := [⟨putEmpty "a", none⟩, ⟨.deleteManifest "a" (.digest emptySha), none⟩]
    let state := steps.foldl attempt {}
    state.listRepositories none none = ["a"] ∧ ¬ state.HoldsManifest "a" ∧
      (state.attempt ⟨putEmpty "a", some ⟨.other, "full"⟩⟩).listRepositories none none = [] := by
  intro steps state
  obtain ⟨listed, empty, pruned⟩ : state.listRepositories none none = ["a"] ∧
      (state.repository "a").manifests.isEmpty = true ∧
      (state.attempt ⟨putEmpty "a", some ⟨.other, "full"⟩⟩).listRepositories none none = [] := by
    decide +kernel
  refine ⟨listed, ?_, pruned⟩
  intro holds
  exact exists_getElem?_iff.mp holds (ExtTreeMap.isEmpty_iff.mp empty)

end InMemoryState

end FerroProtocols.Oci
