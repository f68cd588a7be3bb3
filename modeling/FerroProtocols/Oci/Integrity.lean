import FerroProtocols.Oci.ManifestRuns

/-! No reference of the registry dangles, through every put, delete, failed write and restart. -/

namespace FerroProtocols.Oci

open BlobStore Std SparseMap Mutation

private theorem hash_of_sha256Of {sha : Sha256} {left right : Bytes}
    (same : (Digest.sha256Of sha left).toString = (Digest.sha256Of sha right).toString) :
    sha.hash left = sha.hash right := by
  -- The hex text of a digest can be decoded to the hash again.
  have hex := congrArg Digest.hex (Digest.toString_injective same)
  have decoded := congrArg (fun text => Hex.decode text.toList) hex
  simpa [Digest.sha256Of, Digest.ofHash, Hex.decode_encode] using decoded

namespace Repository

/-- Every tag stands for a manifest, and every descriptor describes one. -/
structure Sound (repository : Repository) : Prop where
  tags : ∀ tag target : String, repository.tags[tag]? = some target →
    ∃ manifest, repository.manifests[target]? = some manifest
  referrers : ∀ subject, ∀ desc ∈ repository.referrers subject,
    ∃ manifest, repository.manifests[desc.digest.toString]? = some manifest ∧
      desc.size = UInt64.ofNat manifest.2.length

variable {repository : Repository} {digestStr mediaType : String} {body : Bytes}

/-- A manifest that is put over another of the same length leaves every reference with its target. -/
theorem Sound.stored (sound : repository.Sound)
    (replaces : ∀ manifest, repository.manifests[digestStr]? = some manifest → manifest.2.length = body.length) :
    Sound { repository with manifests := repository.manifests.insert digestStr (mediaType, body) } where
  tags := by
    intro tag target pointed
    -- The target is the new manifest, or was there before.
    by_cases here : digestStr = target
    · exact ⟨(mediaType, body), by simp [here]⟩
    · obtain ⟨manifest, found⟩ := sound.tags tag target pointed
      exact ⟨manifest, by simpa [ExtTreeMap.getElem?_insert, here] using found⟩
  referrers := by
    intro subject desc listed
    obtain ⟨manifest, found, sized⟩ := sound.referrers subject desc listed
    by_cases here : digestStr = desc.digest.toString
    · refine ⟨(mediaType, body), by simp [here], ?_⟩
      rw [sized, replaces manifest (by rw [here]; exact found)]
    · exact ⟨manifest, by simpa [ExtTreeMap.getElem?_insert, here] using found, sized⟩

/-- A tag for a manifest that is there is sound. -/
theorem Sound.tagged (sound : repository.Sound) {manifest : String × Bytes}
    (there : repository.manifests[digestStr]? = some manifest) (tag : String) :
    Sound { repository with tags := repository.tags.insert tag digestStr } where
  tags := by
    intro other target pointed
    simp only [ExtTreeMap.getElem?_insert] at pointed
    split at pointed
    · cases pointed
      exact ⟨manifest, there⟩
    · exact sound.tags other target pointed
  referrers := sound.referrers

/-- A descriptor of a manifest that is there is sound. -/
theorem Sound.refer (sound : repository.Sound) {manifest : String × Bytes} {desc : ReferrerDescriptor}
    (there : repository.manifests[desc.digest.toString]? = some manifest)
    (sized : desc.size = UInt64.ofNat manifest.2.length) (subject : String) :
    (repository.refer subject desc).Sound where
  tags := sound.tags
  referrers := by
    intro other listed member
    simp only [Repository.refer] at member
    -- Only the list of the subject grows, by the descriptor of a manifest that is there.
    split at member
    · rcases List.mem_append.mp member with before | last
      · exact sound.referrers subject listed before
      · rw [List.mem_singleton.mp last]
        exact ⟨manifest, there, sized⟩
    · exact sound.referrers other listed member

/-- A put keeps a repository sound. -/
theorem Sound.put (sound : repository.Sound) {ref : Reference} {referrer : Option (Digest × ReferrerDescriptor)}
    (replaces : ∀ manifest, repository.manifests[digestStr]? = some manifest → manifest.2.length = body.length)
    (refers : ∀ subject desc, referrer = some (subject, desc) →
      desc.digest.toString = digestStr ∧ desc.size = UInt64.ofNat body.length) :
    (repository.put ref digestStr mediaType body referrer).Sound := by
  have stored : Sound { repository with
      manifests := repository.manifests.insert digestStr (mediaType, body) } := sound.stored replaces
  have there : (repository.manifests.insert digestStr (mediaType, body))[digestStr]? =
    some (mediaType, body) := by simp
  -- The manifest comes first, then its tag, then its descriptor.
  have tagged : (repository.put ref digestStr mediaType body none).Sound := by
    cases ref with
    | tag tag => exact stored.tagged there tag
    | digest _ => exact stored
  cases referrer with
  | none => exact tagged
  | some entry =>
    obtain ⟨subject, desc⟩ := entry
    obtain ⟨same, sized⟩ := refers subject desc rfl
    apply tagged.refer
    · rw [same]
      exact there
    · exact sized

/-- A removal takes every reference to the manifest along. -/
theorem Sound.remove (sound : repository.Sound) (digestStr : String) : (repository.remove digestStr).Sound where
  tags := by
    intro tag target pointed
    simp only [Repository.remove, ExtTreeMap.getElem?_filter', Option.filter_eq_some_iff,
      decide_eq_true_eq] at pointed
    -- A tag that is left points to another manifest.
    obtain ⟨manifest, found⟩ := sound.tags tag target pointed.1
    exact ⟨manifest, by simpa [Repository.remove, ExtTreeMap.getElem?_erase, Ne.symm pointed.2]
      using found⟩
  referrers := by
    intro subject desc listed
    simp only [Repository.remove, List.mem_filter, InMemoryState.describes, Bool.not_eq_true',
      decide_eq_false_iff_not] at listed
    -- So does a descriptor that is left.
    obtain ⟨manifest, found, sized⟩ := sound.referrers subject desc listed.1
    exact ⟨manifest, by simpa [Repository.remove, ExtTreeMap.getElem?_erase, Ne.symm listed.2]
      using found, sized⟩

end Repository

/-- The body that a request puts. -/
def ManifestRequest.body : ManifestRequest → Option Bytes
  | .put _ _ _ body => some body
  | .delete _ _ => none

/-- The body that a step puts. -/
def ManifestStep.body : ManifestStep → Option Bytes
  | .serve req _ _ => req.body
  | .restart _ => none

/-- The bodies of all manifests that the steps of a run put. -/
def ManifestStep.bodies (steps : List ManifestStep) : List Bytes := steps.filterMap ManifestStep.body

/-- No two of the bodies have the same hash. -/
def CollisionFree (sha : Sha256) (bodies : List Bytes) : Prop :=
  ∀ left ∈ bodies, ∀ right ∈ bodies, sha.hash left = sha.hash right → left = right

namespace InMemoryState

/-- Nothing dangles, and every manifest is one of those that were put, under its digest. -/
structure Integral (sha : Sha256) (bodies : List Bytes) (state : InMemoryState) : Prop where
  sound : ∀ name, (state.repository name).Sound
  sparse : state.SparseSubjects
  addressed : state.Addressed sha
  known : state.AllManifests fun _ manifest => manifest.2 ∈ bodies

/-- Undoing a mutation leaves no empty list behind. -/
theorem SparseSubjects.undone {state : InMemoryState} (sparse : state.SparseSubjects)
    (mutation : Mutation) : (mutation.undone state).SparseSubjects := by
  -- There is no empty subject to tidy, and pruning does not change what the map reads as.
  have pruned (name : String) : (state.pruneEmptyRepo name).SparseSubjects := by
    intro other
    rw [pruneEmptyRepo, valueAt_prune]
    exact sparse other
  cases mutation with
  | putManifestWithReferrer name | registerReferrer name =>
    rw [Mutation.undone, sparse.tidySubjects_eq name fun _ => tidySubject_eq _]
    exact pruned name
  | deleteManifest name ref =>
    rw [Mutation.undone, sparse.tidySubjects_eq name fun _ => Sparse.sweep_eq]
    exact sparse

private theorem lasting_integral (sha : Sha256) (bodies : List Bytes) :
    Registry.Lasting sha (Integral sha bodies) where
  blank := by
    have empty := Registry.fresh_consistent Json.counting sha 0
    refine ⟨?_, empty.sparse, empty.addressed, ?_⟩
    · intro name
      constructor
      · intro tag target pointed
        simp [repository, valueAt] at pointed
      · intro subject desc listed
        simp [repository, valueAt] at listed
    · intro name digestStr manifest found
      simp [valueAt] at found
  durable := fun integral => ⟨integral.sound, integral.sparse, integral.addressed, integral.known⟩
  undone := by
    intro state mutation integral
    refine ⟨?_, integral.sparse.undone mutation, ?_, ?_⟩
    · intro name
      rw [repository_undone]
      exact integral.sound name
    · exact allManifests_undone integral.addressed mutation
    · exact allManifests_undone integral.known mutation
  addressed := fun integral => integral.addressed

variable {sha : Sha256} {bodies : List Bytes} {state after : InMemoryState}

/-- A manifest that a put replaces has the same body. -/
theorem Integral.replaced (collisionFree : CollisionFree sha bodies)
    (integral : state.Integral sha bodies) {name : String} {body : Bytes} (known : body ∈ bodies)
    {manifest : String × Bytes} (found : (state.repository name).manifests[
      (Digest.sha256Of sha body).toString]? = some manifest) : manifest.2 = body := by
  -- It is stored under the digest of its own body, and the hashes of different bodies differ.
  have key := integral.addressed name _ manifest found
  have member := integral.known name _ manifest found
  exact collisionFree _ member _ known (hash_of_sha256Of key.symm)

variable (collisionFree : CollisionFree sha bodies) (integral : state.Integral sha bodies)
  {req : ManifestRequest} {mutation : Mutation} (issues : req.Issues sha mutation)
  (known : ∀ body ∈ req.body, body ∈ bodies) (change : mutation.applied state = some after)

include collisionFree integral issues known change

/-- What a request persists leaves no dangling tag or descriptor. -/
private theorem Integral.sound_applied (name : String) : (after.repository name).Sound := by
  have sound := integral.sound name
  rw [repository_applied change]
  cases issues with
  | @put target _ mediaType _ body ref referrer named tagged refers =>
    simp only [Mutation.effect]
    split
    · apply sound.put
      -- What is stored under the same digest already has the same bytes.
      · intro manifest found
        rw [integral.replaced collisionFree (known body rfl) found]
      · intro subject desc built
        obtain ⟨same, sized⟩ := refers subject desc built
        exact ⟨congrArg Digest.toString same, sized⟩
    · exact sound
  | delete digest =>
    simp only [Mutation.effect]
    split
    · exact sound.remove digest.toString
    · exact sound

/-- What a request persists keeps integrity. -/
theorem Integral.applied : after.Integral sha bodies where
  sound := integral.sound_applied collisionFree issues known change
  sparse := sparseSubjects_applied integral.sparse change
  addressed := addressed_applied integral.addressed
    (ManifestServer.addressed_of_issues issues) change
  known := by
    -- The one manifest that can be new comes from the body of the request.
    have own : mutation.Stores fun _ manifest => manifest.2 ∈ bodies := by
      cases issues with
      | put => exact known _ rfl
      | delete => trivial
    exact allManifests_applied integral.known own change

end InMemoryState

namespace ManifestServer

/-- After any steps from an empty directory, no tag and no descriptor dangles. -/
theorem no_dangling_references (server : ManifestServer) (json : Json) (pid : Nat) (steps : List ManifestStep)
    (collisionFree : CollisionFree server.sha (ManifestStep.bodies steps)) :
    let state := (server.run json (Registry.fresh json server.sha pid) steps).state
    (∀ name, (state.repository name).Sound) ∧
      ∀ (name subject : String) (subjects : SubjectMap), state.referrers[name]? = some subjects →
        subjects[subject]? ≠ some [] := by
  have integral : (server.run json (Registry.fresh json server.sha pid) steps).state.Integral
      server.sha (ManifestStep.bodies steps) := by
    apply lasting_run (InMemoryState.lasting_integral server.sha (ManifestStep.bodies steps))
    intro req contains faults member state mutation after integral chosen change
    apply integral.applied collisionFree (server.issues_of_issued chosen) _ change
    -- The body of the request is one of those of the run.
    intro body own
    exact List.mem_filterMap.mpr ⟨_, member, own⟩
  refine ⟨integral.sound, ?_⟩
  intro name subject subjects there empty
  have sparse := integral.sparse name
  rw [valueAt, there] at sparse
  exact sparse subject empty

/-- A manifest whose subject is the blob without bytes, with blanks behind it. -/
def manifestBytes (blanks : Nat) : Bytes :=
  textBytes ("\x7b\"schemaVersion\":2,\"subject\":\x7b\"digest\":\"" ++ emptySha.toString ++ "\"\x7d\x7d") ++
    List.replicate blanks 32

/-- SHA-256, with the digests of two of these manifests. -/
def manifestSha : Sha256 where
  hash bytes := bytesOf 32 <|
    if bytes = manifestBytes 0 then 0x4f53ddab50bd79671ffba94e1220a3236233b3438256cfc0bc7820a088d9abba
    else if bytes = manifestBytes 1 then 0x354dafd651f87b0566c8588d30b62298c7a2696f5071d8d4084109041943e0da
    else 0
  sized _ := length_bytesOf 32 _

/-- What the manifests say. -/
def manifestValue : Value :=
  .object [("schemaVersion", .number "2"), ("subject", .object [("digest", .string emptySha.toString)])]

/-- A server that reads these two manifests. -/
def referring : ManifestServer where
  sha := manifestSha
  fromSlice bytes := if bytes = manifestBytes 0 ∨ bytes = manifestBytes 1 then .ok manifestValue
    else .error "expected value at line 1 column 1"

/-- A manifest is pushed under a tag while the blob store holds everything. -/
def push (tag : String) (body : Bytes) (faults : Faults) : ManifestStep :=
  .serve (.put "a" tag (some "application/vnd.oci.image.manifest.v1+json") body) (fun _ => .ok true)
    faults

/-- Two manifests are pushed, one of them onto a disk that cannot be synced, before a restart. -/
theorem no_dangling_references_restarted :
    let state := (referring.run Json.counting (Registry.fresh Json.counting manifestSha 1)
      [push "t" (manifestBytes 0) {}, push "u" (manifestBytes 1) { sync := some ⟨.other, "full"⟩ },
        .restart 2]).state
    (∀ name, (state.repository name).Sound) ∧
      ∀ (name subject : String) (subjects : SubjectMap), state.referrers[name]? = some subjects →
        subjects[subject]? ≠ some [] := by
  apply no_dangling_references referring
  unfold CollisionFree
  decide +kernel

end ManifestServer

end FerroProtocols.Oci
