import FerroProtocols.Lib.Runs
import FerroProtocols.Oci.Integrity

/-! Pushing a manifest again. -/

namespace FerroProtocols.Oci

open BlobStore Std SparseMap InMemoryState

namespace ManifestServer

variable (server : ManifestServer)

/-- The subject a body declares, if it is a manifest with one that can be read. -/
def subject (body : Bytes) : Option Digest :=
  match server.fromSlice body with
  | .error _ => none
  | .ok parsed =>
    match (subjectText parsed).map Digest.parse with
    | some (.ok subject) => some subject
    | _ => none

private theorem map_fst_buildReferrer {body : Bytes} {parsed : Value}
    (decoded : server.fromSlice body = .ok parsed) (digest : Digest) (contentType : String) (bodyLen : Nat) :
    (buildReferrer parsed digest contentType bodyLen).map Prod.fst = server.subject body := by
  simp only [buildReferrer, subject, decoded]
  -- Both look at the subject in the same way.
  generalize (subjectText parsed).map Digest.parse = declared
  rcases declared with _ | _ | subject <;> rfl

section Checks

variable {contains : BlobView} {state after : InMemoryState} {name : String}

private theorem getManifest_digest (state : InMemoryState) (name : String) (digest : Digest) :
    state.getManifest name (.digest digest) =
      .ok ((valueAt state.manifests name)[digest.toString]?.map fun manifest =>
        (digest, manifest.1, manifest.2)) := by
  simp only [getManifest_eq, Repository.getManifest, Repository.resolve,
    InMemoryState.repository, Digest.parse_toString]
  cases (valueAt state.manifests name)[digest.toString]? <;> rfl

private theorem checkManifestPresent_mono {digestStr : String}
    (keeps : ∀ key : String, (valueAt state.manifests name)[key]?.isSome →
      (valueAt after.manifests name)[key]?.isSome)
    (passed : checkManifestPresent contains state name digestStr = .ok ()) :
    checkManifestPresent contains after name digestStr = .ok () := by
  unfold checkManifestPresent at passed ⊢
  cases parsed : Digest.parse digestStr with
  | error error =>
    rw [parsed] at passed
    cases passed
  | ok digest =>
    simp only [parsed, getManifest_digest] at passed ⊢
    cases later : (valueAt after.manifests name)[digest.toString]? with
    | some manifest => rfl
    | none =>
      -- Then it was not there before either, and it is present as a blob.
      cases before : (valueAt state.manifests name)[digest.toString]? with
      | none => simpa only [before] using passed
      | some manifest =>
        have kept := keeps digest.toString (by rw [before]; rfl)
        rw [later] at kept
        cases kept

private theorem checkEach_mono {check other : String → Except OciError Unit} {texts : List String}
    (follows : ∀ text, check text = .ok () → other text = .ok ())
    (passed : checkEach check texts = .ok ()) : checkEach other texts = .ok () := by
  -- The loop stops at the first text that fails, so the texts before it have passed.
  induction texts with
  | nil => rfl
  | cons text rest ih =>
    unfold checkEach at passed ⊢
    cases here : check text with
    | error error =>
      rw [here] at passed
      cases passed
    | ok _ =>
      rw [here] at passed
      rw [follows text here]
      exact ih passed

private theorem checkPut_mono {referenceStr : String} {contentType : Option String} {body : Bytes}
    {checked : CheckedPut} (keeps : ∀ key : String, (valueAt state.manifests name)[key]?.isSome →
      (valueAt after.manifests name)[key]?.isSome)
    (passed : server.checkPut contains state name referenceStr contentType body = .ok checked) :
    server.checkPut contains after name referenceStr contentType body = .ok checked := by
  obtain ⟨named, refers, declared, decoded, same, kind, known, verified⟩ := server.checkPut_ok passed
  -- Of all checks only the one of an index looks at the manifests.
  have again : verifyReferencedBlobs contains after name checked.parsed kind = .ok () := by
    cases kind with
    | imageManifest | artifact => exact verified
    | imageIndex => exact checkEach_mono (fun _ => checkManifestPresent_mono keeps) verified
  simp only [checkPut, named, refers, declared, known, decoded, again, same]

end Checks

section Again

variable {ω : Type} (persist : Persist ω) (contains : BlobView)

private theorem putManifest_eq (state : InMemoryState) (world : ω) (name referenceStr : String)
    (contentType : Option String) (body : Bytes) :
    server.putManifest persist contains state world name referenceStr contentType body =
      match server.checkPut contains state name referenceStr contentType body with
      | .error error => (.refused error, state, world)
      | .ok checked =>
        let digest := Digest.sha256Of server.sha body
        let applied := (state.applyPut name checked.reference digest checked.contentType body
          (buildReferrer checked.parsed digest checked.contentType body.length)).1
        match persist applied world with
        | (.ok (), later) => (.created (manifestCreatedHeaders name digest checked.parsed), applied, later)
        | (.error error, later) =>
          (.refused (mapMutationError (.io error)),
            (server.putMutation name body checked).undone state, later) := by
  -- What persisting reports decides between the state that was applied and the one restored.
  unfold putManifest
  cases server.checkPut contains state name referenceStr contentType body with
  | error error => rfl
  | ok checked =>
    dsimp only
    rw [Mutation.run_eq]
    simp only [putMutation, Mutation.applied]
    generalize persist _ world = result
    rcases result with ⟨_ | _, later⟩ <;> rfl

private theorem applyPut_again (state : InMemoryState) (name : String) (ref : Reference)
    (digest : Digest) (mediaType : String) (body : Bytes) (referrer : Option (Digest × ReferrerDescriptor)) :
    let once := (state.applyPut name ref digest mediaType body referrer).1
    let twice := (once.applyPut name ref digest mediaType body referrer).1
    twice.manifests = once.manifests ∧ twice.tags = once.tags ∧
      (twice.referrers = once.referrers ↔ referrer = none) := by
  have insertAgain {β : Type} (map : ExtTreeMap String β) (key : String) (value : β) :
      (map.insert key value).insert key value = map.insert key value := by
    apply ExtTreeMap.ext_getElem?
    intro other
    simp only [ExtTreeMap.getElem?_insert]
    split <;> rfl
  have manifests : ∀ map : ExtTreeMap String ManifestMap,
      update (update map name fun map => map.insert digest.toString (mediaType, body)) name
        (fun map => map.insert digest.toString (mediaType, body)) =
      update map name fun map => map.insert digest.toString (mediaType, body) :=
    fun map => update_update (insertAgain _ _ _)
  have tags : ∀ (map : ExtTreeMap String TagMap) (tag : String),
      update (update map name fun map => map.insert tag digest.toString) name
        (fun map => map.insert tag digest.toString) =
      update map name fun map => map.insert tag digest.toString :=
    fun map tag => update_update (insertAgain _ _ _)
  refine ⟨?_, ?_, ?_⟩
  · cases ref <;> cases referrer <;> simp only [InMemoryState.applyPut, manifests]
  · cases ref <;> cases referrer <;> simp only [InMemoryState.applyPut, tags]
  · cases referrer with
    | none => cases ref <;> simp [InMemoryState.applyPut]
    | some entry =>
      obtain ⟨subject, desc⟩ := entry
      -- The list of the subject grows by one descriptor each time.
      have grows : ∀ map : ExtTreeMap String SubjectMap,
          InMemoryState.pushReferrer map name subject.toString desc ≠ map := by
        intro map same
        have lists := congrArg (fun map => valueAt (valueAt map name) subject.toString) same
        simp only [valueAt_pushReferrer, and_self, if_true] at lists
        exact absurd (congrArg List.length lists) (by simp)
      cases ref <;> simpa [InMemoryState.applyPut] using grows _

private theorem isSome_applyPut {state : InMemoryState} {name : String} {ref : Reference}
    {digest : Digest} {mediaType : String} {body : Bytes}
    {referrer : Option (Digest × ReferrerDescriptor)} (key : String)
    (there : (valueAt state.manifests name)[key]?.isSome) :
    (valueAt (state.applyPut name ref digest mediaType body referrer).1.manifests name)[key]?.isSome := by
  -- A put inserts one manifest and leaves the others.
  have put := congrArg Repository.manifests
    (state.repository_applyPut name name ref digest mediaType body referrer)
  rw [if_pos rfl, Repository.manifests_put] at put
  change ((state.applyPut name ref digest mediaType body referrer).1.repository name).manifests[key]?.isSome
  rw [put, ExtTreeMap.getElem?_insert]
  split
  · rfl
  · exact there

variable {persist contains server}

private theorem push_again {state after : InMemoryState} {world later : ω} {name referenceStr : String}
    {contentType : Option String} {body : Bytes} {headers : List (String × String)}
    (pushed : server.putManifest persist contains state world name referenceStr contentType body =
      (.created headers, after, later)) (writes : ∀ next, (persist next later).1 = .ok ()) : ∃ again last,
      server.putManifest persist contains after later name referenceStr contentType body =
        (.created headers, again, last) ∧ again.manifests = after.manifests ∧ again.tags = after.tags ∧
      (again.referrers = after.referrers ↔ server.subject body = none) := by
  rw [putManifest_eq] at pushed
  cases passed : server.checkPut contains state name referenceStr contentType body with
  | error error =>
    rw [passed] at pushed
    cases pushed
  | ok checked =>
    simp only [passed] at pushed
    generalize written : persist _ world = result at pushed
    rcases result with ⟨_ | _, middle⟩
    · cases pushed
    · cases pushed
      -- The same checks pass again, so the same mutation is carried out.
      let digest := Digest.sha256Of server.sha body
      let referrer := buildReferrer checked.parsed digest checked.contentType body.length
      have again : server.checkPut contains (state.applyPut name checked.reference digest
          checked.contentType body referrer).1 name referenceStr contentType body = .ok checked :=
        server.checkPut_mono (fun key => isSome_applyPut key) passed
      have decoded := (server.checkPut_ok passed).2.2.2.1
      obtain ⟨manifests, tags, referrers⟩ := applyPut_again state name checked.reference digest
        checked.contentType body referrer
      rw [putManifest_eq, again]
      dsimp only
      generalize rewritten : persist _ later = result
      obtain ⟨outcome, last⟩ := result
      have ok : outcome = .ok () := by rw [← writes _, rewritten]
      subst ok
      refine ⟨_, last, rfl, manifests, tags, ?_⟩
      rw [referrers, ← server.map_fst_buildReferrer decoded, Option.map_eq_none_iff]

end Again

section Distinct

/-- Every manifest is under its digest, and no subject lists two descriptors of one digest. -/
structure Distinct (sha : Sha256) (state : InMemoryState) : Prop where
  addressed : state.Addressed sha
  nodup : ∀ name subject, (((state.repository name).referrers subject).map fun desc =>
    desc.digest).Nodup

private theorem lasting_distinct (sha : Sha256) : Registry.Lasting sha (Distinct sha) where
  blank := by
    refine ⟨(lasting_addressed sha).blank, ?_⟩
    intro name subject
    simp [InMemoryState.repository, valueAt]
  durable := fun distinct => ⟨distinct.addressed, distinct.nodup⟩
  -- The repositories of a restored state are those from before the mutation.
  undone := by
    intro state mutation distinct
    refine ⟨(lasting_addressed sha).undone mutation distinct.addressed, ?_⟩
    intro name
    rw [Mutation.repository_undone]
    exact distinct.nodup name
  addressed := fun distinct => distinct.addressed

/-- A push with a subject finds no descriptor of its manifest in the list of the subject. -/
def ListsOnce (reg : Registry) : ManifestStep → Prop
  | .serve (.put name _ _ body) _ _ =>
    ∀ subject, server.subject body = some subject →
      ∀ desc ∈ reg.state.listReferrers name subject none,
        desc.digest ≠ Digest.sha256Of server.sha body
  | .serve (.delete _ _) _ _ => True
  | .restart _ => True

variable {server}

section Listed

variable {repository : Repository}
  (nodup : ∀ other, ((repository.referrers other).map fun listed => listed.digest).Nodup)

include nodup

private theorem nodup_refer {subject : String} {desc : ReferrerDescriptor}
    (once : ∀ listed ∈ repository.referrers subject, listed.digest ≠ desc.digest) (other : String) :
    (((repository.refer subject desc).referrers other).map fun listed => listed.digest).Nodup := by
  simp only [Repository.refer]
  split
  · rw [List.map_append, List.nodup_append]
    refine ⟨nodup subject, by simp, ?_⟩
    intro digest before added last same
    obtain ⟨listed, member, rfl⟩ := List.mem_map.mp before
    rw [List.map_singleton, List.mem_singleton] at last
    exact once listed member (same.trans last)
  · exact nodup other

private theorem nodup_put {ref : Reference} {digestStr mediaType : String}
    {body : Bytes} {referrer : Option (Digest × ReferrerDescriptor)}
    (once : ∀ subject desc, referrer = some (subject, desc) →
      ∀ listed ∈ repository.referrers subject.toString, listed.digest ≠ desc.digest) (other : String) :
    (((repository.put ref digestStr mediaType body referrer).referrers other).map fun listed =>
      listed.digest).Nodup := by
  cases referrer with
  | none => exact nodup other
  | some entry =>
    obtain ⟨subject, desc⟩ := entry
    exact nodup_refer nodup (once subject desc rfl) other

end Listed

/-- A request that lists its manifest once persists distinct descriptors. -/
theorem Distinct.applied {reg : Registry} {req : ManifestRequest} {contains : BlobView}
    {faults : Faults} {mutation : Mutation} {after : InMemoryState} (distinct : Distinct server.sha reg.state)
    (once : server.ListsOnce reg (.serve req contains faults))
    (chosen : server.issued contains reg.state req = some mutation)
    (change : mutation.applied reg.state = some after) : Distinct server.sha after := by
  have issues := server.issues_of_issued chosen
  refine ⟨Mutation.addressed_applied distinct.addressed (addressed_of_issues issues) change, ?_⟩
  intro name subject
  rw [Mutation.repository_applied change]
  cases req with
  | put target referenceStr contentType body =>
    simp only [issued] at chosen
    split at chosen
    · cases chosen
    · rename_i checked passed
      cases chosen
      have decoded := (server.checkPut_ok passed).2.2.2.1
      simp only [Mutation.effect, putMutation]
      split
      · rename_i here
        subst here
        apply nodup_put (distinct.nodup target)
        intro declared desc built listed member
        -- The list of the subject is the one that the condition speaks of.
        have read := server.map_fst_buildReferrer decoded (Digest.sha256Of server.sha body)
          checked.contentType body.length
        rw [built] at read
        rw [(buildReferrer_some built).1]
        apply once declared read.symm
        rw [listReferrers_eq]
        exact member
      · exact distinct.nodup name subject
  | delete target referenceStr =>
    cases issues with
    | delete digest =>
      simp only [Mutation.effect]
      split
      · -- What a delete leaves of a list is in the order of the list.
        exact (List.filter_sublist.map _).nodup (distinct.nodup name subject)
      · exact distinct.nodup name subject

private theorem referrers_distinct {json : Json} {pid : Nat} {steps : List ManifestStep}
    (once : Runs.Along (server.step json) server.ListsOnce (Registry.fresh json server.sha pid) steps)
    (name : String) (subject : Digest) (artifactType : Option String) :
    (((server.run json (Registry.fresh json server.sha pid) steps).state.listReferrers name
      subject artifactType).map fun desc => desc.digest).Nodup := by
  have lasting := lasting_distinct server.sha
  -- Each step that lists a manifest finds it unlisted, in the state it is made in.
  have stored : (server.run json (Registry.fresh json server.sha pid) steps).Stored json
      (Distinct server.sha) := by
    apply once.invariant _ (Registry.stored_fresh lasting pid)
    intro reg step stored listed
    apply stored_step lasting stored
    intro req contains faults mutation after served chosen change
    rw [served] at listed
    exact stored.memory.applied listed chosen change
  have all := stored.memory.nodup name subject.toString
  rw [listReferrers_eq]
  -- A filter by type leaves a sublist.
  cases artifactType with
  | none => exact all
  | some wanted => exact (List.filter_sublist.map _).nodup all

end Distinct

/-- Pushing again changes nothing exactly when the manifest declares no subject that can be read;
and no list repeats a digest as long as each manifest is listed once. -/
theorem push_idempotent_iff (server : ManifestServer) :
    (∀ (ω : Type) (persist : Persist ω) (contains : BlobView) (state after : InMemoryState)
      (world later : ω) (name referenceStr : String) (contentType : Option String) (body : Bytes)
      (headers : List (String × String)),
      server.putManifest persist contains state world name referenceStr contentType body =
        (.created headers, after, later) → (∀ next, (persist next later).1 = .ok ()) → ∃ again last,
        server.putManifest persist contains after later name referenceStr contentType body =
          (.created headers, again, last) ∧ again.manifests = after.manifests ∧ again.tags = after.tags ∧
        (again.referrers = after.referrers ↔ server.subject body = none)) ∧
      ∀ (json : Json) (pid : Nat) (steps : List ManifestStep),
        Runs.Along (server.step json) server.ListsOnce (Registry.fresh json server.sha pid) steps →
        ∀ name subject artifactType,
          (((server.run json (Registry.fresh json server.sha pid) steps).state.listReferrers
            name subject artifactType).map fun desc => desc.digest).Nodup := by
  refine ⟨?_, ?_⟩
  · intro ω persist contains state after world later name referenceStr contentType body headers
      pushed writes
    exact push_again pushed writes
  · intro json pid steps once name subject artifactType
    exact referrers_distinct once name subject artifactType

/-- Nothing is written when the registry is kept in memory only. -/
def memory : Persist Unit := fun _ _ => (.ok (), ())

/-- One push of a manifest that refers to the blob without bytes, to an empty registry in memory. -/
def pushedOnce : ManifestAnswer × InMemoryState × Unit :=
  referring.putManifest memory (fun _ => .ok true) {} () "a" "t"
    (some "application/vnd.oci.image.manifest.v1+json") (manifestBytes 0)

/-- The same push once more. -/
def pushedTwice : ManifestAnswer × InMemoryState × Unit :=
  referring.putManifest memory (fun _ => .ok true) pushedOnce.2.1 () "a" "t"
    (some "application/vnd.oci.image.manifest.v1+json") (manifestBytes 0)

/-- A server that reads a manifest without any field. -/
def bare : ManifestServer where
  sha := ⟨fun bytes => bytesOf 32 <| if bytes = textBytes "\x7b\x7d" then
    0x44136fa355b3678a1146ad16f7e8649e94fb4fc21fe77e8310c060f61caaff8a else 0, fun _ => length_bytesOf 32 _⟩
  fromSlice bytes := if bytes = textBytes "\x7b\x7d" then .ok (.object [])
    else .error "expected value at line 1 column 1"

/-- Pushes of two manifests with one subject list each of them once, and a push without a subject can be repeated. -/
theorem push_idempotent_iff_single : (∀ name subject artifactType, (((referring.run Json.counting
      (Registry.fresh Json.counting manifestSha 1) [push "t" (manifestBytes 0) {}, push "u" (manifestBytes 1) {}]
        ).state.listReferrers name subject artifactType).map fun desc => desc.digest).Nodup) ∧
      let first := bare.putManifest memory (fun _ => .ok true) {} () "a" "t"
        (some "application/vnd.oci.image.manifest.v1+json") (textBytes "\x7b\x7d")
      ∃ headers again, first.1 = .created headers ∧
        bare.putManifest memory (fun _ => .ok true) first.2.1 () "a" "t"
          (some "application/vnd.oci.image.manifest.v1+json") (textBytes "\x7b\x7d") =
            (.created headers, again, ()) ∧
        again.referrers = first.2.1.referrers := by
  refine ⟨?_, ?_⟩
  · apply (push_idempotent_iff referring).2 Json.counting 1
    refine ⟨?_, ?_, trivial⟩
    · intro subject _ desc listed
      -- The registry starts without any referrers.
      rw [listReferrers_eq] at listed
      simp [Registry.fresh, Registry.start, InMemoryState.withPersistence,
        InMemoryState.loadSnapshot, Storage.readSnapshot, InMemoryState.repository, valueAt] at listed
    · intro subject read desc listed
      -- The list of the subject has the first manifest, whose digest is another one.
      obtain ⟨declared, digests, different⟩ : referring.subject (manifestBytes 1) = some emptySha ∧
          ((referring.step Json.counting (Registry.fresh Json.counting referring.sha 1)
            (push "t" (manifestBytes 0) {})).state.listReferrers "a" emptySha none).map
              (fun listed => listed.digest) =
              [Digest.sha256Of referring.sha (manifestBytes 0)] ∧
          Digest.sha256Of referring.sha (manifestBytes 0) ≠ Digest.sha256Of referring.sha (manifestBytes 1) := by
        decide +kernel
      cases declared.symm.trans read
      have member := List.mem_map_of_mem (f := fun listed : ReferrerDescriptor => listed.digest) listed
      rw [digests, List.mem_singleton] at member
      rw [member]
      exact different
  · intro first
    let headers := manifestCreatedHeaders "a" (Digest.sha256Of bare.sha (textBytes "\x7b\x7d")) (.object [])
    have created : first.1 = .created headers := by decide +kernel
    have pushed : first = (.created headers, first.2.1, ()) := Prod.ext created rfl
    obtain ⟨again, last, repeated, _, _, same⟩ :=
      (push_idempotent_iff bare).1 Unit memory (fun _ => .ok true) {} first.2.1 () () "a" "t"
        (some "application/vnd.oci.image.manifest.v1+json") _ headers pushed (fun _ => rfl)
    exact ⟨headers, again, created, repeated, same.mpr (by decide +kernel)⟩

/-- Pushing a manifest with a subject twice lists it twice. -/
theorem push_again_lists_twice : let digest := Digest.sha256Of manifestSha (manifestBytes 0)
    (∃ headers, pushedOnce.1 = .created headers ∧ pushedTwice.1 = .created headers) ∧
      (pushedOnce.2.1.listReferrers "a" emptySha none).map (fun listed => listed.digest) = [digest] ∧
      (pushedTwice.2.1.listReferrers "a" emptySha none).map (fun listed => listed.digest) =
        [digest, digest] := by
  intro digest
  let headers := manifestCreatedHeaders "a" digest manifestValue
  have evaluated : (pushedOnce.1 = .created headers ∧ pushedTwice.1 = .created headers) ∧
      (pushedOnce.2.1.listReferrers "a" emptySha none).map (fun listed => listed.digest) = [digest] ∧
      (pushedTwice.2.1.listReferrers "a" emptySha none).map (fun listed => listed.digest) =
        [digest, digest] := by decide +kernel
  exact ⟨⟨headers, evaluated.1⟩, evaluated.2⟩

end ManifestServer

end FerroProtocols.Oci
