import Mathlib.Data.Fintype.Basic
import FerroProtocols.Maven.VersionIndex

/-! Uploads of one artifact at the same time. -/

namespace FerroProtocols.Maven

open BlobStore Std Texts Interleaving MavenServer

namespace MavenPoint

/-- The entry of the artifact is there. -/
def Entered : MavenPoint → Prop
  | .scanning | .indexing _ | .answered (.responded _) => True
  | _ => False

/-- The versions for an index that is still to be written. -/
def scanned : MavenPoint → Option (List String)
  | .indexing versions => some versions
  | _ => none

/-- The upload has succeeded. -/
def Stored : MavenPoint → Prop
  | .answered (.responded _) => True
  | _ => False

/-- Whether an upload has succeeded is seen from the point. -/
instance instDecidableStored : DecidablePred Stored
  | .answered (.responded _) => isTrue trivial
  | .answered (.refused _) | .ready | .counting | .registering _ | .announcing _ _ | .inserting |
    .linking | .scanning
  | .indexing _ | .verifying _ | .keeping | .deleting _ | .fetching _ | .lookingUp | .computing _ => isFalse id

/-- An upload that has succeeded has entered its artifact. -/
theorem Stored.entered {point : MavenPoint} (stored : point.Stored) : point.Entered := by
  cases point with
  | answered answer =>
    cases answer with
    | responded => trivial
    | refused => exact stored
  | _ => exact stored.elim

private theorem entered_of_scanned {point : MavenPoint} {versions : List String}
    (scan : point.scanned = some versions) :
    point.Entered := by
  cases point with
  | indexing => trivial
  | _ => cases scan

end MavenPoint

variable {ι : Type}

/-- All requests upload the same artifact to the same repository, to the paths of their coordinates. -/
structure Deploys (reqs : ι → MavenRequest) (coordinates : ι → Coordinate) (repo groupId artifactId : String) :
    Prop where
  uploads : ∀ thread, ∃ body,
    (reqs thread).Uploads repo (coordinates thread).repositoryPath (coordinates thread) body
  groups : ∀ thread, (coordinates thread).groupId = groupId
  artifacts : ∀ thread, (coordinates thread).artifactId = artifactId

/-- An upload writes its index only if all that are still to be written list at least what it lists. -/
def InOrder (system : State ι (MavenState ι) MavenPoint) (event : ι × MavenEvent) : Prop :=
  ∀ mine ∈ (system.points event.1).scanned, ∀ thread, thread ≠ event.1 →
    ∀ theirs ∈ (system.points thread).scanned, mine ⊆ theirs

/-- Whether an index is written in order is seen from the points of all requests. -/
instance InOrder.instDecidable [Fintype ι] [DecidableEq ι] (system : State ι (MavenState ι) MavenPoint)
    (event : ι × MavenEvent) : Decidable (InOrder system event) :=
  inferInstanceAs (Decidable (∀ mine ∈ (system.points event.1).scanned, ∀ thread, thread ≠ event.1 →
    ∀ theirs ∈ (system.points thread).scanned, mine ⊆ theirs))

/-- What a turn of an upload does to the entry and the index of its artifact. -/
inductive Advances (repo : String) (coord : Coordinate) (state : MavenState ι) (point : MavenPoint) :
    MavenState ι × MavenPoint → Prop
  | quiet (after : MavenState ι) (next : MavenPoint) (layout : ∀ key ∈ state.layout, key ∈ after.layout)
    (index : ∀ key : MetadataKey, key.base = none → after.metadata[key]? = state.metadata[key]?)
    (before : next = point ∨ ¬ next.Entered) : Advances repo coord state point (after, next)
  | enters (digest : Digest) (inserting : point = .inserting) :
    Advances repo coord state point
      (state.enter (buildKey repo coord.repositoryPath) digest, .scanning)
  | scans (scanning : point = .scanning) :
    Advances repo coord state point
      (state, .indexing (versionsOf (coord.entryStart repo) state.layout))
  | writes (versions : List String) (now : DateTime) (response : Response) (indexing : point = .indexing versions) :
    Advances repo coord state point
      (state.cache (coord.indexKey repo)
        (.artifactIndex coord.groupId coord.artifactId versions now), .answered (.responded response))

private theorem MavenState.mem_enter {state : MavenState ι} {key other : String} {digest : Digest}
    (member : other ∈ state.layout) : other ∈ (state.enter key digest).layout := by
  rw [MavenState.enter, ExtTreeMap.mem_insert]
  exact .inr member

/-- Every move of an upload does one of these things. -/
theorem UploadMoves.advances {server : MavenServer} {repo : String} {coord : Coordinate} {body : Bytes}
    {event : MavenEvent} {state : MavenState ι} {point : MavenPoint} {result : MavenState ι × MavenPoint}
    (move : UploadMoves server repo coord.repositoryPath coord body event state point result) :
    Advances repo coord state point result := by
  cases move with
  | stays => exact .quiet _ _ (fun _ => id) (fun _ _ => rfl) (.inl rfl)
  | refuses | counts => exact .quiet _ _ (fun _ => id) (fun _ _ => rfl) (.inr id)
  | stores blobs ready =>
    refine .quiet _ _ (fun _ => id) (fun _ _ => rfl) (.inr ?_)
    split <;> exact id
  | registers => exact .quiet _ _ (fun _ => MavenState.mem_enter) (fun _ _ => rfl) (.inr id)
  | announces buildNumber stamp =>
    refine .quiet _ _ (fun _ => id) (fun key index => ?_) (.inr id)
    rw [MavenState.getElem?_cache, if_neg]
    rintro rfl
    cases index
  | inserts inserting => exact .enters _ inserting
  | scans scanning => exact .scans scanning
  | indexes versions indexing => exact .writes versions event.now _ indexing

section Races

variable {reqs : ι → MavenRequest} {coordinates : ι → Coordinate} {repo groupId artifactId : String}

/-- Every upload that has succeeded is listed, and will be by every index that is still to be written. -/
structure Races (coordinates : ι → Coordinate) (repo : String) (system : State ι (MavenState ι) MavenPoint) :
    Prop where
  entries : ∀ thread, (system.points thread).Entered →
    buildKey repo (coordinates thread).repositoryPath ∈ system.shared.layout
  own : ∀ thread, ∀ versions ∈ (system.points thread).scanned, (coordinates thread).version ∈ versions
  others : ∀ thread, ∀ versions ∈ (system.points thread).scanned, ∀ other, (system.points other).Stored →
    (coordinates other).version ∈ versions
  listed : ∀ thread, (system.points thread).Stored →
    ∃ doc, system.shared.metadata[(coordinates thread).indexKey repo]? = some doc ∧
      (coordinates thread).version ∈ doc.versions

variable {system : State ι (MavenState ι) MavenPoint}

private theorem Deploys.indexKey_eq (deploys : Deploys reqs coordinates repo groupId artifactId) (thread other : ι) :
    (coordinates thread).indexKey repo = (coordinates other).indexKey repo := by
  rw [Coordinate.indexKey, Coordinate.indexKey, Coordinate.groupPath, Coordinate.groupPath, deploys.groups,
    deploys.groups, deploys.artifacts, deploys.artifacts]

/-- The entry of every upload is found by all of them. -/
theorem Deploys.mem_versionsOf (deploys : Deploys reqs coordinates repo groupId artifactId) {thread other : ι}
    {layout : ExtTreeMap String Digest} (entered : buildKey repo (coordinates other).repositoryPath ∈ layout) :
    (coordinates other).version ∈ versionsOf ((coordinates thread).entryStart repo) layout := by
  have found : ∃ digest, layout[buildKey repo (coordinates other).repositoryPath]? = some digest := by
    rwa [← Option.isSome_iff_exists, ← ExtTreeMap.contains_eq_isSome_getElem?, ExtTreeMap.contains_iff_mem]
  obtain ⟨digest, found⟩ := found
  refine Maven.mem_versionsOf.mpr ⟨_, digest, found, Coordinate.entryVersion_of_same ?_ ?_ _⟩
  · rw [Coordinate.groupPath, Coordinate.groupPath, deploys.groups, deploys.groups]
  · rw [deploys.artifacts, deploys.artifacts]

variable [DecidableEq ι]

/-- A turn in order keeps what is listed. -/
theorem Races.advance (races : Races coordinates repo system)
    (deploys : Deploys reqs coordinates repo groupId artifactId) {mover : ι} {result : MavenState ι × MavenPoint}
    (advances : Advances repo (coordinates mover) system.shared (system.points mover) result)
    (inOrder : ∀ mine ∈ (system.points mover).scanned, ∀ thread, thread ≠ mover →
      ∀ theirs ∈ (system.points thread).scanned, mine ⊆ theirs) :
    Races coordinates repo ⟨result.1, fun thread => if thread = mover then result.2 else system.points thread⟩ := by
  cases advances with
  | quiet after next layout index before =>
    -- Whoever is past the entry has been there before.
    have back : ∀ thread, (if thread = mover then next else system.points thread).Entered →
        (if thread = mover then next else system.points thread) = system.points thread := by
      intro thread entered
      by_cases own : thread = mover
      · rw [if_pos own] at entered ⊢
        rw [own]
        exact before.resolve_right (not_not.mpr entered)
      · rw [if_neg own]
    refine ⟨?_, ?_, ?_, ?_⟩
    · intro thread entered
      exact layout _ (races.entries thread (back thread entered ▸ entered))
    · intro thread versions scan
      have same := back thread (MavenPoint.entered_of_scanned scan)
      exact races.own thread versions (same ▸ scan)
    · intro thread versions scan other stored
      have same := back thread (MavenPoint.entered_of_scanned scan)
      have same' := back other stored.entered
      exact races.others thread versions (same ▸ scan) other (same' ▸ stored)
    · intro thread stored
      have same := back thread stored.entered
      rw [index _ rfl]
      exact races.listed thread (same ▸ stored)
  | enters digest inserting =>
    -- The mover has no index to write yet.
    have unscanned : ∀ thread, ∀ versions ∈ (if thread = mover then .scanning else system.points thread).scanned,
        versions ∈ (system.points thread).scanned := by
      intro thread versions scan
      split at scan
      · cases scan
      · exact scan
    have unstored : ∀ thread, (if thread = mover then .scanning else system.points thread).Stored →
        (system.points thread).Stored := by
      intro thread stored
      split at stored
      · cases stored
      · exact stored
    refine ⟨?_, ?_, ?_, ?_⟩
    · intro thread entered
      by_cases own : thread = mover
      · rw [own]
        exact ExtTreeMap.mem_insert_self
      · exact MavenState.mem_enter (races.entries thread ((if_neg own : _ = system.points thread) ▸ entered))
    · exact fun thread versions scan => races.own thread versions (unscanned thread versions scan)
    · exact fun thread versions scan other stored =>
        races.others thread versions (unscanned thread versions scan) other (unstored other stored)
    · exact fun thread stored => races.listed thread (unstored thread stored)
  | scans scanning =>
    have entered : (system.points mover).Entered := scanning ▸ trivial
    have unstored : ∀ thread, (if thread = mover then
        .indexing (versionsOf ((coordinates mover).entryStart repo) system.shared.layout)
        else system.points thread).Stored → (system.points thread).Stored := by
      intro thread stored
      split at stored
      · cases stored
      · exact stored
    refine ⟨?_, ?_, ?_, ?_⟩
    · intro thread past
      by_cases own : thread = mover
      · exact races.entries thread (own ▸ entered)
      · exact races.entries thread ((if_neg own : _ = system.points thread) ▸ past)
    · intro thread versions scan
      by_cases own : thread = mover
      · obtain rfl := Option.some.inj ((congrArg MavenPoint.scanned (if_pos own)).symm.trans scan)
        rw [own]
        exact deploys.mem_versionsOf (races.entries mover entered)
      · exact races.own thread versions ((if_neg own : _ = system.points thread) ▸ scan)
    · intro thread versions scan other stored
      have before := unstored other stored
      by_cases own : thread = mover
      · obtain rfl := Option.some.inj ((congrArg MavenPoint.scanned (if_pos own)).symm.trans scan)
        exact deploys.mem_versionsOf (races.entries other before.entered)
      · exact races.others thread versions ((if_neg own : _ = system.points thread) ▸ scan) other before
    · exact fun thread stored => races.listed thread (unstored thread stored)
  | writes versions now response indexing =>
    have scan : versions ∈ (system.points mover).scanned := by rw [indexing]; rfl
    have unscanned : ∀ thread, ∀ theirs ∈ (if thread = mover then .answered (.responded response)
        else system.points thread).scanned, thread ≠ mover ∧ theirs ∈ (system.points thread).scanned := by
      intro thread theirs found
      split at found
      · cases found
      · rename_i other
        exact ⟨other, found⟩
    refine ⟨?_, ?_, ?_, ?_⟩
    · intro thread entered
      by_cases own : thread = mover
      · exact races.entries thread (own ▸ MavenPoint.entered_of_scanned scan)
      · exact races.entries thread ((if_neg own : _ = system.points thread) ▸ entered)
    · exact fun thread theirs found => races.own thread theirs (unscanned thread theirs found).2
    · intro thread theirs found other stored
      obtain ⟨elsewhere, found⟩ := unscanned thread theirs found
      by_cases own : other = mover
      · -- Nothing older is still to be written.
        rw [own]
        exact inOrder versions scan thread elsewhere theirs found (races.own mover versions scan)
      · exact races.others thread theirs found other ((if_neg own : _ = system.points other) ▸ stored)
    · intro thread stored
      refine ⟨_, (MavenState.getElem?_cache _ _ _ _).trans (if_pos (deploys.indexKey_eq mover thread)), ?_⟩
      by_cases own : thread = mover
      · rw [own]
        exact races.own mover versions scan
      · exact races.others mover versions scan thread ((if_neg own : _ = system.points thread) ▸ stored)

/-- Uploads of one artifact that write their indexes in order lose no version: at every moment the index lists
the version of every upload that has succeeded. -/
theorem no_version_lost (server : MavenServer) (state : MavenState ι)
    (deploys : Deploys reqs coordinates repo groupId artifactId) (events : List (ι × MavenEvent))
    (inOrder : Runs.Along (turn (server.program reqs)) InOrder state.start events) (thread : ι)
    (stored : ((run (server.program reqs) state.start events).points thread).Stored) :
    ∃ doc, (run (server.program reqs) state.start events).shared.metadata[
        (coordinates thread).indexKey repo]? = some doc ∧ (coordinates thread).version ∈ doc.versions := by
  have races : Races coordinates repo (run (server.program reqs) state.start events) := by
    refine inOrder.invariant (motive := Races coordinates repo) ?_ ?_
    · intro system event races met
      obtain ⟨body, upload⟩ := deploys.uploads event.1
      exact races.advance deploys
        (server.step_uploadMoves event.1 event.2 system.shared (system.points event.1) upload).advances met
    · exact ⟨fun _ entered => entered.elim, fun _ _ scan => (by cases scan), fun _ _ scan => (by cases scan),
        fun _ stored => stored.elim⟩
  exact races.listed thread stored

end Races

section Runs

/-- The next release. -/
def nextRelease : Coordinate where
  groupId := "org"
  artifactId := "demo"
  version := "2.0"
  classifier := none
  extension := "jar"
  group := demo.group
  artifact := demo.artifact
  versioned := (validateField_ok_iff "version" "2.0").mp (by decide)
  extended := demo.extended
  classified := demo.classified

/-- Both releases. -/
def releases : Fin 2 → Coordinate
  | 0 => demo
  | 1 => nextRelease

/-- The uploads of both releases. -/
def twoReleases : Fin 2 → MavenRequest
  | 0 => .put "releases" "org/demo/1.0/demo-1.0.jar" [1]
  | 1 => .put "releases" "org/demo/2.0/demo-2.0.jar" [1, 2]

/-- Two uploads that take their turns alternately are both listed. -/
theorem no_version_lost_twoReleases :
    let events := turnsOf [0, 1, 0, 1, 0, 1, 0, 1]
    let system := run (sample.program twoReleases) (MavenState.new (Fin 2)).start events
    Runs.Along (turn (sample.program twoReleases)) InOrder (MavenState.new (Fin 2)).start events ∧
      (∀ thread, (system.points thread).Stored) ∧
      ∃ doc, system.shared.metadata[demo.indexKey "releases"]? = some doc ∧ "1.0" ∈ doc.versions := by
  intro events system
  have evaluated : Runs.Along (turn (sample.program twoReleases)) InOrder (MavenState.new (Fin 2)).start
        events ∧ (∀ thread, (system.points thread).Stored) ∧
      parseLayoutPath demo.repositoryPath = .ok ⟨demo, .artifact⟩ ∧
      parseLayoutPath nextRelease.repositoryPath = .ok ⟨nextRelease, .artifact⟩ ∧
      demo.repositoryPath = "org/demo/1.0/demo-1.0.jar" ∧
        nextRelease.repositoryPath = "org/demo/2.0/demo-2.0.jar" := by
    decide +kernel
  obtain ⟨inOrder, stored, first, second, path, path'⟩ := evaluated
  have deploys : Deploys twoReleases releases "releases" "org" "demo" := by
    refine ⟨Fin.forall_fin_two.mpr ⟨⟨[1], path.symm ▸ rfl, first⟩, ⟨[1, 2], path'.symm ▸ rfl, second⟩⟩, ?_, ?_⟩
    · exact Fin.forall_fin_two.mpr ⟨rfl, rfl⟩
    · exact Fin.forall_fin_two.mpr ⟨rfl, rfl⟩
  exact ⟨inOrder, stored,
    no_version_lost sample (MavenState.new (Fin 2)) deploys events inOrder 0 (stored 0)⟩

/-- An index that was made before a release was entered replaces the one with the release. -/
theorem version_lost :
    let system := run (sample.program twoReleases) (MavenState.new (Fin 2)).start
      (turnsOf [0, 0, 0, 1, 1, 1, 1, 0])
    (∀ thread, (system.points thread).Stored) ∧
      system.shared.metadata[demo.indexKey "releases"]?.map MavenMetadata.versions = some ["1.0"] := by
  decide +kernel

end Runs

end FerroProtocols.Maven
