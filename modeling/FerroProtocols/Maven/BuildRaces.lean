import FerroProtocols.Maven.Builds
import FerroProtocols.Maven.SnapshotFiles
import Mathlib.Data.Fintype.Basic

/-! Uploads of one SNAPSHOT version at the same time. -/

namespace FerroProtocols.Maven

open BlobStore Std Interleaving MavenServer

/-- The number of a build that is still to be announced. -/
def MavenPoint.number : MavenPoint → Option Nat
  | .registering buildNumber | .announcing buildNumber _ => some buildNumber
  | _ => none

/-- The number that is announced in the next turn. -/
def MavenPoint.announced : MavenPoint → Option Nat
  | .announcing buildNumber _ => some buildNumber
  | _ => none

variable {ι : Type}

/-- The number of the newest build according to the document. -/
def MavenState.published (key : CounterKey) (state : MavenState ι) : Nat :=
  ((state.metadata[key.document]?.bind MavenMetadata.snapshot).map Snapshot.buildNumber).getD 0

/-- A build is announced only if all that are still to be announced have greater numbers. -/
def InTurn (system : State ι (MavenState ι) MavenPoint) (event : ι × MavenEvent) : Prop :=
  ∀ mine ∈ (system.points event.1).announced, ∀ thread, thread ≠ event.1 →
    ∀ theirs ∈ (system.points thread).number, mine ≤ theirs

/-- Whether a build is announced in its turn is seen from the points of all requests. -/
instance InTurn.instDecidable [Fintype ι] [DecidableEq ι] (system : State ι (MavenState ι) MavenPoint)
    (event : ι × MavenEvent) : Decidable (InTurn system event) :=
  inferInstanceAs (Decidable (∀ mine ∈ (system.points event.1).announced, ∀ thread, thread ≠ event.1 →
    ∀ theirs ∈ (system.points thread).number, mine ≤ theirs))

/-- What a turn of the upload of a build does to the counter and the document. -/
inductive Announces (key : CounterKey) (state : MavenState ι) (point : MavenPoint) :
    MavenState ι × MavenPoint → Prop
  | quiet (after : MavenState ι) (next : MavenPoint) (idle : point ≠ .counting)
    (doc : after.published key = state.published key) (same : next.number = point.number) :
    Announces key state point (after, next)
  | counts (counting : point = .counting) :
    Announces key state point (state.count key, .registering (state.nextBuild key))
  | publishes (buildNumber : Nat) (stamp : DateTime) (announcing : point = .announcing buildNumber stamp)
    (after : MavenState ι) (doc : after.published key = buildNumber) :
    Announces key state point (after, .inserting)

private theorem MavenState.published_cache_of_ne {state : MavenState ι} {key : CounterKey} {other : MetadataKey}
    {doc : MavenMetadata} (different : other ≠ key.document) :
    (state.cache other doc).published key = state.published key := by
  rw [published, MavenState.getElem?_cache, if_neg different, published]

private theorem step_announces (server : MavenServer) (thread : ι) {req : MavenRequest} (event : MavenEvent)
    (state : MavenState ι) (point : MavenPoint) {key : CounterKey} (counted : req.counter = some key) :
    Announces key state point (server.step thread req event state point) := by
  obtain ⟨repo, path, coord, body, upload, snapshot, rfl⟩ := MavenRequest.counter_eq_some_iff.mp counted
  by_cases counting : point = .counting
  · -- A build that is to be counted is counted at once.
    rw [counting, upload.asked, step_of_pending rfl, handle_counts upload.parsed]
    exact .counts rfl
  · have move := server.step_uploadMoves thread event state point upload
    generalize server.step thread req event state point = result at move ⊢
    cases move with
    | stays => exact .quiet _ _ counting rfl rfl
    | refuses error ready => exact .quiet _ _ counting rfl (by rw [ready]; rfl)
    | stores blobs ready =>
      refine .quiet _ _ counting rfl ?_
      rw [ready]
      split <;> rfl
    | counts now => exact absurd now counting
    | registers buildNumber registering => exact .quiet _ _ counting rfl (by rw [registering]; rfl)
    | announces buildNumber stamp announcing =>
      refine .publishes buildNumber stamp announcing _ ?_
      have same : coord.snapshotKey repo = (coord.counterKey repo).document := rfl
      rw [MavenState.published, MavenState.getElem?_cache, if_pos same]
      rfl
    | inserts inserting => exact .quiet _ _ counting rfl (by rw [inserting]; rfl)
    | scans scanning => exact .quiet _ _ counting rfl (by rw [scanning]; rfl)
    | indexes versions indexing =>
      refine .quiet _ _ counting (MavenState.published_cache_of_ne ?_) (by rw [indexing]; rfl)
      exact fun same => by cases congrArg ArtifactKey.base same

/-- The builds that are still to be announced have numbers of their own, above the published one and up to the
newest. -/
structure Announced (key : CounterKey) (counted : Nat) (system : State ι (MavenState ι) MavenPoint) : Prop where
  pending : ∀ thread, ∀ buildNumber ∈ (system.points thread).number,
    system.shared.published key < buildNumber ∧ buildNumber ≤ counted
  distinct : ∀ thread other, ∀ buildNumber ∈ (system.points thread).number,
    buildNumber ∈ (system.points other).number → thread = other
  newest : system.shared.published key = counted ∨ ∃ thread, counted ∈ (system.points thread).number

section Turns

variable {reqs : ι → MavenRequest} {key : CounterKey} {counted : CounterKey → Nat}
  {system : State ι (MavenState ι) MavenPoint} {event : ι × MavenEvent}

private theorem Announced.published_le {counted : Nat} (announced : Announced key counted system) :
    system.shared.published key ≤ counted := by
  rcases announced.newest with same | ⟨thread, pending⟩
  · exact same.le
  · exact (announced.pending thread counted pending).1.le

/-- A build that is announced in its turn is newer than the published one, and leaves none behind. -/
theorem Announced.advance [DecidableEq ι] (announced : Announced key (counted key) system)
    (base : Counted reqs counted system)
    {result : MavenState ι × MavenPoint} (under : (reqs event.1).counter = some key)
    (announces : Announces key system.shared (system.points event.1) result)
    (few : ∀ key, countedAfter reqs counted system event key < buildNumberModulus) (inTurn : InTurn system event) :
    Announced key (countedAfter reqs counted system event key)
        ⟨result.1, fun thread => if thread = event.1 then result.2 else system.points thread⟩ ∧
      system.shared.published key ≤ result.1.published key := by
  -- What the others hold is what they held before.
  have others {next : MavenPoint} {thread : ι} {buildNumber : Nat} (other : thread ≠ event.1)
      (held : buildNumber ∈ (if thread = event.1 then next else system.points thread).number) :
      buildNumber ∈ (system.points thread).number := by
    rwa [if_neg other] at held
  cases announces with
  | quiet after next idle doc same =>
    rw [countedAfter_of_ne idle]
    -- The same numbers are held by the same threads.
    have back (thread : ι) : (if thread = event.1 then next else system.points thread).number =
        (system.points thread).number := by
      split
      · rename_i own
        rw [own, same]
      · rfl
    refine ⟨⟨?_, ?_, ?_⟩, doc.ge⟩
    · intro thread buildNumber held
      rw [doc]
      exact announced.pending thread buildNumber (back thread ▸ held)
    · intro thread other buildNumber held held'
      exact announced.distinct thread other buildNumber (back thread ▸ held) (back other ▸ held')
    · rw [doc]
      refine announced.newest.imp_right fun held => ?_
      obtain ⟨thread, held⟩ := held
      exact ⟨thread, (back thread).symm ▸ held⟩
  | counts counting =>
    have number := base.nextBuild_of_counting few counting under
    have after : countedAfter reqs counted system event key = counted key + 1 := by
      rw [countedAfter_of_counting counting under, if_pos rfl]
    have published : (system.shared.count key).published key = system.shared.published key := rfl
    have bound := announced.published_le
    have own {buildNumber : Nat} {thread : ι} (mine : thread = event.1)
        (held : buildNumber ∈ (if thread = event.1 then .registering (system.shared.nextBuild key)
          else system.points thread).number) : buildNumber = counted key + 1 := by
      rw [if_pos mine, number] at held
      exact (Option.some.inj held).symm
    rw [after]
    refine ⟨⟨?_, ?_, ?_⟩, published.ge⟩
    · intro thread buildNumber held
      change system.shared.published key < buildNumber ∧ _
      by_cases mine : thread = event.1
      · have same := own mine held
        omega
      · have before := announced.pending thread buildNumber (others mine held)
        omega
    · intro thread other buildNumber held held'
      by_cases mine : thread = event.1 <;> by_cases mine' : other = event.1
      · rw [mine, mine']
      · have same := own mine held
        have before := announced.pending other buildNumber (others mine' held')
        omega
      · have same := own mine' held'
        have before := announced.pending thread buildNumber (others mine held)
        omega
      · exact announced.distinct thread other buildNumber (others mine held) (others mine' held')
    · refine .inr ⟨event.1, ?_⟩
      change counted key + 1 ∈ (if event.1 = event.1 then MavenPoint.registering _ else _).number
      rw [if_pos rfl, number]
      rfl
  | publishes buildNumber stamp announcing after doc =>
    rw [countedAfter_of_ne (by rw [announcing]; exact nofun)]
    have mine : buildNumber ∈ (system.points event.1).number := by
      rw [announcing]
      rfl
    obtain ⟨newer, bound⟩ := announced.pending event.1 buildNumber mine
    have elsewhere {number : Nat} {thread : ι}
        (held : number ∈ (if thread = event.1 then .inserting else system.points thread).number) :
        thread ≠ event.1 := by
      rintro rfl
      rw [if_pos rfl] at held
      cases held
    refine ⟨⟨?_, ?_, ?_⟩, newer.le.trans doc.ge⟩
    · -- All that are still to be announced are newer, since no number is held twice.
      intro thread number held
      have other := elsewhere held
      have before := others other held
      have later := inTurn buildNumber (by rw [announcing]; rfl) thread other number before
      have different : number ≠ buildNumber := fun same =>
        other (announced.distinct thread event.1 number before (same ▸ mine))
      have bound' := announced.pending thread number before
      change after.published key < number ∧ _
      omega
    · intro thread other number held held'
      exact announced.distinct thread other number (others (elsewhere held) held) (others (elsewhere held') held')
    · change after.published key = _ ∨ _
      rcases announced.newest with same | ⟨thread, held⟩
      · omega
      · by_cases own : thread = event.1
        · rw [own, announcing] at held
          exact .inl (doc.trans (Option.some.inj held))
        · refine .inr ⟨thread, ?_⟩
          change counted key ∈ (if thread = event.1 then .inserting else system.points thread).number
          rwa [if_neg own]

end Turns

/-- Uploads of one SNAPSHOT version that announce their builds in their turn, and of which there are fewer
than numbers: the published number never decreases, and once all uploads have ended it is the counter, which
is the number of builds. -/
theorem builds_in_turn [DecidableEq ι] (server : MavenServer) {reqs : ι → MavenRequest} {key : CounterKey}
    (counted : ∀ thread, (reqs thread).counter = some key) (events : List (ι × MavenEvent))
    (few : Few server reqs events)
    (inTurn : Runs.Along (turn (server.program reqs)) InTurn (MavenState.new ι).start events) :
    Runs.Along (turn (server.program reqs)) (fun system event =>
      system.shared.published key ≤ (turn (server.program reqs) system event).shared.published key)
      (MavenState.new ι).start events ∧
    ((∀ thread, ∃ answer, (run (server.program reqs) (MavenState.new ι).start events).points thread =
        .answered answer) →
      (run (server.program reqs) (MavenState.new ι).start events).shared.published key =
        (run (server.program reqs) (MavenState.new ι).start events).shared.snapshotCounter[key]?.getD 0 ∧
      (run (server.program reqs) (MavenState.new ι).start events).shared.published key =
        (assignedAlong reqs key server (MavenState.new ι).start events).length) := by
  obtain ⟨announced, grows⟩ : Announced key (assignedAlong reqs key server (MavenState.new ι).start events).length
        (run (server.program reqs) (MavenState.new ι).start events) ∧
      Runs.Along (turn (server.program reqs)) (fun system event =>
        system.shared.published key ≤ (turn (server.program reqs) system event).shared.published key)
        (MavenState.new ι).start events := by
    induction events using List.reverseRecOn with
    | nil => exact ⟨⟨fun _ _ held => (by cases held), fun _ _ _ held => (by cases held), .inl rfl⟩, trivial⟩
    | append_singleton past event ih =>
      obtain ⟨inTurn, last⟩ := Runs.along_concat.mp inTurn
      obtain ⟨announced, grows⟩ := ih few.of_concat inTurn
      have base := (counted_run server few.of_concat).1
      have next := announced.advance base (counted event.1)
        (step_announces server event.1 event.2 _ _ (counted event.1)) few.countedAfter_lt last
      refine ⟨?_, Runs.along_concat.mpr ⟨grows, next.2⟩⟩
      rw [run_append, congrFun length_assignedAlong_concat key]
      exact next.1
  refine ⟨grows, fun ended => ?_⟩
  have newest := announced.newest.resolve_right (by
    rintro ⟨thread, held⟩
    obtain ⟨answer, answered⟩ := ended thread
    rw [answered] at held
    cases held)
  rw [(counted_run server few).1.counters key]
  exact ⟨newest, newest⟩

section Runs

/-- Two uploads that take their turns alternately publish the second build at last. -/
theorem builds_in_turn_alternating :
    let events := turnsOf [0, 1, 0, 1, 0, 1, 0, 1, 0, 1, 0, 1, 0, 1]
    let system := run (sample.program everyone) (MavenState.new (Fin 2)).start events
    Runs.Along (turn (sample.program everyone)) InTurn (MavenState.new (Fin 2)).start events ∧
      assignedAlong everyone demoCounter sample (MavenState.new (Fin 2)).start events = [1, 2] ∧
      system.shared.published demoCounter = 2 := by
  intro events system
  have evaluated : Runs.Along (turn (sample.program everyone)) InTurn (MavenState.new (Fin 2)).start
        events ∧
      assignedAlong everyone demoCounter sample (MavenState.new (Fin 2)).start events = [1, 2] ∧
      (∀ thread, system.points thread = .answered (sample.uploadAnswer [1])) ∧
      ∀ thread : Fin 2, (everyone thread).counter = some demoCounter := by
    decide +kernel
  obtain ⟨inTurn, numbers, ended, counted⟩ := evaluated
  have few : Few sample everyone events := fun key =>
    (length_assignedAlong_le _ key _ events).trans_lt (by decide)
  have published := (builds_in_turn sample counted events few inTurn).2 fun thread => ⟨_, ended thread⟩
  refine ⟨inTurn, numbers, published.2.trans ?_⟩
  rw [numbers]
  rfl

/-- A build that is announced late takes the place of a newer one: the published number falls from 2 to 1, and
stays there when both uploads have ended. -/
theorem older_build_published :
    let newer := run (sample.program everyone) (MavenState.new (Fin 2)).start
      (turnsOf [0, 1, 0, 1, 0, 1, 1])
    let older := run (sample.program everyone) (MavenState.new (Fin 2)).start
      (turnsOf [0, 1, 0, 1, 0, 1, 1, 0])
    let ended := run (sample.program everyone) (MavenState.new (Fin 2)).start
      (turnsOf [0, 1, 0, 1, 0, 1, 1, 0, 0, 0, 0, 1, 1, 1])
    newer.shared.published demoCounter = 2 ∧ older.shared.published demoCounter = 1 ∧
      (∀ thread, ended.points thread = .answered (sample.uploadAnswer [1])) ∧
      ended.shared.published demoCounter = 1 ∧ ended.shared.snapshotCounter[demoCounter]? = some 2 := by
  decide +kernel

end Runs

end FerroProtocols.Maven
