import Mathlib.Data.Fintype.Basic
import FerroProtocols.Lib.Runs
import FerroProtocols.Maven.Alone

/-! Entries of the layout and their blobs, when uploads and deletions interleave. -/

namespace FerroProtocols.Maven

open BlobStore Std Texts Interleaving MavenServer InMemoryBlobStore

/-- The blob of an upload is stored, and an entry for it is still to come. -/
def MavenPoint.Pending : MavenPoint → Prop
  | .counting | .registering _ | .announcing _ _ | .inserting | .linking => True
  | _ => False

/-- Whether an entry is still to come is seen from the point. -/
instance MavenPoint.instDecidablePending : DecidablePred MavenPoint.Pending
  | .counting | .registering _ | .announcing _ _ | .inserting | .linking => isTrue trivial
  | .ready | .scanning | .indexing _ | .verifying _ | .keeping | .deleting _ | .fetching _ | .lookingUp
  | .computing _ | .answered _ => isFalse id

/-- The request is not between its first turn and its answer. -/
def MavenPoint.Idle : MavenPoint → Prop
  | .ready | .answered _ => True
  | _ => False

/-- Whether a request is in flight is seen from the point. -/
instance MavenPoint.instDecidableIdle : DecidablePred MavenPoint.Idle
  | .ready | .answered _ => isTrue trivial
  | .counting | .registering _ | .announcing _ _ | .inserting | .linking | .scanning | .indexing _ | .verifying _
  | .keeping | .deleting _ | .fetching _ | .lookingUp | .computing _ => isFalse id

variable {ι : Type}

/-- What a turn does to entries, blobs and the lock. -/
inductive Touches (server : MavenServer) (req : MavenRequest) (thread : ι) (state : MavenState ι)
    (point : MavenPoint) : MavenState ι × MavenPoint → Prop
  | quiet (after : MavenState ι) (next : MavenPoint) (blobs : after.blobs = state.blobs)
    (layout : after.layout = state.layout) (writer : after.writer = state.writer)
    (pending : next.Pending → point.Pending) (holds : next.Holds → next = point)
    (held : point.Holds → next = point ∨ ∀ repo path, req ≠ .delete repo path) :
    Touches server req thread state point (after, next)
  | stores (repo path : String) (body : Bytes) (blobs : InMemoryBlobStore) (next : MavenPoint)
    (asked : req = .put repo path body) (free : ¬ next.Holds ∧ ¬ point.Holds)
    (put : state.blobs.put server.hashes.store (server.digestOf body) body = .ok blobs) :
    Touches server req thread state point ({ state with blobs }, next)
  | enters (repo path key : String) (body : Bytes) (next : MavenPoint) (asked : req = .put repo path body)
    (free : ¬ next.Holds ∧ ¬ point.Holds) (pending : point.Pending) (unlocked : state.writer = none) :
    Touches server req thread state point (state.enter key (server.digestOf body), next)
  | unlinks (key : String) (answer : MavenAnswer) (free : ¬ point.Holds) (unlocked : state.writer = none) :
    Touches server req thread state point ({ state with layout := state.layout.erase key }, .answered answer)
  | locks (repo path : String) (digest : Digest) (asked : req = .delete repo path) (unlocked : state.writer = none)
    (last : ∀ key : String, (state.layout.erase (buildKey repo path))[key]? ≠ some digest) :
    Touches server req thread state point
      ({ state with layout := state.layout.erase (buildKey repo path), writer := some thread }, .deleting digest)
  -- The blob goes, unless the blob store fails.
  | releases (digest : Digest) (blobs : InMemoryBlobStore) (answer : MavenAnswer)
    (deleting : point = .deleting digest)
    (dropped : blobs = state.blobs ∨ blobs = state.blobs.delete digest) :
    Touches server req thread state point ({ state with blobs, writer := none }, .answered answer)

private theorem Moves.touches {server : MavenServer} {req : MavenRequest} {thread : ι} {event : MavenEvent}
    {state : MavenState ι} {point : MavenPoint} {result : MavenState ι × MavenPoint}
    (move : Moves server req thread event state point result) :
    Touches server req thread state point result := by
  cases move with
  | stays => exact .quiet _ _ rfl rfl rfl id (fun _ => rfl) fun _ => .inl rfl
  | refuses error free =>
    exact .quiet _ _ rfl rfl rfl (fun h => h.elim) (fun h => h.elim) fun held => .inr (free held)
  | reads repo path withBody next asked reading =>
    subst asked
    refine .quiet _ _ rfl rfl rfl ?_ ?_ fun _ => .inr nofun
    · intro pending
      cases next <;> first | exact reading.elim | exact pending.elim
    · intro holds
      cases next <;> first | exact reading.elim | exact holds.elim
  | stores repo path coord body blobs ready upload checked put =>
    subst ready
    refine .stores repo path body blobs _ upload.asked ⟨?_, id⟩ put
    split <;> exact id
  | counts repo path coord body counting upload =>
    subst counting
    exact .quiet _ _ rfl rfl rfl (fun _ => trivial) (fun h => h.elim) fun h => h.elim
  | registers repo path coord body buildNumber registering upload unlocked =>
    subst registering
    exact .enters repo path _ body _ upload.asked ⟨id, id⟩ trivial unlocked
  | announces repo path coord body buildNumber stamp announcing upload =>
    subst announcing
    exact .quiet _ _ rfl rfl rfl (fun _ => trivial) (fun h => h.elim) fun h => h.elim
  | inserts repo path coord body inserting upload unlocked =>
    subst inserting
    exact .enters repo path _ body _ upload.asked ⟨id, id⟩ trivial unlocked
  | scans repo path coord body scanning upload unlocked =>
    subst scanning
    exact .quiet _ _ rfl rfl rfl (fun h => h.elim) (fun h => h.elim) fun h => h.elim
  | indexes repo path coord body versions indexing upload =>
    subst indexing
    exact .quiet _ _ rfl rfl rfl (fun h => h.elim) (fun h => h.elim) fun h => h.elim
  | compares _ _ _ _ _ _ _ ready | stages _ _ _ _ _ _ ready | documents _ _ _ _ _ _ _ _ ready =>
    subst ready
    exact .quiet _ _ rfl rfl rfl (fun h => h.elim) (fun h => h.elim) fun h => h.elim
  | verifies repo path declared algo body bytes digest verifying attached parsed found matched =>
    subst verifying
    exact .quiet _ _ rfl rfl rfl (fun h => h.elim) (fun h => h.elim) fun h => h.elim
  | keeps repo path algo body blobs keeping attached put =>
    subst keeping
    exact .stores repo path body blobs _ attached.asked ⟨id, id⟩ put
  | links repo path algo body linking attached unlocked =>
    subst linking
    exact .enters repo path _ body _ attached.asked ⟨id, id⟩ trivial unlocked
  | unlinks repo path digest ready asked unlocked found shared =>
    subst ready
    exact .unlinks _ _ id unlocked
  | locks repo path digest ready asked unlocked found last => exact .locks repo path digest asked unlocked last
  | drops repo path digest deleting asked => exact .releases digest _ _ deleting (.inr rfl)
  | fails repo path digest error deleting asked failed => exact .releases digest _ _ deleting (.inl rfl)

variable (server : MavenServer) (reqs : ι → MavenRequest)

/-- What is known about one request from the point it has reached. -/
structure Backed (shared : MavenState ι) (thread : ι) (point : MavenPoint) : Prop where
  stored : ∀ body, (reqs thread).upload = some body → point.Pending →
    shared.blobs.contains (server.digestOf body) = true
  -- The lock is held by the one deletion that has still to drop a blob.
  locked : shared.writer = some thread ↔ point.Holds
  deletes : point.Holds → ∃ repo path, reqs thread = .delete repo path
  last : ∀ digest, point = .deleting digest → ∀ key : String, shared.layout[key]? ≠ some digest

/-- Every entry has its blob, whoever has come how far. -/
structure Supported (system : State ι (MavenState ι) MavenPoint) : Prop where
  entries : ∀ (key : String) (digest : Digest), system.shared.layout[key]? = some digest →
    system.shared.blobs.contains digest = true
  threads : ∀ thread, Backed server reqs system.shared thread (system.points thread)

/-- The turn does not drop a blob that an upload has stored and not yet entered. -/
def Careful (system : State ι (MavenState ι) MavenPoint) (event : ι × MavenEvent) : Prop :=
  ∀ thread, (system.points thread).Pending → ∀ body ∈ (reqs thread).upload,
    system.points event.1 ≠ .deleting (server.digestOf body)

/-- Whether a turn is careful is seen from the points of all requests. -/
instance Careful.instDecidable [Fintype ι] (system : State ι (MavenState ι) MavenPoint) (event : ι × MavenEvent) :
    Decidable (Careful server reqs system event) :=
  inferInstanceAs (Decidable (∀ thread, (system.points thread).Pending → ∀ body ∈ (reqs thread).upload,
    system.points event.1 ≠ .deleting (server.digestOf body)))

section Turns

variable {server : MavenServer} {reqs : ι → MavenRequest} {system : State ι (MavenState ι) MavenPoint}
  {shared : MavenState ι} {thread : ι} {point : MavenPoint}

/-- A request that deletes a blob holds the lock. -/
theorem holds_of_deleting {digest : Digest} (deleting : point = .deleting digest) : point.Holds := deleting ▸ trivial

private theorem backed_idle (idle : ¬ point.Pending ∧ ¬ point.Holds) (unheld : shared.writer ≠ some thread) :
    Backed server reqs shared thread point where
  stored := fun _ _ pending => absurd pending idle.1
  locked := ⟨fun held => absurd held unheld, fun holds => absurd holds idle.2⟩
  deletes := fun holds => absurd holds idle.2
  last := fun _ deleting => absurd (holds_of_deleting deleting) idle.2

/-- What is known about a request stays known while its blob stays and entries change only if it is not about
to drop one. -/
theorem Backed.frame {after : MavenState ι} (backed : Backed server reqs shared thread point)
    (blobs : ∀ body, (reqs thread).upload = some body → point.Pending →
      shared.blobs.contains (server.digestOf body) = true → after.blobs.contains (server.digestOf body) = true)
    (writer : after.writer = some thread ↔ shared.writer = some thread)
    (layout : after.layout = shared.layout ∨ ¬ point.Holds) : Backed server reqs after thread point where
  stored := fun body asked pending => blobs body asked pending (backed.stored body asked pending)
  locked := writer.trans backed.locked
  deletes := backed.deletes
  last := by
    intro digest deleting
    rcases layout with same | free
    · rw [same]
      exact backed.last digest deleting
    · exact absurd (holds_of_deleting deleting) free

private theorem supported_start : Supported server reqs (MavenState.new ι).start where
  entries := by
    intro key digest there
    have empty : (MavenState.new ι).start.shared.layout[key]? = none := ExtTreeMap.getElem?_empty
    rw [empty] at there
    cases there
  threads := fun thread => backed_idle ⟨id, id⟩ nofun

/-- While the lock is free no blob is about to be dropped. -/
theorem Supported.free (supported : Supported server reqs system) (unlocked : system.shared.writer = none)
    (thread : ι) : ¬ (system.points thread).Holds := by
  intro holds
  have held := (supported.threads thread).locked.mpr holds
  rw [unlocked] at held
  cases held

/-- When no request is in flight, nobody holds the lock. -/
theorem Supported.unlocked (supported : Supported server reqs system)
    (idle : ∀ thread, (system.points thread).Idle) : system.shared.writer = none := by
  refine Option.eq_none_iff_forall_ne_some.mpr fun thread held => ?_
  have holds := (supported.threads thread).locked.mp held
  have between := idle thread
  cases reached : system.points thread <;> rw [reached] at holds between <;> first
    | exact holds
    | exact between

variable [DecidableEq ι]

private theorem Supported.of_turn (supported : Supported server reqs system) {event : ι × MavenEvent}
    (careful : Careful server reqs system event) :
    Supported server reqs (turn (server.program reqs) system event) := by
  have touched := (server.step_moves event.1 (reqs event.1) event.2 system.shared (system.points event.1)).touches
  have own := supported.threads event.1
  -- It is enough to look at the entries, at the request that takes the turn, and at the others.
  suffices goal : (∀ (key : String) (digest : Digest),
      (server.program reqs event.1 event.2 system.shared (system.points event.1)).1.layout[key]? = some digest →
      (server.program reqs event.1 event.2 system.shared (system.points event.1)).1.blobs.contains digest = true) ∧
      Backed server reqs (server.program reqs event.1 event.2 system.shared (system.points event.1)).1 event.1
        (server.program reqs event.1 event.2 system.shared (system.points event.1)).2 ∧
      ∀ thread, thread ≠ event.1 → Backed server reqs
        (server.program reqs event.1 event.2 system.shared (system.points event.1)).1 thread
        (system.points thread) from
    ⟨goal.1, forall_turn_points goal.2.1 goal.2.2⟩
  change Touches server (reqs event.1) event.1 system.shared (system.points event.1)
    (server.program reqs event.1 event.2 system.shared (system.points event.1)) at touched
  generalize server.program reqs event.1 event.2 system.shared (system.points event.1) = result at touched ⊢
  cases touched with
  | quiet after next blobs layout writer pending holds held =>
    refine ⟨?_, ⟨?_, ?_, ?_, ?_⟩, ?_⟩
    · intro key digest there
      rw [layout] at there
      rw [blobs]
      exact supported.entries key digest there
    · intro body asked stored
      rw [blobs]
      exact own.stored body asked (pending stored)
    · rw [writer, own.locked]
      constructor
      · intro held'
        rcases held held' with same | other
        · rwa [same]
        · obtain ⟨repo, path, asked⟩ := own.deletes held'
          exact absurd asked (other repo path)
      · intro held'
        rwa [← holds held']
    · intro held'
      exact own.deletes (holds held' ▸ held')
    · intro digest deleting
      change next = .deleting digest at deleting
      rw [layout]
      refine own.last digest ?_
      rw [← deleting]
      exact (holds (holds_of_deleting deleting)).symm
    · intro thread other
      refine (supported.threads thread).frame ?_ ?_ (.inl layout)
      · intro body _ _ stored
        rwa [blobs]
      · rw [writer]
  | stores repo path body blobs next asked free put =>
    have kept : ∀ digest, system.shared.blobs.contains digest = true → blobs.contains digest = true :=
      fun digest stored => (contains_put put digest).mpr (.inr stored)
    refine ⟨?_, ⟨?_, ?_, ?_, ?_⟩, ?_⟩
    · intro key digest there
      exact kept digest (supported.entries key digest there)
    · intro other uploads _
      rw [asked] at uploads
      obtain rfl := Option.some.inj uploads
      exact (contains_put put _).mpr (.inl rfl)
    · exact ⟨fun held => absurd (own.locked.mp held) free.2, fun holds => absurd holds free.1⟩
    · exact fun holds => absurd holds free.1
    · exact fun digest deleting => absurd (holds_of_deleting deleting) free.1
    · intro thread other
      exact (supported.threads thread).frame (fun _ _ _ => kept _) Iff.rfl (.inl rfl)
  | enters repo path key body next asked free pending unlocked =>
    refine ⟨?_, ⟨?_, ?_, ?_, ?_⟩, ?_⟩
    · intro other digest there
      -- The entry is for the blob that this upload has stored before.
      rw [MavenState.getElem?_enter] at there
      split at there
      · obtain rfl := Option.some.inj there
        exact own.stored body (asked ▸ rfl) pending
      · exact supported.entries other digest there
    · exact fun other uploads _ => own.stored other uploads pending
    · exact ⟨fun held => absurd (own.locked.mp held) free.2, fun holds => absurd holds free.1⟩
    · exact fun holds => absurd holds free.1
    · exact fun digest deleting => absurd (holds_of_deleting deleting) free.1
    · intro thread other
      exact (supported.threads thread).frame (fun _ _ _ => id) Iff.rfl (.inr (supported.free unlocked thread))
  | unlinks key answer free unlocked =>
    refine ⟨?_, backed_idle ⟨id, id⟩ ?_, ?_⟩
    · intro other digest there
      rw [ExtTreeMap.getElem?_erase] at there
      split at there
      · cases there
      · exact supported.entries other digest there
    · change system.shared.writer ≠ _
      rw [unlocked]
      exact nofun
    · intro thread other
      exact (supported.threads thread).frame (fun _ _ _ => id) Iff.rfl (.inr (supported.free unlocked thread))
  | locks repo path digest asked unlocked last =>
    refine ⟨?_, ⟨?_, ?_, ?_, ?_⟩, ?_⟩
    · intro other stored there
      rw [ExtTreeMap.getElem?_erase] at there
      split at there
      · cases there
      · exact supported.entries other stored there
    · exact fun _ _ pending => pending.elim
    · exact ⟨fun _ => trivial, fun _ => rfl⟩
    · exact fun _ => ⟨repo, path, asked⟩
    · intro dropped same
      obtain rfl := MavenPoint.deleting.inj same
      exact last
    · intro thread other
      refine (supported.threads thread).frame (fun _ _ _ => id) ?_ (.inr (supported.free unlocked thread))
      rw [unlocked]
      exact ⟨fun held => absurd (Option.some.inj held).symm other, fun held => (by cases held)⟩
  | releases digest blobs answer deleting dropped =>
    have held : system.shared.writer = some event.1 := own.locked.mpr (holds_of_deleting deleting)
    have kept : ∀ stored, stored ≠ digest → system.shared.blobs.contains stored = true →
        blobs.contains stored = true := by
      intro stored other there
      rcases dropped with rfl | rfl
      · exact there
      · exact (contains_delete _ _ _).mpr ⟨other.symm, there⟩
    refine ⟨?_, backed_idle ⟨id, id⟩ fun held => (by cases held), ?_⟩
    · intro key stored there
      refine kept stored ?_ (supported.entries key stored there)
      rintro rfl
      exact own.last stored deleting key there
    · intro thread other
      refine (supported.threads thread).frame ?_ ?_ (.inl rfl)
      · intro body uploads pending
        refine kept _ ?_
        rintro rfl
        exact careful thread pending body uploads deleting
      · rw [held]
        exact ⟨fun none => (by cases none), fun same => absurd (Option.some.inj same).symm other⟩

private theorem supported_run {events : List (ι × MavenEvent)}
    (careful : Runs.Along (turn (server.program reqs)) (Careful server reqs) (MavenState.new ι).start events) :
    Supported server reqs (run (server.program reqs) (MavenState.new ι).start events) :=
  careful.invariant (fun _ _ supported met => supported.of_turn met) supported_start

end Turns

section Downloads

variable [DecidableEq ι]

/-- As long as no deletion drops a blob that an upload has stored and not yet entered, every entry has its
blob at every moment, and whenever no request is in flight every file that has an entry can be downloaded. -/
theorem entries_keep_blobs (events : List (ι × MavenEvent))
    (careful : Runs.Along (turn (server.program reqs)) (Careful server reqs) (MavenState.new ι).start events) :
    let system := run (server.program reqs) (MavenState.new ι).start events
    (∀ (key : String) (digest : Digest), system.shared.layout[key]? = some digest →
      system.shared.blobs.contains digest = true) ∧
    ((∀ thread, (system.points thread).Idle) → ∀ (repo path : String) (layout : LayoutPath) (digest : Digest),
      system.shared.layout[buildKey repo path]? = some digest → parseLayoutPath path = .ok layout →
      (∀ versionLevel checksum, layout.pathClass ≠ .metadata versionLevel checksum) →
      ∃ bytes, system.shared.blobs.get digest = .ok bytes ∧ server.Serves system.shared repo path bytes) := by
  intro system
  have supported : Supported server reqs system := supported_run careful
  refine ⟨supported.entries, ?_⟩
  intro idle repo path layout digest found parsed file
  obtain ⟨bytes, blob⟩ := get_of_contains (supported.entries _ _ found)
  exact ⟨bytes, blob, serves_of_entry (supported.unlocked idle) parsed file found blob⟩

end Downloads

section Runs

/-- Two uploads of the same bytes, and a deletion of the first one. -/
def sameBytes : Fin 3 → MavenRequest
  | 0 => .put "releases" "org/demo/1.0/demo-1.0.jar" [1]
  | 1 => .put "releases" "org/copy/1.0/copy-1.0.jar" [1]
  | 2 => .delete "releases" "org/demo/1.0/demo-1.0.jar"

/-- Turns of requests in which the blob store never fails. -/
def faultless (threads : List (Fin 3)) : List (Fin 3 × MavenEvent) := threads.map fun thread => (thread, .sample)

/-- One upload is answered and deleted, blob and all, before the other one begins. -/
theorem entries_keep_blobs_sameBytes :
    let events := faultless [0, 0, 0, 0, 2, 2, 1, 1, 1, 1]
    let system := run (sample.program sameBytes) (MavenState.new (Fin 3)).start events
    Runs.Along (turn (sample.program sameBytes)) (Careful sample sameBytes)
        (MavenState.new (Fin 3)).start events ∧
      ∃ bytes, system.shared.blobs.get (sample.digestOf [1]) = .ok bytes ∧
        sample.Serves system.shared "releases" "org/copy/1.0/copy-1.0.jar" bytes := by
  intro events system
  obtain ⟨careful, idle, found, parsed⟩ : Runs.Along (turn (sample.program sameBytes)) (Careful sample sameBytes)
        (MavenState.new (Fin 3)).start events ∧ (∀ thread, (system.points thread).Idle) ∧
      system.shared.layout[buildKey "releases" "org/copy/1.0/copy-1.0.jar"]? =
        some (sample.digestOf [1]) ∧
      (parseLayoutPath "org/copy/1.0/copy-1.0.jar").toOption.map LayoutPath.pathClass = some .artifact := by
    decide +kernel
  refine ⟨careful, ?_⟩
  obtain ⟨coord, read⟩ := exists_of_pathClass parsed
  exact (entries_keep_blobs sample sameBytes events careful).2 idle _ _ _ _ found read
    nofun

/-- A deletion between the blob of an upload and its entry leaves the entry without a blob. -/
theorem entry_loses_blob :
    let system := run (sample.program sameBytes) (MavenState.new (Fin 3)).start
      (faultless [0, 0, 0, 0, 1, 2, 2, 1, 1, 1])
    (∀ thread, (system.points thread).Idle) ∧
      system.shared.layout[buildKey "releases" "org/copy/1.0/copy-1.0.jar"]? =
        some (sample.digestOf [1]) ∧
      system.shared.blobs.contains (sample.digestOf [1]) = false ∧
      (sample.perform 0 (.get "releases" "org/copy/1.0/copy-1.0.jar" true) (fun _ => .sample)
        system.shared).2 = .answered (.refused (.storage (.notFound (sample.digestOf [1]).toString))) := by
  decide +kernel

end Runs

end FerroProtocols.Maven
