import FerroProtocols.Cargo.Records
import FerroProtocols.Lib.Runs

/-! Any number of requests in any interleaving of their turns, some of which fail to persist. -/

namespace FerroProtocols.Cargo

open BlobStore Std Interleaving

variable {ω ι : Type}

/-- The points at which a request holds the lock. -/
def CargoPoint.Holds : CargoPoint → Prop
  | .storing _ | .discarding _ _ => True
  | _ => False

/-- A request is a publish that has passed the checks. -/
def CargoRequest.Plans (server : CargoServer) (req : CargoRequest) (plan : PublishPlan) : Prop :=
  ∃ body, req = .publish body ∧ server.preparePublish body = .ok plan

/-- What a request that keeps all versions does to the crates. -/
inductive Changed (req : CargoRequest) (crates : CrateMap) : CrateMap → Prop
  | yanked (key version : String) (yanked : Bool) :
    Changed req crates (crates.setYanked key version yanked)
  | owners (name : String) (logins : List String) (remove : Bool) (record : CrateRecord)
    (asked : req = .mutateOwners name logins remove)
    (stored : crates[canonicalName name]? = some record) :
    Changed req crates
      (crates.setOwners (canonicalName name) (CrateMap.changeOwners record.owners logins remove))

/-- An answer by which a change is acknowledged. -/
def CargoAnswer.Acknowledges : CargoAnswer → Prop
  | .published | .changed _ => True
  | _ => False

/-- All that a turn can do. -/
inductive Moves (server : CargoServer) (req : CargoRequest) (thread : ι) (event : CargoEvent ω)
    (state : CargoState ω ι) (point : CargoPoint) : CargoState ω ι × CargoPoint → Prop
  -- The lock is awaited, or the request has ended.
  | stays (waits : point = .ready → state.writer.isSome = true) :
    Moves server req thread event state point (state, point)
  | answers (answer : CargoAnswer) (idle : ¬ point.Holds) (quiet : ¬ answer.Acknowledges) :
    Moves server req thread event state point (state, .answered answer)
  | finds (name version : String) (record : CrateRecord) (digest : Digest) (ready : point = .ready)
    (asked : req = .download name version) (stored : state.crates[canonicalName name]? = some record)
    (mapped : record.tarballs[version]? = some digest) :
    Moves server req thread event state point (state, .fetching digest)
  | locks (plan : PublishPlan) (ready : point = .ready) (free : state.writer = none)
    (planned : req.Plans server plan) (vacant : state.crates.checkVacant plan = .ok ()) :
    Moves server req thread event state point ({ state with writer := some thread }, .storing plan)
  | unstored (plan : PublishPlan) (error : CargoError) (storing : point = .storing plan) :
    Moves server req thread event state point
      ({ state with writer := none }, .answered (.refused error))
  | publishes (plan : PublishPlan) (blobs : InMemoryBlobStore) (disk : ω) (storing : point = .storing plan)
    (stored : state.blobs.put server.hashes plan.digest plan.tarball = .ok blobs)
    (written : event.persist (state.crates.addVersion plan) state.disk = (.ok (), disk)) :
    Moves server req thread event state point
      (⟨blobs, state.crates.addVersion plan, disk, none⟩, .answered .published)
  -- The snapshot could not be written: the crates are as before, and the tarball goes unless it is shared.
  | withdraws (plan : PublishPlan) (blobs : InMemoryBlobStore) (disk : ω) (error : IoError)
    (storing : point = .storing plan)
    (stored : state.blobs.put server.hashes plan.digest plan.tarball = .ok blobs)
    (failed : event.persist (state.crates.addVersion plan) state.disk = (.error error, disk))
    (shared : state.crates.Referenced plan.digest) :
    Moves server req thread event state point
      (⟨blobs, state.crates, disk, none⟩, .answered (.refused (.persistence error.message)))
  | discards (plan : PublishPlan) (blobs : InMemoryBlobStore) (disk : ω) (reason : IoError)
    (storing : point = .storing plan)
    (stored : state.blobs.put server.hashes plan.digest plan.tarball = .ok blobs)
    (failed : event.persist (state.crates.addVersion plan) state.disk = (.error reason, disk))
    (unreferenced : ¬ state.crates.Referenced plan.digest) :
    Moves server req thread event state point
      (⟨blobs, state.crates, disk, state.writer⟩, .discarding plan.digest reason)
  | drops (digest : Digest) (reason : IoError) (blobs : InMemoryBlobStore)
    (discarding : point = .discarding digest reason)
    (deleted : blobs = state.blobs ∧ event.fault ≠ none ∨ blobs = state.blobs.delete digest) :
    Moves server req thread event state point
      ({ state with blobs, writer := none }, .answered (.refused (.persistence reason.message)))
  | commits (crates : CrateMap) (disk : ω) (msg : Option String) (ready : point = .ready)
    (free : state.writer = none) (changed : Changed req state.crates crates)
    (written : event.persist crates state.disk = (.ok (), disk)) :
    Moves server req thread event state point ({ state with crates, disk }, .answered (.changed msg))
  | restores (crates : CrateMap) (disk : ω) (error : IoError) (ready : point = .ready)
    (changed : Changed req state.crates crates)
    (failed : event.persist crates state.disk = (.error error, disk)) :
    Moves server req thread event state point
      ({ state with disk }, .answered (.refused (.persistence error.message)))

namespace CargoServer

variable {server : CargoServer} {thread : ι} {req : CargoRequest} {event : CargoEvent ω}
  {state : CargoState ω ι} {point : CargoPoint}

/-- A request at its beginning holds no lock. -/
theorem not_holds_ready : ¬ CargoPoint.ready.Holds := id

private theorem of_call_eq_ok {α : Type} {result : Except BlobStoreError α} {value : α}
    (returned : event.call result = .ok value) : result = .ok value := by
  unfold CargoEvent.call at returned
  split at returned
  · cases returned
  · exact returned

private theorem moves_commit {changed restored : CrateMap} {msg : Option String} (ready : point = .ready)
    (free : state.writer = none) (change : Changed req state.crates changed) (back : restored = state.crates) :
    Moves server req thread event state point (commit event state changed restored msg) := by
  unfold commit
  split
  · rename_i written
    exact .commits changed _ msg ready free change written
  · rename_i failed
    rw [back]
    exact .restores changed _ _ ready change failed

private theorem moves_handlePublish {body : Bytes} (consistent : state.crates.Consistent server.digits)
    (vacant : ∀ plan, point = .storing plan → state.crates.checkVacant plan = .ok ()) :
    Moves server (.publish body) thread event state point (server.handlePublish thread body event state point) := by
  cases point with
  | ready =>
    simp only [handlePublish]
    split
    · exact .answers _ not_holds_ready id
    · rename_i plan prepared
      split
      · rename_i locked
        exact .stays fun _ => locked
      · rename_i free
        split
        · exact .answers _ not_holds_ready id
        · rename_i fresh
          exact .locks plan rfl (Option.not_isSome_iff_eq_none.mp free) ⟨body, rfl, prepared⟩ fresh
  | storing plan =>
    have back := rollbackPublish_addVersion consistent (vacant plan rfl)
    simp only [handlePublish]
    split
    · exact .unstored plan _ rfl
    · rename_i blobs returned
      have stored := of_call_eq_ok returned
      split
      · rename_i written
        exact .publishes plan blobs _ rfl stored written
      · rename_i failed
        rw [back]
        split
        · rename_i shared
          exact .withdraws plan blobs _ _ rfl stored failed (CrateMap.digestReferencedIn_iff.mp shared)
        · rename_i unreferenced
          exact .discards plan blobs _ _ rfl stored failed
            fun referenced => unreferenced (CrateMap.digestReferencedIn_iff.mpr referenced)
  | discarding digest reason =>
    simp only [handlePublish]
    split
    · rename_i error failed
      refine .drops digest reason state.blobs rfl (.inl ⟨rfl, ?_⟩)
      intro healthy
      simp only [CargoEvent.call, healthy] at failed
      cases failed
    · rename_i blobs returned
      cases of_call_eq_ok returned
      exact .drops digest reason _ rfl (.inr rfl)
  | fetching | answered => exact .stays nofun

private theorem moves_withRecord {name : String} {next : CrateRecord → CargoState ω ι × CargoPoint}
    (ready : point = .ready)
    (moves : state.writer = none → ∀ record, state.crates[canonicalName name]? = some record →
      Moves server req thread event state point (next record)) :
    Moves server req thread event state point (withRecord name state next) := by
  subst ready
  unfold withRecord
  split
  · exact .answers _ not_holds_ready id
  · split
    · rename_i locked
      exact .stays fun _ => locked
    · rename_i free
      split
      · exact .answers _ not_holds_ready id
      · rename_i record stored
        exact moves (Option.not_isSome_iff_eq_none.mp free) record stored

/-- What a turn of any request can do. -/
theorem moves_turn (consistent : state.crates.Consistent server.digits)
    (vacant : ∀ plan, point = .storing plan → state.crates.checkVacant plan = .ok ()) :
    Moves server req thread event state point (server.turn thread req event state point) := by
  cases req with
  | publish body => exact moves_handlePublish consistent vacant
  | download name version =>
    cases point with
    | ready =>
      refine moves_withRecord rfl fun _ record stored => ?_
      split
      · exact .answers _ not_holds_ready id
      · rename_i digest mapped
        exact .finds name version record digest rfl rfl stored mapped
    | fetching digest =>
      simp only [turn, handleDownload]
      split <;> exact .answers _ id id
    | storing | discarding | answered => exact .stays nofun
  | setYanked name version yanked =>
    cases point with
    | ready =>
      refine moves_withRecord rfl fun free record stored => ?_
      split
      · exact .answers _ not_holds_ready id
      · rename_i entry found
        exact moves_commit rfl free (.yanked _ _ _) (setYanked_setYanked yanked stored found)
    | storing | discarding | fetching | answered => exact .stays nofun
  | mutateOwners name logins remove =>
    cases point with
    | ready =>
      refine moves_withRecord rfl fun free record stored => ?_
      exact moves_commit rfl free (.owners name logins remove record rfl stored) (setOwners_setOwners _ stored)
    | storing | discarding | fetching | answered => exact .stays nofun

variable (server) (reqs : ι → CargoRequest)

/-- What holds in every state. -/
structure Sound (system : CargoSystem ω ι) : Prop where
  consistent : system.shared.crates.Consistent server.digits
  -- The store has the tarball of every version, as some publish has brought it.
  backed : ∀ digest, system.shared.crates.Referenced digest → ∃ thread plan,
    (reqs thread).Plans server plan ∧ plan.digest = digest ∧
      system.shared.blobs.inner[digest]? = some plan.tarball
  storing : ∀ thread plan, system.points thread = .storing plan →
    (reqs thread).Plans server plan ∧ system.shared.crates.checkVacant plan = .ok ()
  discarding : ∀ thread digest reason, system.points thread = .discarding digest reason →
    ¬ system.shared.crates.Referenced digest
  holder : ∀ thread, (system.points thread).Holds → system.shared.writer = some thread

variable {server reqs} {system : CargoSystem ω ι} {after : CargoState ω ι} {next : CargoPoint}

/-- What a publish has been prepared with holds of it. -/
theorem prepared_of_plans {plan : PublishPlan} (plans : req.Plans server plan) : server.Prepared plan := by
  obtain ⟨body, _, prepared⟩ := plans
  exact server.prepared_of_preparePublish prepared

private theorem referenced_addVersion {crates : CrateMap} {plan : PublishPlan} {digest : Digest}
    (referenced : (crates.addVersion plan).Referenced digest) : digest = plan.digest ∨ crates.Referenced digest := by
  obtain ⟨key, record, vers, stored, mapped⟩ := referenced
  rw [addVersion_eq, ExtTreeMap.getElem?_insert] at stored
  split at stored
  · cases stored
    simp only [grown, ExtTreeMap.getElem?_insert] at mapped
    split at mapped
    · exact .inl (Option.some.inj mapped).symm
    · cases found : crates[plan.key]? with
      | none =>
        rw [found] at mapped
        simp at mapped
      | some before =>
        rw [found] at mapped
        exact .inr ⟨plan.key, before, vers, found, mapped⟩
  · exact .inr ⟨key, record, vers, stored, mapped⟩

private theorem referenced_of_changed {crates changed : CrateMap} (change : Changed req crates changed)
    {digest : Digest} (referenced : changed.Referenced digest) : crates.Referenced digest := by
  obtain ⟨key, record, vers, stored, mapped⟩ := referenced
  cases change with
  | yanked at_ version yanked =>
    simp only [CrateMap.setYanked, ExtTreeMap.getElem?_modify] at stored
    split at stored
    · obtain ⟨before, found, rfl⟩ := Option.map_eq_some_iff.mp stored
      exact ⟨at_, before, vers, found, mapped⟩
    · exact ⟨key, record, vers, stored, mapped⟩
  | owners name logins remove before asked found =>
    simp only [CrateMap.setOwners, ExtTreeMap.getElem?_modify] at stored
    split at stored
    · obtain ⟨other, there, rfl⟩ := Option.map_eq_some_iff.mp stored
      exact ⟨_, other, vers, there, mapped⟩
    · exact ⟨key, record, vers, stored, mapped⟩

private theorem consistent_of_changed {crates changed : CrateMap} (consistent : crates.Consistent server.digits)
    (change : Changed req crates changed) : changed.Consistent server.digits := by
  cases change with
  | yanked key version yanked =>
    refine consistent.modify fun record stored => ?_
    have before := consistent key record stored
    exact before.congr (map_core_setFlag version yanked record.entries) rfl before.logins
  | owners name logins remove record asked stored =>
    refine consistent.modify fun found there => ?_
    rw [stored] at there
    cases there
    have before := consistent _ record stored
    exact before.congr rfl rfl (nodup_changeOwners before.logins logins remove)

section Step

variable (sound : Sound server reqs system)
  (moved : Moves server (reqs thread) thread event system.shared (system.points thread) (after, next))

include sound moved

private theorem Sound.consistent_move : after.crates.Consistent server.digits := by
  have consistent := sound.consistent
  cases moved with
  | publishes plan blobs disk storing stored =>
    obtain ⟨plans, vacant⟩ := sound.storing thread plan storing
    exact consistent_addVersion consistent vacant (prepared_of_plans plans)
  | commits crates disk msg ready free changed => exact consistent_of_changed consistent changed
  | stays | answers | finds | locks | unstored | withdraws | discards | drops | restores => exact consistent

private theorem Sound.backed_move (digest : Digest) (referenced : after.crates.Referenced digest) :
    ∃ thread plan, (reqs thread).Plans server plan ∧ plan.digest = digest ∧
      after.blobs.inner[digest]? = some plan.tarball := by
  -- A publish stores its own tarball, and leaves the others.
  have put {plan : PublishPlan} {blobs : InMemoryBlobStore} (storing : system.points thread = .storing plan)
      (stored : system.shared.blobs.put server.hashes plan.digest plan.tarball = .ok blobs)
      (either : digest = plan.digest ∨ system.shared.crates.Referenced digest) :
      ∃ thread plan, (reqs thread).Plans server plan ∧ plan.digest = digest ∧
        blobs.inner[digest]? = some plan.tarball := by
    rw [InMemoryBlobStore.inner_put stored]
    by_cases same : digest = plan.digest
    · refine ⟨thread, plan, (sound.storing thread plan storing).1, same.symm, ?_⟩
      rw [same]
      exact ExtTreeMap.getElem?_insert_self
    · rcases either with equal | before
      · exact absurd equal same
      · obtain ⟨other, others, plans, own, there⟩ := sound.backed digest before
        refine ⟨other, others, plans, own, ?_⟩
        rw [ExtTreeMap.getElem?_insert, if_neg]
        · exact there
        · exact fun equal => same (LawfulEqCmp.eq_of_compare equal).symm
  cases moved with
  | publishes plan blobs disk storing stored => exact put storing stored (referenced_addVersion referenced)
  | withdraws _ _ _ _ storing stored | discards _ _ _ _ storing stored => exact put storing stored (.inr referenced)
  | drops gone reason blobs discarding deleted =>
    obtain ⟨other, plan, plans, own, there⟩ := sound.backed digest referenced
    refine ⟨other, plan, plans, own, ?_⟩
    -- What is deleted is not referenced.
    have different : digest ≠ gone := by
      rintro rfl
      exact sound.discarding thread digest reason discarding referenced
    rcases deleted with ⟨rfl, _⟩ | rfl
    · exact there
    · change (system.shared.blobs.inner.erase gone)[digest]? = _
      rw [ExtTreeMap.getElem?_erase, if_neg]
      · exact there
      · exact fun equal => different (LawfulEqCmp.eq_of_compare equal).symm
  | commits crates disk msg ready free changed =>
    exact sound.backed digest (referenced_of_changed changed referenced)
  | stays | answers | finds | locks | unstored | restores => exact sound.backed digest referenced

/-- While a request holds the lock, no other one changes the crates or the store, or gets the lock. -/
theorem Sound.frame_move {other : ι} (different : other ≠ thread) (holds : (system.points other).Holds) :
    after.crates = system.shared.crates ∧ after.blobs = system.shared.blobs ∧ after.writer = some other := by
  have locked := sound.holder other holds
  have excluded : ¬ (system.points thread).Holds := by
    intro also
    have same := sound.holder thread also
    rw [locked] at same
    exact different (Option.some.inj same)
  cases moved with
  | locks plan ready free planned vacant =>
    rw [free] at locked
    cases locked
  | commits crates disk msg ready free changed =>
    rw [free] at locked
    cases locked
  | unstored plan error storing | publishes plan blobs disk storing stored
  | withdraws plan blobs disk error storing stored
  | discards plan blobs disk reason storing stored failed unreferenced =>
    rw [storing] at excluded
    exact absurd trivial excluded
  | drops digest reason blobs discarding deleted =>
    rw [discarding] at excluded
    exact absurd trivial excluded
  | stays | answers | finds | restores => exact ⟨rfl, rfl, locked⟩

/-- A turn keeps what holds in every state. -/
theorem Sound.move [DecidableEq ι] : Sound server reqs
      ⟨after, fun other => if other = thread then next else system.points other⟩ := by
  refine ⟨sound.consistent_move moved, sound.backed_move moved, ?_, ?_, ?_⟩
  · intro other plan storing
    dsimp only at storing ⊢
    split at storing
    · rename_i same
      subst same
      -- Only the turn that takes the lock leads here.
      cases moved with
      | locks plan ready free planned vacant =>
        cases storing
        exact ⟨planned, vacant⟩
      | stays => exact sound.storing other plan storing
      | answers | finds | unstored | publishes | withdraws | discards | drops | commits | restores => cases storing
    · rename_i different
      rw [(sound.frame_move moved different (storing ▸ trivial)).1]
      exact sound.storing other plan storing
  · intro other digest reason discarding
    dsimp only at discarding ⊢
    split at discarding
    · rename_i same
      subst same
      cases moved with
      | discards plan blobs disk reason storing stored failed unreferenced =>
        cases discarding
        exact unreferenced
      | stays => exact sound.discarding other digest reason discarding
      | answers | finds | locks | unstored | publishes | withdraws | drops | commits | restores => cases discarding
    · rename_i different
      rw [(sound.frame_move moved different (discarding ▸ trivial)).1]
      exact sound.discarding other digest reason discarding
  · intro other holds
    dsimp only at holds ⊢
    split at holds
    · rename_i same
      subst same
      cases moved with
      | locks plan ready free planned vacant => rfl
      | discards plan blobs disk reason storing stored failed unreferenced =>
        exact sound.holder other (storing ▸ trivial)
      | stays => exact sound.holder other holds
      | answers | finds | unstored | publishes | withdraws | drops | commits | restores => cases holds
    · rename_i different
      exact (sound.frame_move moved different holds).2.2

end Step

section Runs

/-- What a turn does to the whole system. -/
theorem moves_of_sound (sound : Sound server reqs system) (step : ι × CargoEvent ω) :
    Moves server (reqs step.1) step.1 step.2 system.shared (system.points step.1)
      (server.program reqs step.1 step.2 system.shared (system.points step.1)) :=
  moves_turn sound.consistent fun plan storing => (sound.storing step.1 plan storing).2

/-- A turn moves one request, and leaves the others where they are. -/
theorem Sound.exists_moves [DecidableEq ι] (sound : Sound server reqs system) (step : ι × CargoEvent ω) :
    ∃ after next, Moves server (reqs step.1) step.1 step.2 system.shared (system.points step.1) (after, next) ∧
      Interleaving.turn (server.program reqs) system step =
        ⟨after, fun other => if other = step.1 then next else system.points other⟩ :=
  ⟨_, _, moves_of_sound sound step, rfl⟩

/-- A turn of any request keeps what holds in every state. -/
theorem Sound.turn [DecidableEq ι] (sound : Sound server reqs system) (step : ι × CargoEvent ω) :
    Sound server reqs (Interleaving.turn (server.program reqs) system step) :=
  sound.move (moves_of_sound sound step)

/-- It holds before any request. -/
theorem sound_opening (blobs : InMemoryBlobStore) (disk : ω) :
    Sound server reqs (CargoSystem.opening blobs disk) where
  consistent := fun key record stored => by simp [CargoSystem.opening] at stored
  backed := by
    rintro digest ⟨key, record, vers, stored, _⟩
    simp [CargoSystem.opening] at stored
  storing := nofun
  discarding := nofun
  holder := fun _ holds => holds.elim

/-- It holds after every run. -/
theorem sound_run [DecidableEq ι] (blobs : InMemoryBlobStore) (disk : ω) (events : List (ι × CargoEvent ω)) :
    Sound server reqs (run (server.program reqs) (CargoSystem.opening blobs disk) events) :=
  run_invariant (fun _ step sound => sound.turn step) (sound_opening blobs disk) events

variable (reqs)

/-- The counter of owners does not run out of numbers in a turn. -/
def Counted (system : CargoSystem ω ι) (step : ι × CargoEvent ω) : Prop :=
  ∀ name logins record, reqs step.1 = .mutateOwners name logins false →
    system.points step.1 = .ready → system.shared.writer = none →
    system.shared.crates[canonicalName name]? = some record →
    (CrateMap.addOwners record.owners logins).2 ≤ ownerIdModulus

variable {reqs}

/-- All identifiers of the owners of a crate differ. -/
def Identified (crates : CrateMap) : Prop :=
  ∀ (key : String) (record : CrateRecord), crates[key]? = some record →
    (record.owners.map Owner.id).Nodup

/-- A turn keeps identifiers apart while the counter does not run out of numbers. -/
theorem Identified.turn [DecidableEq ι] (identified : Identified system.shared.crates)
    (sound : Sound server reqs system) {step : ι × CargoEvent ω} (counted : Counted reqs system step) :
    Identified (Interleaving.turn (server.program reqs) system step).shared.crates := by
  obtain ⟨after, next, moved, turned⟩ := sound.exists_moves step
  rw [turned]
  cases moved with
  | publishes plan blobs disk storing stored =>
    intro key record found
    rw [addVersion_eq, ExtTreeMap.getElem?_insert] at found
    split at found
    · cases found
      -- The owners of a crate are as before, and a new crate has none.
      cases before : system.shared.crates[plan.key]? with
      | none => simp [grown, before]
      | some record =>
        simp only [grown, before, Option.getD_some]
        exact identified plan.key record before
    · exact identified key record found
  | commits crates disk msg ready free changed =>
    intro key record found
    cases changed with
    | yanked at_ version yanked =>
      simp only [CrateMap.setYanked, ExtTreeMap.getElem?_modify] at found
      split at found
      · obtain ⟨before, there, rfl⟩ := Option.map_eq_some_iff.mp found
        exact identified at_ before there
      · exact identified key record found
    | owners name logins remove before asked there =>
      simp only [CrateMap.setOwners, ExtTreeMap.getElem?_modify] at found
      split at found
      · obtain ⟨other, same, rfl⟩ := Option.map_eq_some_iff.mp found
        refine nodup_id_changeOwners (identified _ before there) logins remove ?_
        rintro rfl
        exact counted name logins before asked ready free there
      · exact identified key record found
  | stays | answers | finds | locks | unstored | withdraws | discards | drops | restores => exact identified

end Runs

variable (server) [DecidableEq ι] (reqs : ι → CargoRequest)

/-- In every state all records are consistent, and the store has all their tarballs; identifiers of owners differ as
long as their counter does not run out of numbers. -/
theorem records_consistent (blobs : InMemoryBlobStore) (disk : ω) (events : List (ι × CargoEvent ω)) :
    let system := run (server.program reqs) (CargoSystem.opening blobs disk) events
    (∀ (key : String) (record : CrateRecord), system.shared.crates[key]? = some record →
      record.Consistent server.digits key ∧ ∀ (vers : String) (digest : Digest),
        record.tarballs[vers]? = some digest →
          system.shared.blobs.contains digest = true) ∧
    (Runs.Along (Interleaving.turn (server.program reqs)) (Counted reqs)
        (CargoSystem.opening blobs disk) events →
      ∀ (key : String) (record : CrateRecord), system.shared.crates[key]? = some record →
        (record.owners.map Owner.id).Nodup) := by
  intro system
  have sound : Sound server reqs system := sound_run blobs disk events
  constructor
  · intro key record stored
    refine ⟨sound.consistent key record stored, ?_⟩
    intro vers digest mapped
    obtain ⟨_, plan, _, _, there⟩ := sound.backed digest ⟨key, record, vers, stored, mapped⟩
    exact ExtTreeMap.contains_eq_isSome_getElem?.trans (by rw [there]; rfl)
  · intro counted
    -- The identifiers are carried along with what holds in every state.
    have both : Sound server reqs system ∧ Identified system.shared.crates :=
      counted.invariant (motive := fun system =>
          Sound server reqs system ∧ Identified system.shared.crates)
        (fun _ step before here => ⟨before.1.turn step, before.2.turn before.1 here⟩)
        ⟨sound_opening blobs disk, fun key record stored => by simp [CargoSystem.opening] at stored⟩
    exact both.2

/-- The store has a tarball for every version, with the checksum that the index gives. -/
def Verifiable (state : CargoState ω ι) : Prop :=
  ∀ (key : String) (record : CrateRecord), state.crates[key]? = some record →
    ∀ entry ∈ record.entries, ∃ digest bytes,
    record.tarballs[entry.vers]? = some digest ∧ state.blobs.get digest = .ok bytes ∧
      (Digest.sha256Of server.hashes.sha256 bytes).hex = entry.cksum

/-- Whatever requests interleave and fail, clients can check every tarball against the index. -/
theorem tarballs_verifiable (blobs : InMemoryBlobStore) (disk : ω) (events : List (ι × CargoEvent ω)) :
    server.Verifiable (run (server.program reqs) (CargoSystem.opening blobs disk) events).shared := by
  intro key record stored entry member
  have sound := @sound_run ω ι server reqs _ blobs disk events
  obtain ⟨digest, mapped, hex⟩ := (sound.consistent key record stored).mapped entry member
  obtain ⟨_, plan, plans, rfl, there⟩ := sound.backed digest ⟨key, record, entry.vers, stored, mapped⟩
  refine ⟨_, plan.tarball, mapped, ?_, ?_⟩
  · rw [InMemoryBlobStore.get, there]
  · rw [← (prepared_of_plans plans).digest, hex]

section Witness

/-- A manifest of two fields: its text, and what it says. -/
def twoFields (name key version : String) : Bytes × Oci.Value :=
  (textBytes ("\x7b\"name\":\"" ++ name ++ "\",\"" ++ key ++ "\":\"" ++ version ++ "\"\x7d"),
    .object [("name", .string name), (key, .string version)])

/-- Three manifests, the last one with another spelling of the name. -/
def demoManifests : List (Bytes × Oci.Value) :=
  [twoFields "Foo-Bar" "vers" "1.0.0", twoFields "Foo-Bar" "version" "2.0.0",
    twoFields "foo_bar" "vers" "1.0.0"]

/-- A server that knows three manifests. -/
def demo : CargoServer where
  hashes := .table
  digits := .asciiOnly
  fromSlice bytes := (demoManifests.lookup bytes).elim (.error "expected value at line 1 column 1") .ok
  describe := fun _ => ""

/-- A publish of a manifest with a tarball. -/
def demoPublish (place : Nat) (tarball : Bytes) : Bytes :=
  let text := (demoManifests.getD place ([], .null)).1
  [UInt8.ofNat text.length, 0, 0, 0] ++ text ++ [UInt8.ofNat tarball.length, 0, 0, 0] ++ tarball

/-- A publish of a manifest with a tarball of one byte. -/
def demoBody (place : Nat) : Bytes := demoPublish place [7]

/-- Two publishes of a crate, a yank, new owners, a publish under another spelling, and a download. -/
def demoRequests : Nat → CargoRequest
  | 0 => .publish (demoBody 0)
  | 1 => .publish (demoBody 1)
  | 2 => .setYanked "foo-bar" "1.0.0" true
  | 3 => .mutateOwners "FOO_BAR" ["a", "b", "a"] false
  | 4 => .publish (demoBody 2)
  | _ => .download "foo_bar" "1.0.0"

/-- A turn in which persisting works. -/
def persisted (thread : Nat) : Nat × CargoEvent Unit := (thread, { persist := fun _ _ => (.ok (), ()) })

/-- A turn in which it fails. -/
def unpersisted (thread : Nat) : Nat × CargoEvent Unit :=
  (thread, { persist := fun _ _ => (.error ⟨.other, "no space left on device"⟩, ()) })

/-- The second publish fails to persist, with a tarball that the first one has as well. -/
def demoEvents : List (Nat × CargoEvent Unit) :=
  [persisted 0, persisted 0, persisted 1, unpersisted 1, persisted 2, persisted 3, persisted 4,
    persisted 5, persisted 5]

/-- The crate is consistent afterwards, with one version and two owners. -/
theorem records_consistent_demo :
    let system := run (demo.program demoRequests) (CargoSystem.opening .new ()) demoEvents
    ∃ record, system.shared.crates["foo_bar"]? = some record ∧
      record.entries.map (fun entry => (entry.vers, entry.yanked)) = [("1.0.0", true)] ∧
      record.owners = [⟨1, "a", none⟩, ⟨2, "b", none⟩] ∧ record.Consistent .asciiOnly "foo_bar" ∧
      (record.owners.map Owner.id).Nodup := by
  intro system
  have evaluated : (system.shared.crates["foo_bar"]?.map fun record =>
        (record.entries.map (fun entry => (entry.vers, entry.yanked)), record.owners)) =
      some ([("1.0.0", true)], [⟨1, "a", none⟩, ⟨2, "b", none⟩]) ∧
      ((run (demo.program demoRequests) (CargoSystem.opening .new ())
        (demoEvents.take 5)).shared.crates["foo_bar"]?.map CrateRecord.owners) = some [] := by
    decide +kernel
  have counted : Runs.Along (Interleaving.turn (demo.program demoRequests)) (Counted demoRequests)
      (CargoSystem.opening .new ()) demoEvents := by
    -- Only one request adds owners, to a crate that has none.
    have others : ∀ (system : CargoSystem Unit Nat) (step : Nat × CargoEvent Unit), step.1 ≠ 3 →
        Counted demoRequests system step := by
      intro system step different name logins record asked
      exfalso
      revert asked
      match step, different with
      | (0, _), _ | (1, _), _ | (2, _), _ | (4, _), _ => nofun
      | (3, _), different => exact absurd rfl different
      | (number + 5, _), _ => nofun
    refine ⟨others _ _ (by decide), others _ _ (by decide), others _ _ (by decide), others _ _ (by decide),
      others _ _ (by decide), ?_, others _ _ (by decide), others _ _ (by decide), others _ _ (by decide), trivial⟩
    intro name logins record asked _ _ stored
    cases asked
    have bare : record.owners = [] := by
      have owners := evaluated.2
      change (run (demo.program demoRequests) (CargoSystem.opening .new ())
        (demoEvents.take 5)).shared.crates[canonicalName "FOO_BAR"]? = some record at stored
      rw [show canonicalName "FOO_BAR" = "foo_bar" by decide +kernel] at stored
      rw [stored] at owners
      exact Option.some.inj owners
    rw [bare]
    decide
  obtain ⟨record, stored, shown⟩ := Option.map_eq_some_iff.mp evaluated.1
  obtain ⟨entries, owners⟩ := Prod.mk.inj shown
  obtain ⟨consistent, identified⟩ := records_consistent demo demoRequests .new () demoEvents
  exact ⟨record, stored, entries, owners, (consistent _ record stored).1, identified counted _ record stored⟩

end Witness

end CargoServer

end FerroProtocols.Cargo
