import FerroProtocols.Cargo.Runs

/-! A version that was published stays what it is. -/

namespace FerroProtocols.Cargo

open BlobStore Std Interleaving

variable {ω ι : Type}

/-- The answer to a request that has ended. -/
def CargoPoint.answer : CargoPoint → Option CargoAnswer
  | .answered answer => some answer
  | _ => none

/-- A request with an answer has ended with it. -/
theorem CargoPoint.answer_eq_some {point : CargoPoint} {answer : CargoAnswer} :
    point.answer = some answer ↔ point = .answered answer := by
  cases point <;> simp [CargoPoint.answer]

namespace CrateMap

/-- All versions of the crates before are there afterwards, at their positions and with their tarballs. -/
def Extends (before after : CrateMap) : Prop :=
  ∀ (key : String) (record : CrateRecord), before[key]? = some record →
    ∃ grown, after[key]? = some grown ∧
      record.entries.map IndexEntry.core <+: grown.entries.map IndexEntry.core ∧
      ∀ (vers : String) (digest : Digest), record.tarballs[vers]? = some digest →
        grown.tarballs[vers]? = some digest

/-- A version is there at a position, with its tarball. -/
def Lists (crates : CrateMap) (index : Nat) (plan : PublishPlan) : Prop :=
  ∃ record, crates[plan.key]? = some record ∧
    (record.entries.map IndexEntry.core)[index]? = some plan.entry.core ∧
    record.tarballs[plan.entry.vers]? = some plan.digest

section Growth

variable {crates after : CrateMap} {req : CargoRequest} {plan : PublishPlan} {digits : DigitTable}
  {index : Nat}

/-- Crates that do not change keep all versions. -/
theorem Extends.refl (crates : CrateMap) : crates.Extends crates :=
  fun _ record stored => ⟨record, stored, List.prefix_rfl, fun _ _ mapped => mapped⟩

private theorem extends_modify {key : String} {change : CrateRecord → CrateRecord}
    (entries : ∀ record, (change record).entries.map IndexEntry.core = record.entries.map IndexEntry.core)
    (tarballs : ∀ record, (change record).tarballs = record.tarballs) :
    crates.Extends (crates.modify key change) := by
  intro other record stored
  by_cases same : key = other
  · subst same
    refine ⟨change record, ?_, ?_, ?_⟩
    · rw [ExtTreeMap.getElem?_modify, if_pos ReflCmp.compare_self, stored]
      rfl
    · simp [entries]
    · intro vers digest mapped
      rw [tarballs]
      exact mapped
  · refine ⟨record, ?_, List.prefix_rfl, fun _ _ mapped => mapped⟩
    rw [ExtTreeMap.getElem?_modify, if_neg fun equal => same (LawfulEqCmp.eq_of_compare equal)]
    exact stored

private theorem extends_of_changed (change : Changed req crates after) : crates.Extends after := by
  cases change with
  | yanked key version yanked =>
    exact extends_modify (fun record => map_core_setFlag version yanked record.entries) fun _ => rfl
  | owners name logins remove record asked stored => exact extends_modify (fun _ => rfl) fun _ => rfl

private theorem extends_addVersion (consistent : crates.Consistent digits)
    (vacant : crates.checkVacant plan = .ok ()) : crates.Extends (crates.addVersion plan) := by
  intro key record stored
  by_cases same : plan.key = key
  · subst same
    obtain ⟨_, fresh⟩ := checkVacant_eq_ok vacant stored
    refine ⟨grown crates plan, ExtTreeMap.getElem?_insert_self, ?_, ?_⟩
    · simp only [grown, stored, Option.getD_some, List.map_append]
      exact List.prefix_append _ _
    · intro vers digest mapped
      -- A version with a tarball has an entry, and the version of the publish had none.
      obtain ⟨entry, member, named, _⟩ := (consistent _ record stored).listed vers digest mapped
      have different : ¬ compare plan.entry.vers vers = .eq := by
        intro equal
        rw [LawfulEqCmp.eq_of_compare equal] at fresh
        exact fresh entry member named
      simp only [grown, stored, Option.getD_some]
      rw [ExtTreeMap.getElem?_insert, if_neg different]
      exact mapped
  · refine ⟨record, ?_, List.prefix_rfl, fun _ _ mapped => mapped⟩
    rw [addVersion_eq, ExtTreeMap.getElem?_insert, if_neg fun equal => same (LawfulEqCmp.eq_of_compare equal)]
    exact stored

private theorem lists_addVersion (crates : CrateMap) (plan : PublishPlan) :
    ∃ index, (crates.addVersion plan).Lists index plan := by
  refine ⟨(crates[plan.key]?.getD {}).entries.length, grown crates plan, ExtTreeMap.getElem?_insert_self,
    ?_, ExtTreeMap.getElem?_insert_self⟩
  simp [grown]

/-- A version stays at its position. -/
theorem Lists.extends (listed : crates.Lists index plan) (extended : crates.Extends after) :
    after.Lists index plan := by
  obtain ⟨record, stored, entry, mapped⟩ := listed
  obtain ⟨grown, found, ⟨rest, joined⟩, kept⟩ := extended plan.key record stored
  refine ⟨grown, found, ?_, kept _ _ mapped⟩
  rw [← joined, List.getElem?_append_left (List.getElem?_eq_some_iff.mp entry).1]
  exact entry

/-- The entry of a version that is there is the one it was published with, up to its flag. -/
theorem Lists.entry (listed : crates.Lists index plan) : ∃ record yanked, crates[plan.key]? = some record ∧
      record.entries[index]? = some { plan.entry with yanked := yanked } := by
  obtain ⟨record, stored, found, _⟩ := listed
  rw [List.getElem?_map] at found
  obtain ⟨entry, there, same⟩ := Option.map_eq_some_iff.mp found
  refine ⟨record, entry.yanked, stored, there.trans (congrArg some ?_)⟩
  -- Both are what the common part becomes with the flag.
  exact congrArg (fun core : IndexEntry => { core with yanked := entry.yanked }) same

end Growth

end CrateMap

namespace CargoServer

variable {server : CargoServer} {reqs : ι → CargoRequest} {system : CargoSystem ω ι} {thread : ι}
  {plan other : PublishPlan} {index : Nat}

private theorem plans_unique {req : CargoRequest} (plans : req.Plans server plan)
    (also : req.Plans server other) : plan = other := by
  obtain ⟨body, asked, prepared⟩ := plans
  obtain ⟨again, askedAgain, preparedAgain⟩ := also
  cases asked.symm.trans askedAgain
  exact Except.ok.inj (prepared.symm.trans preparedAgain)

private theorem Sound.extends_move {event : CargoEvent ω} {after : CargoState ω ι} {next : CargoPoint}
    (sound : Sound server reqs system)
    (moved : Moves server (reqs thread) thread event system.shared (system.points thread) (after, next)) :
    system.shared.crates.Extends after.crates := by
  cases moved with
  | publishes plan blobs disk storing stored =>
    exact CrateMap.extends_addVersion sound.consistent (sound.storing thread plan storing).2
  | commits crates disk msg ready free changed => exact CrateMap.extends_of_changed changed
  | stays | answers | finds | locks | unstored | withdraws | discards | drops | restores =>
    exact CrateMap.Extends.refl _

variable (server reqs)

/-- What holds in every state about requests that are under way, and about those that were acknowledged. -/
structure Kept (system : CargoSystem ω ι) : Prop where
  sound : Sound server reqs system
  held : ∀ thread, system.shared.writer = some thread → (system.points thread).Holds
  holding : ∀ thread, (system.points thread).Holds →
    ∃ plan, (reqs thread).Plans server plan ∧ system.shared.crates.checkVacant plan = .ok ()
  fetching : ∀ thread digest, system.points thread = .fetching digest →
    ∃ name version record, reqs thread = .download name version ∧
      system.shared.crates[canonicalName name]? = some record ∧ record.tarballs[version]? = some digest
  published : ∀ thread plan, system.points thread = .answered .published →
    (reqs thread).Plans server plan → ∃ index, system.shared.crates.Lists index plan

variable {server reqs}

section Step

variable (kept : Kept server reqs system) {event : CargoEvent ω} {after : CargoState ω ι}
  {next : CargoPoint}
  (moved : Moves server (reqs thread) thread event system.shared (system.points thread) (after, next))

include kept moved

private theorem Kept.held_move [DecidableEq ι] (other : ι) (locked : after.writer = some other) :
    (if other = thread then next else system.points other).Holds := by
  -- A turn that leaves the lock alone does not move the request that has it away.
  have unmoved (same : system.shared.writer = some other) (idle : ¬ (system.points thread).Holds) :
      (if other = thread then next else system.points other).Holds := by
    have holds := kept.held other same
    rw [if_neg]
    · exact holds
    · rintro rfl
      exact idle holds
  have idle_ready (ready : system.points thread = .ready) : ¬ (system.points thread).Holds := by
    rw [ready]
    exact not_holds_ready
  cases moved with
  | stays =>
    have holds := kept.held other locked
    split
    · rename_i same
      exact same ▸ holds
    · exact holds
  | locks plan ready free planned vacant =>
    rw [if_pos (Option.some.inj locked).symm]
    trivial
  | discards plan blobs disk reason storing stored failed unreferenced =>
    have holder := kept.sound.holder thread (storing ▸ trivial)
    rw [if_pos (Option.some.inj (locked.symm.trans holder))]
    trivial
  | answers answer idle quiet => exact unmoved locked idle
  | finds _ _ _ _ ready | commits _ _ _ ready | restores _ _ _ ready => exact unmoved locked (idle_ready ready)
  | unstored | publishes | withdraws | drops => cases locked

private theorem Kept.holding_move [DecidableEq ι] (other : ι)
    (holds : (if other = thread then next else system.points other).Holds) :
    ∃ plan, (reqs other).Plans server plan ∧ after.crates.checkVacant plan = .ok () := by
  split at holds
  · rename_i same
    subst same
    cases moved with
    | stays => exact kept.holding other holds
    | locks plan ready free planned vacant => exact ⟨plan, planned, vacant⟩
    | discards plan blobs disk reason storing stored failed unreferenced =>
      exact ⟨plan, kept.sound.storing other plan storing⟩
    | answers | finds | unstored | publishes | withdraws | drops | commits | restores => cases holds
  · rename_i different
    rw [(kept.sound.frame_move moved different holds).1]
    exact kept.holding other holds

private theorem Kept.fetching_move [DecidableEq ι] (other : ι) (digest : Digest)
    (fetching : (if other = thread then next else system.points other) = .fetching digest) :
    ∃ name version record, reqs other = .download name version ∧
      after.crates[canonicalName name]? = some record ∧ record.tarballs[version]? = some digest := by
  have extended := kept.sound.extends_move moved
  -- What was there before the turn is there after it.
  have onward : (∃ name version record, reqs other = .download name version ∧
        system.shared.crates[canonicalName name]? = some record ∧ record.tarballs[version]? = some digest) →
      ∃ name version record, reqs other = .download name version ∧
        after.crates[canonicalName name]? = some record ∧ record.tarballs[version]? = some digest := by
    intro before
    obtain ⟨name, version, record, asked, stored, mapped⟩ := before
    obtain ⟨grown, found, _, tarballs⟩ := extended _ record stored
    exact ⟨name, version, grown, asked, found, tarballs version digest mapped⟩
  apply onward
  split at fetching
  · rename_i same
    subst same
    cases moved with
    | stays => exact kept.fetching other digest fetching
    | finds name version record digest ready asked stored mapped =>
      cases fetching
      exact ⟨name, version, record, asked, stored, mapped⟩
    | answers | locks | unstored | publishes | withdraws | discards | drops | commits | restores => cases fetching
  · exact kept.fetching other digest fetching

private theorem Kept.published_move [DecidableEq ι] (other : ι) (plan : PublishPlan)
    (acknowledged : (if other = thread then next else system.points other) = .answered .published)
    (plans : (reqs other).Plans server plan) : ∃ index, after.crates.Lists index plan := by
  have extended := kept.sound.extends_move moved
  have onward : (∃ index, system.shared.crates.Lists index plan) →
      ∃ index, after.crates.Lists index plan := by
    intro before
    obtain ⟨index, listed⟩ := before
    exact ⟨index, listed.extends extended⟩
  split at acknowledged
  · rename_i same
    subst same
    cases moved with
    | stays => exact kept.published other plan acknowledged plans
    | publishes added blobs disk storing stored =>
      rw [plans_unique plans (kept.sound.storing other added storing).1]
      exact CrateMap.lists_addVersion _ _
    | answers answer idle quiet =>
      cases acknowledged
      exact absurd trivial quiet
    | finds | locks | unstored | withdraws | discards | drops | commits | restores => cases acknowledged
  · exact onward (kept.published other plan acknowledged plans)

end Step

section Runs

variable [DecidableEq ι]

/-- A turn keeps all this. -/
theorem Kept.turn (kept : Kept server reqs system) (step : ι × CargoEvent ω) :
    Kept server reqs (Interleaving.turn (server.program reqs) system step) := by
  have moved := moves_of_sound kept.sound step
  exact ⟨kept.sound.turn step, kept.held_move moved, kept.holding_move moved, kept.fetching_move moved,
    kept.published_move moved⟩

private theorem kept_run (blobs : InMemoryBlobStore) (disk : ω) (events : List (ι × CargoEvent ω)) :
    Kept server reqs (run (server.program reqs) (CargoSystem.opening blobs disk) events) :=
  run_invariant (fun _ step kept => kept.turn step)
    ⟨sound_opening blobs disk, nofun, fun _ holds => holds.elim, nofun, nofun⟩ events

private theorem lists_turn (kept : Kept server reqs system) (listed : system.shared.crates.Lists index plan)
    (step : ι × CargoEvent ω) :
    (Interleaving.turn (server.program reqs) system step).shared.crates.Lists index plan :=
  listed.extends (kept.sound.extends_move (moves_of_sound kept.sound step))

private theorem lists_run (kept : Kept server reqs system) (listed : system.shared.crates.Lists index plan)
    (events : List (ι × CargoEvent ω)) : let after := run (server.program reqs) system events
    Kept server reqs after ∧ after.shared.crates.Lists index plan :=
  run_invariant
    (fun (system : CargoSystem ω ι) step
        (holds : Kept server reqs system ∧ system.shared.crates.Lists index plan) =>
      ⟨holds.1.turn step, lists_turn holds.1 holds.2 step⟩) ⟨kept, listed⟩ events

end Runs

section Answers

variable {state : CargoState ω ι} {event : CargoEvent ω} {name : String} {body : Bytes}

/-- The answer to a download of a version. -/
def served (plan : PublishPlan) : CargoAnswer :=
  .tarball (tarballHeaders plan.digest plan.tarball) plan.tarball

/-- Why a version is not published again. -/
def rejection (plan other : PublishPlan) : CargoError :=
  if other.name = plan.name then .duplicateVersion other.name other.vers
  else .nameConflict other.name plan.name

private theorem handleDownload_ready (prepared : server.Prepared plan)
    (listed : state.crates.Lists index plan) (spelled : canonicalName name = canonicalName plan.name) :
    handleDownload name plan.vers event state .ready =
      (state, if state.writer.isSome then .ready else .fetching plan.digest) := by
  obtain ⟨record, stored, _, mapped⟩ := listed
  have valid : validateName name = .ok () :=
    validateName_eq_ok.mpr ((isValidName_of_canonicalName_eq spelled).trans prepared.valid)
  have found : state.crates[canonicalName name]? = some record := by
    rw [spelled, ← prepared.key]
    exact stored
  have digest : record.tarballs[plan.vers]? = some plan.digest := by
    rw [← prepared.vers]
    exact mapped
  simp only [handleDownload, withRecord, valid, found, digest]
  split <;> rfl

private theorem handleDownload_fetching {version : String} (healthy : event.fault = none)
    (there : state.blobs.inner[plan.digest]? = some plan.tarball) :
    handleDownload name version event state (.fetching plan.digest) = (state, .answered (served plan)) := by
  simp only [handleDownload, CargoEvent.call, healthy, InMemoryBlobStore.get, there, served]

private theorem checkVacant_eq_error {crates : CrateMap} (consistent : crates.Consistent server.digits)
    (listed : crates.Lists index plan) (prepared : server.Prepared plan) (again : server.Prepared other)
    (key : other.key = plan.key) (vers : other.vers = plan.vers) :
    crates.checkVacant other = .error (rejection plan other) := by
  obtain ⟨record, yanked, stored, there⟩ := listed.entry
  have member := List.mem_of_getElem? there
  obtain ⟨name, _, _, named⟩ := (consistent _ record stored).name
  have called : name = plan.name := (named _ member).symm.trans prepared.name
  obtain ⟨first, rest, shape⟩ := List.exists_cons_of_ne_nil (consistent _ record stored).nonempty
  have front : first.name = plan.name := (named first (shape ▸ List.mem_cons_self)).trans called
  have head : record.entries.head? = some first := by rw [shape]; rfl
  rw [← key] at stored
  simp only [CrateMap.checkVacant, stored, head, rejection]
  by_cases same : other.name = plan.name
  · -- The crate has the name, so the version is what is in the way.
    have agreed : (some first).filter (fun first => decide (first.name ≠ other.name)) = none := by simp [front, same]
    have twice : record.entries.any (fun entry => decide (entry.vers = other.entry.vers)) = true := by
      refine List.any_eq_true.mpr ⟨_, member, decide_eq_true ?_⟩
      exact prepared.vers.trans (vers.symm.trans again.vers.symm)
    rw [agreed, if_pos same]
    exact if_pos twice
  · have conflict : (some first).filter (fun first => decide (first.name ≠ other.name)) = some first := by
      simp [front, Ne.symm same]
    rw [conflict, if_neg same, ← front]

private theorem handlePublish_ready (prepared : server.preparePublish body = .ok other)
    (taken : state.crates.checkVacant other = .error (rejection plan other)) :
    server.handlePublish thread body event state .ready =
      (state, if state.writer.isSome then .ready else .answered (.refused (rejection plan other))) := by
  simp only [handlePublish, prepared, taken]
  split <;> rfl

end Answers

section Immutable

/-- The store has the tarball of a version that is there. -/
theorem Sound.tarball (sound : Sound server reqs system) (listed : system.shared.crates.Lists index plan)
    (distinct : ∀ thread other, (reqs thread).Plans server other → other.digest = plan.digest →
      other.tarball = plan.tarball) : system.shared.blobs.inner[plan.digest]? = some plan.tarball := by
  obtain ⟨record, stored, _, mapped⟩ := listed
  obtain ⟨publisher, other, plans, same, there⟩ :=
    sound.backed plan.digest ⟨plan.key, record, plan.entry.vers, stored, mapped⟩
  rw [there, distinct publisher other plans same]

/-- How far a download of a version has come that is there. -/
def Serving (plan : PublishPlan) (point : CargoPoint) : Prop :=
  point = .ready ∨ point = .fetching plan.digest ∨ point = .answered (served plan)

/-- How far a publish of a version has come that is there already. -/
def Rejecting (plan other : PublishPlan) (point : CargoPoint) : Prop :=
  point = .ready ∨ point = .answered (.refused (rejection plan other))

variable (kept : Kept server reqs system) (listed : system.shared.crates.Lists index plan)

include kept listed

private theorem serving_of_pending {name : String} (prepared : server.Prepared plan)
    (asked : reqs thread = .download name plan.vers) (spelled : canonicalName name = canonicalName plan.name)
    (pending : (system.points thread).answer = none) : Serving plan (system.points thread) := by
  -- Only a publish gets to the points under the lock.
  have unlocked : ¬ (system.points thread).Holds := by
    intro holds
    obtain ⟨_, ⟨body, publishes, _⟩, _⟩ := kept.holding thread holds
    rw [asked] at publishes
    cases publishes
  cases reached : system.points thread with
  | ready => exact .inl rfl
  | storing | discarding => exact absurd (reached ▸ trivial) unlocked
  | fetching digest =>
    obtain ⟨called, version, record, wanted, stored, mapped⟩ := kept.fetching thread digest reached
    obtain ⟨listing, there, _, own⟩ := listed
    cases asked.symm.trans wanted
    rw [spelled, ← prepared.key, there] at stored
    cases stored
    rw [← prepared.vers, own] at mapped
    cases mapped
    exact .inr (.inl rfl)
  | answered answer =>
    rw [reached] at pending
    cases pending

private theorem rejecting_of_pending (prepared : server.Prepared plan) (plans : (reqs thread).Plans server other)
    (key : other.key = plan.key) (vers : other.vers = plan.vers)
    (pending : (system.points thread).answer = none) : Rejecting plan other (system.points thread) := by
  have taken := checkVacant_eq_error kept.sound.consistent listed prepared (prepared_of_plans plans) key vers
  have unlocked : ¬ (system.points thread).Holds := by
    intro holds
    obtain ⟨own, also, vacant⟩ := kept.holding thread holds
    rw [plans_unique also plans, taken] at vacant
    cases vacant
  cases reached : system.points thread with
  | ready => exact .inl rfl
  | storing | discarding => exact absurd (reached ▸ trivial) unlocked
  | fetching digest =>
    obtain ⟨_, _, _, wanted, _⟩ := kept.fetching thread digest reached
    obtain ⟨_, publishes, _⟩ := plans
    cases publishes.symm.trans wanted
  | answered answer =>
    rw [reached] at pending
    cases pending

end Immutable

section Onward

variable [DecidableEq ι] (kept : Kept server reqs system) (prepared : server.Prepared plan)
  (listed : system.shared.crates.Lists index plan) {step : ι × CargoEvent ω}

include kept prepared listed

/-- No turn takes a second publish of the version off its way to a refusal. -/
private theorem rejecting_turn (plans : (reqs thread).Plans server other)
    (key : other.key = plan.key) (vers : other.vers = plan.vers)
    (rejecting : Rejecting plan other (system.points thread)) :
    Rejecting plan other ((Interleaving.turn (server.program reqs) system step).points thread) := by
  have taken := checkVacant_eq_error kept.sound.consistent listed prepared (prepared_of_plans plans) key vers
  by_cases own : step.1 = thread
  · subst own
    obtain ⟨body, asked, made⟩ := plans
    rw [turn_points_self]
    simp only [program, asked, turn]
    rcases rejecting with ready | answered
    · rw [ready, handlePublish_ready made taken]
      split
      · exact .inl rfl
      · exact .inr rfl
    · rw [answered]
      exact .inr rfl
  · rw [turn_points_of_ne (Ne.symm own)]
    exact rejecting

private theorem rejecting_run (plans : (reqs thread).Plans server other)
    (key : other.key = plan.key) (vers : other.vers = plan.vers)
    (rejecting : Rejecting plan other (system.points thread)) (events : List (ι × CargoEvent ω)) :
    Rejecting plan other
      ((run (server.program reqs) system events).points thread) := by
  have ended := run_invariant
    (fun (system : CargoSystem ω ι) step (holds : Kept server reqs system ∧
        system.shared.crates.Lists index plan ∧ Rejecting plan other (system.points thread)) =>
      ⟨holds.1.turn step, lists_turn holds.1 holds.2.1 step,
        rejecting_turn holds.1 prepared holds.2.1 plans key vers holds.2.2⟩)
    ⟨kept, listed, rejecting⟩ events
  exact ended.2.2

variable {name : String}
  (distinct : ∀ thread other, (reqs thread).Plans server other → other.digest = plan.digest →
    other.tarball = plan.tarball) (asked : reqs thread = .download name plan.vers)
  (spelled : canonicalName name = canonicalName plan.name)

include distinct asked spelled

/-- No turn takes a download of the version off its way. -/
private theorem serving_turn (healthy : step.1 = thread → step.2.fault = none)
    (serving : Serving plan (system.points thread)) :
    Serving plan ((Interleaving.turn (server.program reqs) system step).points thread) := by
  by_cases own : step.1 = thread
  · subst own
    rw [turn_points_self]
    simp only [program, asked, turn]
    rcases serving with ready | fetching | answered
    · rw [ready, handleDownload_ready prepared listed spelled]
      split
      · exact .inl rfl
      · exact .inr (.inl rfl)
    · rw [fetching, handleDownload_fetching (healthy rfl) (kept.sound.tarball listed distinct)]
      exact .inr (.inr rfl)
    · rw [answered]
      exact .inr (.inr rfl)
  · rw [turn_points_of_ne (Ne.symm own)]
    exact serving

private theorem serving_run (serving : Serving plan (system.points thread))
    {events : List (ι × CargoEvent ω)} (healthy : ∀ step ∈ events, step.1 = thread → step.2.fault = none) :
    Serving plan ((run (server.program reqs) system events).points thread) := by
  have ended := run_invariant_of_forall
    (fun (system : CargoSystem ω ι) step fine (holds : Kept server reqs system ∧
        system.shared.crates.Lists index plan ∧ Serving plan (system.points thread)) =>
      ⟨holds.1.turn step, lists_turn holds.1 holds.2.1 step,
        serving_turn holds.1 prepared holds.2.1 distinct asked spelled fine holds.2.2⟩)
    ⟨kept, listed, serving⟩ healthy
  exact ended.2.2

end Onward

/-- The lock is given back in two turns. -/
theorem Kept.released [DecidableEq ι] (kept : Kept server reqs system) {holder : ι}
    (locked : system.shared.writer = some holder) (first second : CargoEvent ω) :
    (run (server.program reqs) system [(holder, first), (holder, second)]).shared.writer = none := by
  have holds := kept.held holder locked
  obtain ⟨_, ⟨body, asked, _⟩, _⟩ := kept.holding holder holds
  let middle := server.handlePublish holder body first system.shared (system.points holder)
  -- The second turn begins where the first one ends.
  have twice : (run (server.program reqs) system [(holder, first), (holder, second)]).shared =
      (server.handlePublish holder body second middle.1 middle.2).1 := by
    simp only [run, List.foldl_cons, List.foldl_nil, Interleaving.turn, program, asked, if_true]
    rfl
  have rest : middle.1.writer = none ∧ (∃ answer, middle.2 = .answered answer) ∨
      ∃ digest reason, middle.2 = .discarding digest reason := by
    cases reached : system.points holder with
    | storing plan =>
      simp only [middle, reached, handlePublish]
      split
      · exact .inl ⟨rfl, _, rfl⟩
      · split
        · exact .inl ⟨rfl, _, rfl⟩
        · split
          · exact .inl ⟨rfl, _, rfl⟩
          · exact .inr ⟨_, _, rfl⟩
    | discarding digest reason =>
      simp only [middle, reached, handlePublish]
      split <;> exact .inl ⟨rfl, _, rfl⟩
    | ready | fetching | answered =>
      rw [reached] at holds
      exact holds.elim
  rw [twice]
  rcases rest with ⟨free, answer, ended⟩ | ⟨digest, reason, discarding⟩
  · rw [ended]
    exact free
  · rw [discarding]
    simp only [handlePublish]
    split <;> rfl

variable (server) [DecidableEq ι] (reqs : ι → CargoRequest)

/-- Once a publish has been acknowledged, its entry stays where it is and changes in its flag only, every
download under any spelling of the name ends with its tarball unless the store fails, and every publish of the
version that has not ended is refused. -/
theorem published_immutable (blobs : InMemoryBlobStore) (disk : ω) (earlier : List (ι × CargoEvent ω))
    {publisher : ι} {plan : PublishPlan} (plans : (reqs publisher).Plans server plan)
    (acknowledged : (run (server.program reqs) (CargoSystem.opening blobs disk)
      earlier).points publisher = .answered .published)
    (distinct : ∀ thread other, (reqs thread).Plans server other → other.digest = plan.digest →
      other.tarball = plan.tarball) :
    let before := run (server.program reqs) (CargoSystem.opening blobs disk) earlier
    ∃ index : Nat, ∀ later : List (ι × CargoEvent ω),
      let system := run (server.program reqs) before later
      (∃ record yanked, system.shared.crates[plan.key]? = some record ∧
        record.entries[index]? = some { plan.entry with yanked := yanked }) ∧
      (∀ thread name, reqs thread = .download name plan.vers →
        canonicalName name = canonicalName plan.name → (before.points thread).answer = none →
        ((∀ step ∈ later, step.1 = thread → step.2.fault = none) → Serving plan (system.points thread)) ∧
        (system.points thread = .ready → system.shared.writer = none →
          ∀ first second : CargoEvent ω, second.fault = none → (run (server.program reqs) system
              [(thread, first), (thread, second)]).points thread = .answered (served plan))) ∧
      (∀ thread other, (reqs thread).Plans server other →
        canonicalName other.name = canonicalName plan.name → other.vers = plan.vers →
        (before.points thread).answer = none → Rejecting plan other (system.points thread) ∧
        (system.points thread = .ready → system.shared.writer = none → ∀ event : CargoEvent ω,
          (Interleaving.turn (server.program reqs) system (thread, event)).points thread =
            .answered (.refused (rejection plan other)))) ∧
      -- Nobody waits for the lock for ever.
      ∀ holder, system.shared.writer = some holder → ∀ first second : CargoEvent ω,
        (run (server.program reqs) system [(holder, first), (holder, second)]).shared.writer = none := by
  intro before
  have kept : Kept server reqs before := kept_run blobs disk earlier
  have prepared := prepared_of_plans plans
  obtain ⟨index, listed⟩ := kept.published publisher plan acknowledged plans
  refine ⟨index, ?_⟩
  intro later system
  -- The state after the later turns is as good as that at the acknowledgement.
  have both : Kept server reqs system ∧ system.shared.crates.Lists index plan :=
    lists_run kept listed later
  refine ⟨both.2.entry, ?_, ?_, fun holder locked => both.1.released locked⟩
  · intro thread name asked spelled pending
    constructor
    · intro healthy
      exact serving_run kept prepared listed distinct asked spelled
        (serving_of_pending kept listed prepared asked spelled pending) healthy
    · intro ready free first second healthy
      have found : handleDownload name plan.vers first system.shared .ready =
          (system.shared, .fetching plan.digest) := by
        rw [handleDownload_ready prepared both.2 spelled, free]
        rfl
      have fetched : handleDownload name plan.vers second system.shared (.fetching plan.digest) =
          (system.shared, .answered (served plan)) :=
        handleDownload_fetching healthy (both.1.sound.tarball both.2 distinct)
      simp only [run, List.foldl_cons, List.foldl_nil, Interleaving.turn, program, asked, turn,
        if_true, ready, found, fetched]
  · intro thread other also spelled vers pending
    have key : other.key = plan.key := by
      rw [(prepared_of_plans also).key, prepared.key, spelled]
    constructor
    · exact rejecting_run kept prepared listed also key vers
        (rejecting_of_pending kept listed prepared also key vers pending) later
    · intro ready free event
      have taken := checkVacant_eq_error both.1.sound.consistent both.2 prepared (prepared_of_plans also)
        key vers
      obtain ⟨body, asked, made⟩ := also
      rw [turn_points_self]
      simp only [program, asked, turn, ready]
      rw [handlePublish_ready made taken, free]
      rfl

/-- The first publish of the demonstration is acknowledged; a failed publish with the same tarball and a yank
come before the download, which gets the tarball, and a publish of the version under another spelling is
refused. -/
theorem published_immutable_demo :
    let system := run (demo.program demoRequests) (CargoSystem.opening .new ()) demoEvents
    ∃ (plan other : PublishPlan) (index : Nat), demo.preparePublish (demoBody 0) = .ok plan ∧
      demo.preparePublish (demoBody 2) = .ok other ∧ plan.tarball = [7] ∧
      (∃ record yanked, system.shared.crates[plan.key]? = some record ∧
        record.entries[index]? = some { plan.entry with yanked := yanked }) ∧
      system.points 5 = .answered (served plan) ∧
      system.points 4 = .answered (.refused (rejection plan other)) := by
  intro system
  -- All three manifests come with the same tarball, two of them for one version.
  have parsed : (demo.preparePublish (demoBody 0)).toOption.map
        (fun plan => (plan.tarball, canonicalName plan.name, plan.vers)) = some ([7], "foo_bar", "1.0.0") ∧
      (demo.preparePublish (demoBody 1)).toOption.map (fun plan => plan.tarball) = some [7] ∧
      (demo.preparePublish (demoBody 2)).toOption.map
        (fun plan => (plan.tarball, canonicalName plan.name, plan.vers)) = some ([7], "foo_bar", "1.0.0") ∧
      canonicalName "foo_bar" = "foo_bar" := by
    decide +kernel
  have evaluated :
      let before := run (demo.program demoRequests) (CargoSystem.opening .new ()) (demoEvents.take 2)
      (before.points 0).answer = some .published ∧ (before.points 4).answer = none ∧
        (before.points 5).answer = none ∧ (system.points 4).answer.isSome = true ∧
        (system.points 5).answer.isSome = true := by
    decide +kernel
  obtain ⟨first, second, third, folded⟩ := parsed
  obtain ⟨acknowledged, pendingPublish, pendingDownload, refused, ended⟩ := evaluated
  obtain ⟨plan, made, first⟩ := Fallible.exists_of_toOption_map first
  obtain ⟨other, again, third⟩ := Fallible.exists_of_toOption_map third
  simp only [Prod.mk.injEq] at first third
  obtain ⟨bytes, key, vers⟩ := first
  obtain ⟨sameBytes, sameKey, sameVers⟩ := third
  have distinct : ∀ thread any, (demoRequests thread).Plans demo any → any.digest = plan.digest →
      any.tarball = plan.tarball := by
    intro thread any plans _
    obtain ⟨body, asked, prepared⟩ := plans
    rcases thread with _ | _ | _ | _ | _ | number
    · cases asked
      rw [Except.ok.inj (made.symm.trans prepared)]
    · cases asked
      rw [prepared] at second
      exact (Option.some.inj second).trans bytes.symm
    · cases asked
    · cases asked
    · cases asked
      rw [← Except.ok.inj (again.symm.trans prepared), sameBytes, bytes]
    · cases asked
  obtain ⟨index, later⟩ := published_immutable demo demoRequests .new () (demoEvents.take 2)
    ⟨demoBody 0, rfl, made⟩ (CargoPoint.answer_eq_some.mp acknowledged) distinct
  have whole : run (demo.program demoRequests)
      (run (demo.program demoRequests) (CargoSystem.opening .new ()) (demoEvents.take 2))
      (demoEvents.drop 2) = system := by
    rw [← run_append, List.take_append_drop]
  have onward := later (demoEvents.drop 2)
  simp only [whole] at onward
  obtain ⟨entry, downloads, publishes, _⟩ := onward
  refine ⟨plan, other, index, made, again, bytes, entry, ?_, ?_⟩
  · have serving := (downloads 5 "foo_bar" (by rw [vers]; rfl) (folded.trans key.symm) pendingDownload).1
      (by decide)
    rcases serving with ready | fetching | answered
    · rw [ready] at ended
      cases ended
    · rw [fetching] at ended
      cases ended
    · exact answered
  · have rejecting := (publishes 4 other ⟨demoBody 2, rfl, again⟩ (sameKey.trans key.symm)
      (sameVers.trans vers.symm) pendingPublish).1
    rcases rejecting with ready | answered
    · rw [ready] at refused
      cases refused
    · exact answered

end CargoServer

end FerroProtocols.Cargo
