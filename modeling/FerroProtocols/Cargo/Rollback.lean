import FerroProtocols.Cargo.Immutability

/-! A request that could not be persisted has no effect. -/

namespace FerroProtocols.Cargo

open BlobStore Std SparseMap Interleaving

variable {ω ι : Type}

namespace CargoServer

/-- How far a publish has come since it took the lock. -/
inductive Attempt (origin : CargoState ω ι) (plan : PublishPlan) (state : CargoState ω ι) : CargoPoint → Prop
  | storing (crates : state.crates = origin.crates) (blobs : state.blobs = origin.blobs) :
    Attempt origin plan state (.storing plan)
  | discarding (reason : IoError) (crates : state.crates = origin.crates)
    (blobs : state.blobs.inner = origin.blobs.inner.insert plan.digest plan.tarball)
    (unreferenced : ¬ origin.crates.Referenced plan.digest) :
    Attempt origin plan state (.discarding plan.digest reason)

variable {server : CargoServer} {reqs : ι → CargoRequest} {system : CargoSystem ω ι} {thread : ι}
  {origin state : CargoState ω ι} {plan : PublishPlan}

/-- A publish that goes on holds the lock. -/
theorem Attempt.holds {point : CargoPoint} (attempt : Attempt origin plan state point) : point.Holds := by
  cases attempt <;> trivial

/-- A publish that goes on is not answered. -/
theorem Attempt.answer {point : CargoPoint} (attempt : Attempt origin plan state point) : point.answer = none := by
  cases attempt <;> rfl

/-- A request that has ended takes no more turns. -/
theorem turn_answered {req : CargoRequest} {event : CargoEvent ω} {answer : CargoAnswer} :
    server.turn thread req event state (.answered answer) = (state, .answered answer) := by
  cases req <;> rfl

/-- Turns of the others leave a publish where it is; its own lead on, or end it. -/
theorem Attempt.turn [DecidableEq ι] (sound : Sound server reqs system)
    (attempt : Attempt origin plan system.shared (system.points thread)) (step : ι × CargoEvent ω) :
    let after := Interleaving.turn (server.program reqs) system step
    Attempt origin plan after.shared (after.points thread) ∨ ∃ answer, after.points thread = .answered answer := by
  obtain ⟨after, next, moved, turned⟩ := sound.exists_moves step
  rw [turned]
  dsimp only
  split
  · rename_i own
    subst own
    generalize system.points step.1 = before at attempt moved
    cases moved with
    | stays waits => exact .inl attempt
    | finds name version record digest ready | locks plan ready =>
      subst ready
      exact absurd attempt.holds not_holds_ready
    | discards own blobs disk reason storing stored failed unreferenced =>
      subst storing
      cases attempt with
      | storing crates store =>
        refine .inl (.discarding reason crates ?_ ?_)
        · rw [InMemoryBlobStore.inner_put stored, store]
        · rw [← crates]
          exact unreferenced
    | answers | unstored | publishes | withdraws | drops | commits | restores => exact .inr ⟨_, rfl⟩
  · rename_i other
    obtain ⟨crates, blobs, _⟩ := sound.frame_move moved other attempt.holds
    -- The publish finds everything as it left it.
    generalize system.points thread = before at attempt
    cases attempt with
    | storing same store => exact .inl (.storing (crates.trans same) (blobs.trans store))
    | discarding reason same store unreferenced =>
      refine .inl (.discarding reason (crates.trans same) ?_ unreferenced)
      rw [blobs]
      exact store

/-- What a publish leaves in the store when it ends without an acknowledgement. -/
inductive Leaves (origin : CargoState ω ι) (plan : PublishPlan) (fault : Option BlobStoreError) :
    InMemoryBlobStore → Prop
  | unstored : Leaves origin plan fault origin.blobs
  | shared (blobs : InMemoryBlobStore) (referenced : origin.crates.Referenced plan.digest)
    (stored : blobs.inner = origin.blobs.inner.insert plan.digest plan.tarball) :
    Leaves origin plan fault blobs
  | orphaned (blobs : InMemoryBlobStore) (failed : fault ≠ none) : Leaves origin plan fault blobs
  | deleted (blobs : InMemoryBlobStore) (unreferenced : ¬ origin.crates.Referenced plan.digest)
    (erased : blobs.inner = (origin.blobs.inner.insert plan.digest plan.tarball).erase plan.digest) :
    Leaves origin plan fault blobs

/-- A publish that could not be persisted ends with a refusal, with the crates as it found them. -/
theorem Attempt.ends [DecidableEq ι] (sound : Sound server reqs system)
    (attempt : Attempt origin plan system.shared (system.points thread)) {last : CargoEvent ω}
    (failing : ∀ crates disk, (last.persist crates disk).1 ≠ .ok ()) {answer : CargoAnswer}
    (answered : (Interleaving.turn (server.program reqs) system (thread, last)).points thread = .answered answer) :
    let after := Interleaving.turn (server.program reqs) system (thread, last)
    ¬ answer.Acknowledges ∧ after.shared.crates = origin.crates ∧
      Leaves origin plan last.fault after.shared.blobs := by
  obtain ⟨after, next, moved, turned⟩ := sound.exists_moves (thread, last)
  rw [turned] at answered ⊢
  dsimp only at answered moved ⊢
  rw [if_pos rfl] at answered
  have holds := attempt.holds
  have pending := attempt.answer
  generalize system.points thread = point at attempt moved holds pending
  cases moved with
  | stays waits =>
    rw [answered] at pending
    cases pending
  | answers other idle quiet => exact absurd holds idle
  | finds name version record digest ready | commits crates disk msg ready | restores crates disk error ready =>
    subst ready
    exact absurd holds not_holds_ready
  | locks | discards => cases answered
  | unstored own error storing =>
    subst storing
    cases answered
    cases attempt with
    | storing crates store =>
      refine ⟨id, crates, ?_⟩
      rw [store]
      exact .unstored
  | publishes own blobs disk storing stored written =>
    -- The snapshot would have been written.
    refine absurd ?_ (failing (system.shared.crates.addVersion own) system.shared.disk)
    rw [written]
  | withdraws own blobs disk error storing stored failed referenced =>
    subst storing
    cases answered
    cases attempt with
    | storing crates store =>
      refine ⟨id, crates, .shared _ (crates ▸ referenced) ?_⟩
      rw [InMemoryBlobStore.inner_put stored, store]
  | drops digest reason blobs discarding deleted =>
    subst discarding
    cases answered
    cases attempt with
    | discarding _ crates store unreferenced =>
      refine ⟨id, crates, ?_⟩
      rcases deleted with ⟨_, failed⟩ | rfl
      · exact .orphaned _ failed
      · refine .deleted _ unreferenced ?_
        change system.shared.blobs.inner.erase plan.digest = _
        rw [store]

/-- Where every blob has a version, a publish that was not acknowledged leaves the store as it found it. -/
theorem Leaves.eq {blobs : InMemoryBlobStore} {fault : Option BlobStoreError} (sound : Sound server reqs system)
    (leaves : Leaves system.shared plan fault blobs) (healthy : fault = none)
    (owned : ∀ digest, system.shared.blobs.contains digest = true → system.shared.crates.Referenced digest)
    (distinct : ∀ thread other, (reqs thread).Plans server other → other.digest = plan.digest →
      other.tarball = plan.tarball) : blobs = system.shared.blobs := by
  have same (inner : blobs.inner = system.shared.blobs.inner) : blobs = system.shared.blobs :=
    congrArg InMemoryBlobStore.mk inner
  cases leaves with
  | unstored => rfl
  | orphaned _ failed => exact absurd healthy failed
  | shared _ referenced stored =>
    -- The blob was there, with the bytes that were put over it.
    obtain ⟨publisher, other, plans, digest, there⟩ := sound.backed plan.digest referenced
    rw [distinct publisher other plans digest] at there
    exact same (stored.trans (insert_eq_self there))
  | deleted _ unreferenced erased =>
    have absent : system.shared.blobs.inner[plan.digest]? = none := by
      cases there : system.shared.blobs.inner[plan.digest]? with
      | none => rfl
      | some bytes =>
        refine absurd (owned plan.digest ?_) unreferenced
        exact ExtTreeMap.contains_eq_isSome_getElem?.trans (by rw [there]; rfl)
    have back := putBack_insert system.shared.blobs.inner plan.digest plan.tarball
    rw [absent] at back
    exact same (erased.trans back)

/-- How a request begins that finds the lock free and cannot persist: it is refused, or it is a publish that
takes the lock. -/
theorem begins [DecidableEq ι] (sound : Sound server reqs system)
    (ready : system.points thread = .ready) (free : system.shared.writer = none)
    (writes : ∀ name version, reqs thread ≠ .download name version) {first : CargoEvent ω}
    (failing : ∀ crates disk, (first.persist crates disk).1 ≠ .ok ()) :
    let begun := Interleaving.turn (server.program reqs) system (thread, first)
    (∃ answer, begun.points thread = .answered answer ∧ ¬ answer.Acknowledges ∧
      begun.shared.crates = system.shared.crates ∧ begun.shared.blobs = system.shared.blobs) ∨
    ∃ plan, (reqs thread).Plans server plan ∧ Attempt system.shared plan begun.shared (begun.points thread) := by
  obtain ⟨after, next, moved, turned⟩ := sound.exists_moves (thread, first)
  rw [turned]
  dsimp only at moved ⊢
  rw [if_pos rfl]
  rw [ready] at moved
  cases moved with
  | stays waits =>
    have locked := waits rfl
    rw [free] at locked
    cases locked
  | answers answer idle quiet => exact .inl ⟨answer, rfl, quiet, rfl, rfl⟩
  | finds name version record digest _ asked => exact absurd asked (writes name version)
  | locks plan _ _ planned vacant => exact .inr ⟨plan, planned, .storing rfl rfl⟩
  | commits crates disk msg _ _ changed written =>
    refine absurd ?_ (failing crates system.shared.disk)
    rw [written]
  | restores crates disk error _ changed failed => exact .inl ⟨_, rfl, id, rfl, rfl⟩
  | unstored _ _ impossible | publishes _ _ _ impossible | withdraws _ _ _ _ impossible
  | discards _ _ _ _ impossible | drops _ _ _ impossible => cases impossible

section Runs

variable [DecidableEq ι]

/-- A request that has ended stays so. -/
theorem answered_run {answer : CargoAnswer} (answered : system.points thread = .answered answer)
    (events : List (ι × CargoEvent ω)) :
    (run (server.program reqs) system events).points thread = .answered answer := by
  refine run_invariant (fun (system : CargoSystem ω ι) step
    (holds : system.points thread = .answered answer) => ?_) answered events
  by_cases own : step.1 = thread
  · subst own
    rw [turn_points_self, holds, program, turn_answered]
  · rw [turn_points_of_ne (Ne.symm own)]
    exact holds

/-- A publish that goes on, or has ended, does so for good. -/
theorem Attempt.run (sound : Sound server reqs system)
    (attempt : Attempt origin plan system.shared (system.points thread)) (events : List (ι × CargoEvent ω)) :
    let after := run (server.program reqs) system events
    Sound server reqs after ∧ (Attempt origin plan after.shared (after.points thread) ∨
      ∃ answer, after.points thread = .answered answer) := by
  refine run_invariant (fun (system : CargoSystem ω ι) step
    (holds : Sound server reqs system ∧ (Attempt origin plan system.shared (system.points thread) ∨
      ∃ answer, system.points thread = .answered answer)) => ?_) ⟨sound, .inl attempt⟩ events
  obtain ⟨sound, goes⟩ := holds
  refine ⟨sound.turn step, ?_⟩
  rcases goes with attempt | ⟨answer, answered⟩
  · exact attempt.turn sound step
  · exact .inr ⟨answer, answered_run answered [step]⟩

end Runs

variable (server) [DecidableEq ι] (reqs : ι → CargoRequest)

/-- A request that finds the lock free in some state, and that cannot persist, is not acknowledged; the crates
are then as in that state, and so is the store, if every blob had a version and the blob of the failed publish
could be deleted. -/
theorem unpersisted_has_no_effect (blobs : InMemoryBlobStore) (disk : ω) (events : List (ι × CargoEvent ω))
    (thread : ι) (writes : ∀ name version, reqs thread ≠ .download name version)
    (front : List (ι × CargoEvent ω)) (last : CargoEvent ω) (answer : CargoAnswer) :
    let system := run (server.program reqs) (CargoSystem.opening blobs disk) events
    let steps := front ++ [(thread, last)]
    let after := run (server.program reqs) system steps
    -- The request begins with the first of these turns, and it is answered in the last one.
    system.points thread = .ready → system.shared.writer = none →
    (∀ step ∈ front.head?, step.1 = thread) →
    ((run (server.program reqs) system front).points thread).answer = none →
    after.points thread = .answered answer →
    (∀ step ∈ steps, step.1 = thread → ∀ crates disk, (step.2.persist crates disk).1 ≠ .ok ()) →
    ¬ answer.Acknowledges ∧ after.shared.crates = system.shared.crates ∧
      ((∀ digest, system.shared.blobs.contains digest = true → system.shared.crates.Referenced digest) →
        last.fault = none →
        (∀ other first second, (reqs thread).Plans server first → (reqs other).Plans server second →
          second.digest = first.digest → second.tarball = first.tarball) →
        after.shared.blobs = system.shared.blobs) := by
  intro system steps after ready free begun pending answered failing
  have sound : Sound server reqs system := sound_run blobs disk events
  cases front with
  | nil =>
    -- The first turn is the last one.
    rcases begins sound ready free writes (failing _ (List.mem_singleton_self _) rfl) with
      ⟨other, ended, quiet, crates, store⟩ | ⟨plan, _, attempt⟩
    · cases answered.symm.trans ended
      exact ⟨quiet, crates, fun _ _ _ => store⟩
    · have goes : (after.points thread).answer = none := attempt.answer
      rw [answered] at goes
      cases goes
  | cons step rest =>
    obtain ⟨owner, first⟩ := step
    obtain rfl : owner = thread := begun (owner, first) rfl
    let next := Interleaving.turn (server.program reqs) system (owner, first)
    let underway := run (server.program reqs) next rest
    change (underway.points owner).answer = none at pending
    rcases begins sound ready free writes (failing _ List.mem_cons_self rfl) with
      ⟨other, ended, _⟩ | ⟨plan, plans, attempt⟩
    · -- There would have been nothing left to answer.
      have still : underway.points owner = .answered other := answered_run ended rest
      rw [still] at pending
      cases pending
    · obtain ⟨later, goes⟩ : Sound server reqs underway ∧ _ := attempt.run (sound.turn (owner, first)) rest
      rcases goes with attempt | ⟨other, ended⟩
      · have whole : after = Interleaving.turn (server.program reqs) underway (owner, last) :=
          run_append _ system ((owner, first) :: rest) [(owner, last)]
        rw [whole] at answered
        have own : (owner, last) ∈ steps := List.mem_append_right _ (List.mem_singleton_self _)
        obtain ⟨quiet, crates, leaves⟩ := attempt.ends later (failing _ own rfl) answered
        rw [← whole] at crates leaves
        refine ⟨quiet, crates, ?_⟩
        intro owned healthy distinct
        exact leaves.eq sound healthy owned fun other second also => distinct other plan second plans also
      · rw [ended] at pending
        cases pending

section Witness

/-- The second publish of the demonstration has a tarball of its own. -/
def failingRequests : Nat → CargoRequest
  | 1 => .publish (demoPublish 1 [7, 7])
  | number => demoRequests number

/-- A publish with a tarball of its own stores it, fails to persist, and deletes it again; crates and store
are as after the publish before it. -/
theorem unpersisted_has_no_effect_demo :
    let system := run (demo.program failingRequests) (CargoSystem.opening .new ())
      [persisted 0, persisted 0]
    let after := run (demo.program failingRequests) system
      ([unpersisted 1, persisted 5, unpersisted 1] ++ [unpersisted 1])
    (after.points 1).answer = some (.refused (.persistence "no space left on device")) ∧
      after.shared.crates = system.shared.crates ∧ after.shared.blobs = system.shared.blobs := by
  intro system after
  have evaluated : (system.points 1).answer = none ∧ system.shared.writer = none ∧
      system.shared.blobs.list.all system.shared.crates.digestReferencedIn = true ∧
      ((run (demo.program failingRequests) system [unpersisted 1, persisted 5, unpersisted 1]).points
        1).answer = none ∧
      (after.points 1).answer = some (.refused (.persistence "no space left on device")) := by
    decide +kernel
  have parsed : (demo.preparePublish (demoBody 0)).toOption.map PublishPlan.digest =
        some (demo.hashes.digestOf .sha256 [7]) ∧
      (demo.preparePublish (demoBody 2)).toOption.map PublishPlan.digest =
        some (demo.hashes.digestOf .sha256 [7]) ∧
      (demo.preparePublish (demoPublish 1 [7, 7])).toOption.map PublishPlan.digest =
        some (demo.hashes.digestOf .sha256 [7, 7]) ∧
      demo.hashes.digestOf .sha256 [7] ≠ demo.hashes.digestOf .sha256 [7, 7] := by
    decide +kernel
  obtain ⟨_, free, referenced, pending, answered⟩ := evaluated
  obtain ⟨first, third, second, different⟩ := parsed
  have failing : ∀ step ∈ [unpersisted 1, persisted 5, unpersisted 1] ++ [(1, (unpersisted 1).2)],
      step.1 = 1 → ∀ crates disk, (step.2.persist crates disk).1 ≠ .ok () := by
    intro step member own
    simp only [List.cons_append, List.nil_append, List.mem_cons, List.not_mem_nil, or_false] at member
    rcases member with rfl | rfl | rfl | rfl
    · exact fun _ _ => nofun
    · cases own
    · exact fun _ _ => nofun
    · exact fun _ _ => nofun
  obtain ⟨_, crates, store⟩ := unpersisted_has_no_effect demo failingRequests .new ()
    [persisted 0, persisted 0] 1 nofun [unpersisted 1, persisted 5, unpersisted 1]
    (unpersisted 1).2 (.refused (.persistence "no space left on device")) rfl free
    (by decide) pending (CargoPoint.answer_eq_some.mp answered) failing
  refine ⟨answered, crates, store ?_ rfl ?_⟩
  · intro digest there
    have member : digest ∈ system.shared.blobs.list :=
      ExtTreeMap.mem_keys.mpr (ExtTreeMap.contains_iff_mem.mp there)
    exact CrateMap.digestReferencedIn_iff.mp (List.all_eq_true.mp referenced digest member)
  · -- No other publish has the digest of the one that fails.
    intro other own also planned plans same
    obtain ⟨body, asked, made⟩ := planned
    cases asked
    rw [made] at second
    rw [Option.some.inj second] at same
    obtain ⟨again, askedAgain, madeAgain⟩ := plans
    match other with
    | 0 =>
      cases askedAgain
      rw [madeAgain] at first
      exact absurd ((Option.some.inj first).symm.trans same) different
    | 1 =>
      cases askedAgain
      rw [Except.ok.inj (made.symm.trans madeAgain)]
    | 4 =>
      cases askedAgain
      rw [madeAgain] at third
      exact absurd ((Option.some.inj third).symm.trans same) different
    | 2 | 3 | number + 5 => cases askedAgain

end Witness

end CargoServer

end FerroProtocols.Cargo
