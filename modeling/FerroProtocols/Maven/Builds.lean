import FerroProtocols.Lib.Runs
import FerroProtocols.Maven.Alone

/-! The numbers of the builds of SNAPSHOT versions, and the entries of their files. -/

namespace FerroProtocols.Maven

open BlobStore Std Interleaving MavenServer MavenRequest

variable {ι : Type}

section Numbers

variable (reqs : ι → MavenRequest) (key : CounterKey)

/-- The number that a turn assigns under a key. -/
def assigned (system : State ι (MavenState ι) MavenPoint) (event : ι × MavenEvent) : List Nat :=
  if system.points event.1 = .counting ∧ (reqs event.1).counter = some key then [system.shared.nextBuild key] else []

/-- The numbers that are assigned under a key, in their order. -/
def assignedAlong [DecidableEq ι] (server : MavenServer) (system : State ι (MavenState ι) MavenPoint)
    (events : List (ι × MavenEvent)) : List Nat :=
  Runs.collect (turn (server.program reqs)) (assigned reqs key) system events

end Numbers

/-- No build with a number is entered under a key. -/
def Unused (key : CounterKey) (buildNumber : Nat) (layout : ExtTreeMap String Digest) : Prop :=
  '/' ∉ key.repo.toList → ∀ (coord : Coordinate) (time : DateTime),
    isSnapshotVersion coord.version = true → coord.counterKey key.repo = key → time.FourDigits →
    coord.timestampedKey time buildNumber key.repo ∉ layout

/-- An entry of the file of a build. -/
def IsBuildEntry (entry : String) : Prop :=
  ∃ (coord : Coordinate) (time : DateTime) (buildNumber : Nat) (repo : String),
    isSnapshotVersion coord.version = true ∧ entry = coord.timestampedKey time buildNumber repo

/-- No number is awaited or held. -/
def MavenPoint.Unnumbered : MavenPoint → Prop
  | .counting | .registering _ => False
  | _ => True

/-- What a turn does to the numbers and the entries of builds. -/
inductive Numbers (req : MavenRequest) (event : MavenEvent) (state : MavenState ι) (point : MavenPoint) :
    MavenState ι × MavenPoint → Prop
  | quiet (after : MavenState ι) (next : MavenPoint) (idle : point ≠ .counting)
    (entries : ∀ entry ∈ after.layout, entry ∈ state.layout ∨ ¬ IsBuildEntry entry)
    (counters : after.snapshotCounter = state.snapshotCounter)
    (same : next = point ∨ ∀ buildNumber, next ≠ .registering buildNumber)
    (counted : next = .counting → ∃ key, req.counter = some key) :
    Numbers req event state point (after, next)
  | counts (key : CounterKey) (counting : point = .counting) (counted : req.counter = some key) :
    Numbers req event state point (state.count key, .registering (state.nextBuild key))
  | registers (repo path : String) (coord : Coordinate) (body : Bytes) (digest : Digest) (buildNumber : Nat)
    (registering : point = .registering buildNumber) (upload : req.Uploads repo path coord body) :
    Numbers req event state point
      (state.enter (coord.timestampedKey event.now buildNumber repo) digest, .announcing buildNumber event.now)

private theorem MavenPoint.Reads.unnumbered {point : MavenPoint} (reading : point.Reads) : point.Unnumbered := by
  cases point with
  | counting | registering => exact reading
  | _ => trivial

private theorem not_isBuildEntry {repo path : String} {other : Coordinate} {checksum : Option ChecksumAlgo}
    (parsed : parseLayoutPath path = .ok ⟨other, fileClass checksum⟩) : ¬ IsBuildEntry (buildKey repo path) := by
  rintro ⟨coord, time, buildNumber, repo', snapshot, same⟩
  exact timestampedKey_ne_buildKey snapshot parsed same.symm

variable {state : MavenState ι} {buildNumber : Nat}

private theorem MavenState.of_mem_enter {key entry : String} {digest : Digest}
    (member : entry ∈ (state.enter key digest).layout) : key = entry ∨ entry ∈ state.layout := by
  rw [MavenState.enter, ExtTreeMap.mem_insert, LawfulEqCmp.compare_eq_iff_eq] at member
  exact member

private theorem step_numbers (server : MavenServer) (thread : ι) (req : MavenRequest) (event : MavenEvent)
    (state : MavenState ι) (point : MavenPoint) (counted : point = .counting → ∃ key, req.counter = some key) :
    Numbers req event state point (server.step thread req event state point) := by
  by_cases counting : point = .counting
  · -- A build that is to be counted is counted at once.
    obtain ⟨key, under⟩ := counted counting
    obtain ⟨repo, path, coord, body, upload, snapshot, rfl⟩ := counter_eq_some_iff.mp under
    rw [counting, upload.asked]
    change Numbers _ event state _ (server.handle thread (.put repo path body) event state .counting)
    rw [handle_counts upload.parsed]
    exact .counts _ rfl (upload.asked ▸ under)
  · have silent {after : MavenState ι} {next : MavenPoint}
        (entries : ∀ entry ∈ after.layout, entry ∈ state.layout ∨ ¬ IsBuildEntry entry)
        (counters : after.snapshotCounter = state.snapshotCounter)
        (passed : next.Unnumbered) : Numbers req event state point (after, next) := by
      refine .quiet after next counting entries counters (.inr ?_) ?_
      · rintro buildNumber rfl
        exact passed
      · rintro rfl
        exact passed.elim
    have enters (checksum : Option ChecksumAlgo) {repo path : String} {other : Coordinate} {digest : Digest}
        (parsed : parseLayoutPath path = .ok ⟨other, fileClass checksum⟩) :
        ∀ entry ∈ (state.enter (buildKey repo path) digest).layout, entry ∈ state.layout ∨ ¬ IsBuildEntry entry := by
      intro entry member
      rcases MavenState.of_mem_enter member with rfl | before
      · exact .inr (not_isBuildEntry parsed)
      · exact .inl before
    have erased {key : String} : ∀ entry ∈ state.layout.erase key, entry ∈ state.layout ∨ ¬ IsBuildEntry entry :=
      fun entry member => .inl (ExtTreeMap.mem_of_mem_erase member)
    have move := server.step_moves thread req event state point
    generalize server.step thread req event state point = result at move ⊢
    cases move with
    | stays => exact .quiet _ _ counting (fun _ => .inl) rfl (.inl rfl) fun same => absurd same counting
    | refuses | announces | scans | indexes | compares | stages | verifies | keeps | documents | drops | fails =>
      exact silent (fun _ => .inl) rfl trivial
    | reads _ _ _ next _ reading => exact silent (fun _ => .inl) rfl reading.unnumbered
    | stores repo path coord body blobs ready upload =>
      refine .quiet _ _ counting (fun _ => .inl) rfl (.inr ?_) fun same => ?_
      · intro buildNumber
        split <;> simp
      · -- Only a SNAPSHOT version goes on to be counted.
        refine ⟨coord.counterKey repo, counter_eq_some_iff.mpr ⟨repo, path, coord, body, upload, ?_, rfl⟩⟩
        by_contra release
        rw [if_neg release] at same
        cases same
    | counts _ _ _ _ now => exact absurd now counting
    | registers repo path coord body buildNumber registering upload =>
      exact .registers repo path coord body _ buildNumber registering upload
    | inserts repo path coord body inserting upload => exact silent (enters none upload.parsed) rfl trivial
    | links repo path algo body linking attached =>
      obtain ⟨coord, parsed⟩ := attached.parsed
      exact silent (enters (some algo) parsed) rfl trivial
    | unlinks | locks => exact silent erased rfl trivial

/-- The counters are the numbers of builds that were counted, and only builds are counted. -/
structure Counted (reqs : ι → MavenRequest) (counted : CounterKey → Nat)
    (system : State ι (MavenState ι) MavenPoint) : Prop where
  counters : ∀ key, system.shared.snapshotCounter[key]?.getD 0 = counted key
  counting : ∀ thread, system.points thread = .counting → ∃ key, (reqs thread).counter = some key

/-- The builds that have a number and are not entered yet have numbers of their own, under which nothing is
entered. -/
structure Numbered (reqs : ι → MavenRequest) (counted : CounterKey → Nat)
    (system : State ι (MavenState ι) MavenPoint) : Prop where
  registering : ∀ thread buildNumber, system.points thread = .registering buildNumber →
    ∃ key, (reqs thread).counter = some key ∧ buildNumber ≤ counted key ∧
      Unused key buildNumber system.shared.layout
  distinct : ∀ thread other buildNumber key, system.points thread = .registering buildNumber →
    system.points other = .registering buildNumber → (reqs thread).counter = some key →
    (reqs other).counter = some key → thread = other
  coming : ∀ key buildNumber, counted key < buildNumber → Unused key buildNumber system.shared.layout

/-- Entries that are not of builds do not use numbers. -/
theorem Unused.mono {key : CounterKey} {layout after : ExtTreeMap String Digest}
    (unused : Unused key buildNumber layout)
    (entries : ∀ entry ∈ after, entry ∈ layout ∨ ¬ IsBuildEntry entry) : Unused key buildNumber after := by
  intro whole coord time snapshot counted year member
  rcases entries _ member with before | other
  · exact unused whole coord time snapshot counted year before
  · exact other ⟨coord, time, buildNumber, key.repo, snapshot, rfl⟩

/-- The entry of a build uses its own number under its own key, and no other. -/
theorem Unused.enter {key : CounterKey} {number : Nat} {coord : Coordinate}
    {time : DateTime} {repo : String} {digest : Digest} (unused : Unused key number state.layout)
    (whole : '/' ∉ repo.toList) (year : time.FourDigits)
    (other : coord.counterKey repo = key → buildNumber ≠ number) :
    Unused key number (state.enter (coord.timestampedKey time buildNumber repo) digest).layout := by
  intro whole' coordinate' time' snapshot counted year' member
  rcases MavenState.of_mem_enter member with same | before
  · obtain ⟨keys, numbers⟩ := timestampedKey_inj whole whole' year year' same
    exact other (keys.trans counted) numbers
  · exact unused whole' coordinate' time' snapshot counted year' before

section Turns

variable {reqs : ι → MavenRequest} {counted : CounterKey → Nat} {system : State ι (MavenState ι) MavenPoint}
  {event : ι × MavenEvent}

/-- The builds that are counted after a turn. -/
def countedAfter (reqs : ι → MavenRequest) (counted : CounterKey → Nat)
    (system : State ι (MavenState ι) MavenPoint) (event : ι × MavenEvent) (key : CounterKey) : Nat :=
  counted key + (assigned reqs key system event).length

/-- Without a build to count nothing is counted. -/
theorem countedAfter_of_ne (idle : system.points event.1 ≠ .counting) :
    countedAfter reqs counted system event = counted := by
  funext key
  rw [countedAfter, assigned, if_neg fun both => idle both.1]
  rfl

/-- A build is counted under its own key. -/
theorem countedAfter_of_counting {own : CounterKey} (counting : system.points event.1 = .counting)
    (under : (reqs event.1).counter = some own) (key : CounterKey) :
    countedAfter reqs counted system event key = if own = key then counted key + 1 else counted key := by
  rw [countedAfter, assigned, under]
  by_cases same : own = key
  · rw [if_pos same, if_pos ⟨counting, congrArg some same⟩]
    rfl
  · rw [if_neg same, if_neg fun both => same (Option.some.inj both.2)]
    rfl

private theorem Counted.nextBuild_eq (base : Counted reqs counted system) {key : CounterKey}
    (few : counted key + 1 < buildNumberModulus) : system.shared.nextBuild key = counted key + 1 := by
  rw [MavenState.nextBuild, base.counters, Nat.mod_eq_of_lt few]

variable (base : Counted reqs counted system)
  (few : ∀ key, countedAfter reqs counted system event key < buildNumberModulus)

include base few

/-- The number of a build that is counted, while numbers are left. -/
theorem Counted.nextBuild_of_counting {key : CounterKey} (counting : system.points event.1 = .counting)
    (under : (reqs event.1).counter = some key) :
    system.shared.nextBuild key = counted key + 1 := by
  have bound := few key
  rw [countedAfter_of_counting counting under, if_pos rfl] at bound
  exact base.nextBuild_eq bound

variable {result : MavenState ι × MavenPoint}

/-- Every turn counts what it assigns a number to. -/
theorem Counted.advance [DecidableEq ι]
    (numbers : Numbers (reqs event.1) event.2 system.shared (system.points event.1) result) :
    Counted reqs (countedAfter reqs counted system event)
      ⟨result.1, fun thread => if thread = event.1 then result.2 else system.points thread⟩ := by
  -- Only the thread that takes the turn can come to be counted.
  have others {next : MavenPoint} (own : next = .counting → ∃ key, (reqs event.1).counter = some key) :
      ∀ thread, (if thread = event.1 then next else system.points thread) = .counting →
        ∃ key, (reqs thread).counter = some key := by
    intro thread reached
    split at reached
    · rename_i same
      rw [same]
      exact own reached
    · exact base.counting thread reached
  cases numbers with
  | quiet after next idle entries counters same under =>
    rw [countedAfter_of_ne idle]
    refine ⟨fun key => ?_, others under⟩
    rw [← base.counters key, counters]
  | counts key counting under =>
    refine ⟨fun other => ?_, others nofun⟩
    change (system.shared.count key).snapshotCounter[other]?.getD 0 = _
    rw [MavenState.getElem?_count, countedAfter_of_counting counting under]
    by_cases same : key = other
    · rw [if_pos same, if_pos same, Option.getD_some, base.nextBuild_of_counting few counting under, same]
    · rw [if_neg same, if_neg same, base.counters]
  | registers repo path coord body digest buildNumber registering upload =>
    rw [countedAfter_of_ne (by rw [registering]; exact nofun)]
    exact ⟨base.counters, others nofun⟩

/-- Every turn keeps the numbers apart. -/
theorem Numbered.advance [DecidableEq ι] (numbered : Numbered reqs counted system)
    (whole : ∀ thread key, (reqs thread).counter = some key → '/' ∉ key.repo.toList)
    (numbers : Numbers (reqs event.1) event.2 system.shared (system.points event.1) result)
    (year : event.2.now.FourDigits) :
    Numbered reqs (countedAfter reqs counted system event)
      ⟨result.1, fun thread => if thread = event.1 then result.2 else system.points thread⟩ := by
  cases numbers with
  | quiet after next idle entries counters same under =>
    rw [countedAfter_of_ne idle]
    -- Whoever is to be entered has been so before.
    have back {thread : ι} {buildNumber : Nat}
        (reached : (if thread = event.1 then next else system.points thread) = .registering buildNumber) :
        system.points thread = .registering buildNumber := by
      split at reached
      · rename_i own
        rcases same with same | passed
        · rw [own, ← same, reached]
        · exact absurd reached (passed buildNumber)
      · exact reached
    refine ⟨?_, ?_, ?_⟩
    · intro thread buildNumber reached
      obtain ⟨key, counts, bound, unused⟩ := numbered.registering thread buildNumber (back reached)
      exact ⟨key, counts, bound, unused.mono entries⟩
    · exact fun thread other buildNumber key one two =>
        numbered.distinct thread other buildNumber key (back one) (back two)
    · exact fun key buildNumber above => (numbered.coming key buildNumber above).mono entries
  | counts key counting under =>
    have after : ∀ other, countedAfter reqs counted system event other =
        if key = other then counted other + 1 else counted other := countedAfter_of_counting counting under
    have number := base.nextBuild_of_counting few counting under
    have grown (other : CounterKey) : counted other ≤ countedAfter reqs counted system event other := by
      rw [after]
      split <;> omega
    -- The number is the next one, and all others are smaller.
    have apart {thread : ι} {buildNumber : Nat} {common : CounterKey}
        (reached : system.points thread = .registering buildNumber) (theirs : (reqs thread).counter = some common)
        (mine : (reqs event.1).counter = some common) : buildNumber ≠ system.shared.nextBuild key := by
      obtain ⟨found, counts, bound, -⟩ := numbered.registering thread buildNumber reached
      obtain rfl := Option.some.inj (theirs.symm.trans counts)
      obtain rfl := Option.some.inj (mine.symm.trans under)
      omega
    refine ⟨?_, ?_, ?_⟩
    · intro thread buildNumber reached
      change (if thread = event.1 then .registering _ else system.points thread) =
        MavenPoint.registering _ at reached
      split at reached
      · rename_i own
        obtain rfl := MavenPoint.registering.inj reached
        refine ⟨key, own ▸ under, ?_, numbered.coming key _ (by omega)⟩
        rw [after, if_pos rfl]
        omega
      · obtain ⟨found, counts, bound, unused⟩ := numbered.registering thread buildNumber reached
        exact ⟨found, counts, bound.trans (grown found), unused⟩
    · intro thread other buildNumber common one two first second
      change (if thread = event.1 then .registering _ else system.points thread) = MavenPoint.registering _ at one
      change (if other = event.1 then .registering _ else system.points other) = MavenPoint.registering _ at two
      split at one <;> split at two
      · rename_i own own'
        rw [own, own']
      · rename_i own _
        exact absurd (MavenPoint.registering.inj one).symm (apart two second (own ▸ first))
      · rename_i _ own
        exact absurd (MavenPoint.registering.inj two).symm (apart one first (own ▸ second))
      · exact numbered.distinct thread other buildNumber common one two first second
    · exact fun other buildNumber above => numbered.coming other buildNumber ((grown other).trans_lt above)
  | registers repo path coord body digest buildNumber registering upload =>
    rw [countedAfter_of_ne (by rw [registering]; exact nofun)]
    obtain ⟨key, counts, bound, unused⟩ := numbered.registering event.1 buildNumber registering
    obtain ⟨_, _, _, _, same, snapshot, rfl⟩ := counter_eq_some_iff.mp counts
    obtain ⟨rfl, rfl, rfl, rfl⟩ := same.unique upload
    have slashless := whole event.1 _ counts
    have back {thread : ι} {number : Nat} (reached : (if thread = event.1 then .announcing buildNumber event.2.now
        else system.points thread) = MavenPoint.registering number) :
        thread ≠ event.1 ∧ system.points thread = .registering number := by
      split at reached
      · cases reached
      · rename_i other
        exact ⟨other, reached⟩
    refine ⟨?_, ?_, ?_⟩
    · intro thread number reached
      obtain ⟨other, before⟩ := back reached
      obtain ⟨found, counts', bound', unused'⟩ := numbered.registering thread number before
      refine ⟨found, counts', bound', unused'.enter slashless year fun keys numbers => other ?_⟩
      -- The same number under the same key would be the same build.
      rw [← numbers] at before
      rw [← keys] at counts'
      exact numbered.distinct thread event.1 buildNumber _ before registering counts' counts
    · exact fun thread other number common one two =>
        numbered.distinct thread other number common (back one).2 (back two).2
    · intro other number above
      refine (numbered.coming other number above).enter slashless year fun keys numbers => ?_
      rw [← keys, ← numbers] at above
      omega

end Turns

section Runs

variable [DecidableEq ι] {reqs : ι → MavenRequest}

/-- Fewer builds are counted under every key than there are numbers. -/
def Few (server : MavenServer) (reqs : ι → MavenRequest) (events : List (ι × MavenEvent)) : Prop :=
  ∀ key, (assignedAlong reqs key server (MavenState.new ι).start events).length < buildNumberModulus

section Concat

variable {server : MavenServer} {past : List (ι × MavenEvent)} {event : ι × MavenEvent}

private theorem assignedAlong_concat (key : CounterKey) :
    assignedAlong reqs key server (MavenState.new ι).start (past ++ [event]) =
      assignedAlong reqs key server (MavenState.new ι).start past ++
        assigned reqs key (run (server.program reqs) (MavenState.new ι).start past) event :=
  Runs.collect_concat _ past event

/-- The builds that are counted with one more turn. -/
theorem length_assignedAlong_concat :
    (fun key => (assignedAlong reqs key server (MavenState.new ι).start (past ++ [event])).length) =
      countedAfter reqs (fun key => (assignedAlong reqs key server (MavenState.new ι).start past).length)
        (run (server.program reqs) (MavenState.new ι).start past) event := by
  funext key
  rw [assignedAlong_concat, List.length_append, countedAfter]

/-- Before the last turn there were fewer still. -/
theorem Few.of_concat (few : Few server reqs (past ++ [event])) : Few server reqs past := by
  intro key
  have bound := few key
  rw [assignedAlong_concat, List.length_append] at bound
  omega

/-- With the last turn there are still fewer. -/
theorem Few.countedAfter_lt (few : Few server reqs (past ++ [event])) (key : CounterKey) :
    countedAfter reqs (fun key => (assignedAlong reqs key server (MavenState.new ι).start past).length)
      (run (server.program reqs) (MavenState.new ι).start past) event key < buildNumberModulus := by
  rw [← length_assignedAlong_concat]
  exact few key

end Concat

variable {events : List (ι × MavenEvent)}

/-- Every run from an empty repository counts the builds, and assigns the numbers in their order. -/
theorem counted_run (server : MavenServer) (few : Few server reqs events) :
    Counted reqs (fun key => (assignedAlong reqs key server (MavenState.new ι).start events).length)
      (run (server.program reqs) (MavenState.new ι).start events) ∧
    ∀ key, assignedAlong reqs key server (MavenState.new ι).start events =
      List.range' 1 (assignedAlong reqs key server (MavenState.new ι).start events).length := by
  induction events using List.reverseRecOn with
  | nil => exact ⟨⟨fun _ => rfl, nofun⟩, fun _ => rfl⟩
  | append_singleton past event ih =>
    obtain ⟨base, inOrder⟩ := ih few.of_concat
    have bounds := few.countedAfter_lt
    rw [length_assignedAlong_concat, run_append]
    refine ⟨base.advance bounds (step_numbers server event.1 (reqs event.1) event.2 _ _ (base.counting event.1)),
      fun key => ?_⟩
    rw [assignedAlong_concat, List.length_append, assigned]
    split
    · -- A number that is assigned is the next one.
      rename_i counts
      rw [base.nextBuild_of_counting bounds counts.1 counts.2, List.length_singleton, List.range'_concat,
        ← inOrder key,
        Nat.one_mul, Nat.add_comm]
    · rw [List.append_nil, List.length_nil, Nat.add_zero]
      exact inOrder key

private theorem numbered_run (server : MavenServer)
    (whole : ∀ thread key, (reqs thread).counter = some key → '/' ∉ key.repo.toList)
    (years : ∀ event ∈ events, event.2.now.FourDigits)
    (few : Few server reqs events) :
    Numbered reqs (fun key => (assignedAlong reqs key server (MavenState.new ι).start events).length)
      (run (server.program reqs) (MavenState.new ι).start events) := by
  induction events using List.reverseRecOn with
  | nil =>
    refine ⟨?_, ?_, ?_⟩
    · exact nofun
    · exact nofun
    · exact fun _ _ _ _ _ _ _ _ _ => ExtTreeMap.not_mem_empty
  | append_singleton past event ih =>
    have numbered := ih (fun earlier member => years earlier (List.mem_append_left _ member)) few.of_concat
    have base := (counted_run server few.of_concat).1
    have year := years event (List.mem_append_right past List.mem_cons_self)
    rw [length_assignedAlong_concat, run_append]
    exact numbered.advance base few.countedAfter_lt whole
      (step_numbers server event.1 (reqs event.1) event.2 _ _ (base.counting event.1)) year

/-- In every run of requests of which the uploads of SNAPSHOT versions are to repositories without a slash in
their names, with readings of the clock that have four digits for the year, and with fewer builds under each
key than there are numbers: the builds under a key get the numbers from 1 on, and the entry of a build is
never there before. -/
theorem builds_are_kept (server : MavenServer)
    (whole : ∀ thread key, (reqs thread).counter = some key → '/' ∉ key.repo.toList)
    (events : List (ι × MavenEvent)) (years : ∀ event ∈ events, event.2.now.FourDigits)
    (few : Few server reqs events) : (∀ key, assignedAlong reqs key server (MavenState.new ι).start events =
      List.range' 1 (assignedAlong reqs key server (MavenState.new ι).start events).length) ∧
    ∀ (thread : ι) (buildNumber : Nat) (now : DateTime) (repo path : String) (coord : Coordinate) (body : Bytes),
      (run (server.program reqs) (MavenState.new ι).start events).points thread = .registering buildNumber →
      (reqs thread).Uploads repo path coord body → now.FourDigits →
      coord.timestampedKey now buildNumber repo ∉
        (run (server.program reqs) (MavenState.new ι).start events).shared.layout := by
  have numbered := numbered_run server whole years few
  refine ⟨(counted_run server few).2, ?_⟩
  intro thread buildNumber now repo path coord body registering upload year
  obtain ⟨key, counts, -, unused⟩ := numbered.registering thread buildNumber registering
  obtain ⟨_, _, _, _, same, snapshot, counted⟩ := counter_eq_some_iff.mp counts
  obtain ⟨rfl, rfl, rfl, rfl⟩ := upload.unique same
  rw [← counted] at counts unused
  exact unused (whole thread _ counts) coord now snapshot rfl year

/-- A turn assigns one number at most. -/
theorem length_assignedAlong_le (server : MavenServer) (key : CounterKey)
    (system : State ι (MavenState ι) MavenPoint) (events : List (ι × MavenEvent)) :
    (assignedAlong reqs key server system events).length ≤ events.length := by
  induction events generalizing system with
  | nil => exact Nat.le_refl 0
  | cons event rest ih =>
    rw [assignedAlong, Runs.collect, List.length_append, List.length_cons]
    have single : (assigned reqs key system event).length ≤ 1 := by
      rw [assigned]
      split
      · exact Nat.le_refl 1
      · exact Nat.zero_le 1
    have later := ih (turn (server.program reqs) system event)
    rw [assignedAlong] at later
    omega

end Runs

section Many

/-- The upload of a SNAPSHOT version, by everyone. -/
def everyone {ι : Type} (_ : ι) : MavenRequest := .put "releases" "org/demo/1.0-SNAPSHOT/demo-1.0-SNAPSHOT.jar" [1]

private theorem everyone_uploads {ι : Type} (thread : ι) :
    (everyone thread).Uploads "releases" "org/demo/1.0-SNAPSHOT/demo-1.0-SNAPSHOT.jar" demoSnapshot [1] :=
  ⟨rfl, by decide +kernel⟩

/-- Two uploads: one is entered, and the other one has its number. -/
theorem builds_are_kept_twice :
    let events : List (Fin 2 × MavenEvent) := [0, 1, 1, 0, 1].map fun thread => (thread, .sample)
    let system := run (sample.program everyone) (MavenState.new (Fin 2)).start events
    assignedAlong everyone demoCounter sample (MavenState.new (Fin 2)).start events = [1, 2] ∧
      system.points 0 = .registering 2 ∧
      demoSnapshot.timestampedKey MavenEvent.sample.now 2 "releases" ∉ system.shared.layout := by
  intro events system
  obtain ⟨numbers, registering, counted⟩ : assignedAlong everyone demoCounter sample
    (MavenState.new (Fin 2)).start events =
      [1, 2] ∧ system.points 0 = .registering 2 ∧
      ∀ thread : Fin 2, (everyone thread).counter = some demoCounter := by
    decide +kernel
  have year : MavenEvent.sample.now.FourDigits := ⟨by decide, by decide⟩
  refine ⟨numbers, registering, (builds_are_kept sample ?_ events ?_ ?_).2 0 2 _ _ _ _ _ registering
    (everyone_uploads 0) year⟩
  · intro thread key found
    obtain rfl := Option.some.inj ((counted thread).symm.trans found)
    decide
  · intro event member
    obtain ⟨thread, -, rfl⟩ := List.mem_map.mp member
    exact year
  · exact fun key => (length_assignedAlong_le _ key _ events).trans_lt (by decide)

/-- The first uploads get their numbers, one after the other. -/
def countTurns (uploads : Nat) : List (Nat × MavenEvent) :=
  (List.range uploads).flatMap fun thread => [(thread, .sample), (thread, .sample)]

/-- The first uploads have their numbers, and the others have not begun. -/
structure CountedUp (uploads : Nat) (system : State Nat (MavenState Nat) MavenPoint) : Prop where
  unlocked : system.shared.writer = none
  counter : system.shared.snapshotCounter[demoCounter]?.getD 0 = uploads % buildNumberModulus
  ready : ∀ thread, uploads ≤ thread → system.points thread = .ready
  registering : ∀ thread, thread < uploads →
    system.points thread = .registering ((thread + 1) % buildNumberModulus)

private theorem put_digestOf (server : MavenServer) (blobs : InMemoryBlobStore) (body : Bytes) :
    blobs.put server.hashes.store (server.digestOf body) body =
      .ok ⟨blobs.inner.insert (server.digestOf body) body⟩ :=
  if_neg (not_not.mpr rfl)

private theorem countedUp (uploads : Nat) :
    CountedUp uploads (run (sample.program everyone) (MavenState.new Nat).start (countTurns uploads)) := by
  induction uploads with
  | zero => exact ⟨rfl, rfl, fun _ _ => rfl, fun _ none => absurd none (Nat.not_lt_zero _)⟩
  | succ uploads ih =>
    have two : countTurns (uploads + 1) = countTurns uploads ++ [(uploads, .sample), (uploads, .sample)] := by
      rw [countTurns, List.range_succ, List.flatMap_append]
      rfl
    rw [two, run_append]
    generalize run (sample.program everyone) (MavenState.new Nat).start (countTurns uploads) = system
      at ih ⊢
    obtain ⟨unlocked, counter, ready, registering⟩ := ih
    obtain ⟨asked, parsed⟩ := everyone_uploads uploads
    -- One turn for the blob, and one for the number.
    have put : MavenEvent.sample.call (system.shared.blobs.put sample.hashes.store
        (sample.digestOf [1]) [1]) = _ := put_digestOf sample system.shared.blobs [1]
    have checked : sample.checkPom demoSnapshot [1] = .ok () := if_neg (by decide)
    have snapshot : isSnapshotVersion demoSnapshot.version = true := by decide +kernel
    have stores : sample.program everyone uploads .sample system.shared .ready =
        ({ system.shared with blobs := ⟨system.shared.blobs.inner.insert (sample.digestOf [1]) [1]⟩ },
          .counting) := by
      rw [MavenServer.program, step_of_pending rfl, asked, handle_stores parsed .sample checked put, if_pos snapshot]
    have counts (state : MavenState Nat) : sample.program everyone uploads .sample state .counting =
        (state.count demoCounter, .registering (state.nextBuild demoCounter)) := by
      rw [MavenServer.program, step_of_pending rfl, asked, handle_counts parsed .sample]
      rfl
    have first := turn_eq_of MavenEvent.sample ⟨rfl, ready uploads (Nat.le_refl uploads)⟩ stores
    have second := turn_eq_of MavenEvent.sample first (counts _)
    have others {thread : Nat} (other : thread ≠ uploads) :
        (run (sample.program everyone) system [(uploads, .sample), (uploads, .sample)]).points thread =
          system.points thread := by
      rw [run, List.foldl_cons, List.foldl_cons, List.foldl_nil, turn_points_of_ne other, turn_points_of_ne other]
    have number : system.shared.nextBuild demoCounter = (uploads + 1) % buildNumberModulus := by
      rw [MavenState.nextBuild, counter, Nat.mod_add_mod]
    refine ⟨?_, ?_, ?_, ?_⟩
    · exact (congrArg MavenState.writer second.1).trans unlocked
    · rw [← number]
      refine (congrArg (fun state : MavenState Nat => state.snapshotCounter[demoCounter]?.getD 0) second.1).trans ?_
      dsimp only
      rw [MavenState.getElem?_count, if_pos rfl]
      rfl
    · intro thread later
      rw [others (by omega)]
      exact ready thread (by omega)
    · intro thread earlier
      by_cases own : thread = uploads
      · rw [own, ← number]
        exact second.2
      · rw [others own]
        exact registering thread (by omega)

/-- The first number is assigned a second time, and the file of the first build is there when the other one is
entered. -/
theorem CountedUp.replaces {system : State Nat (MavenState Nat) MavenPoint}
    (counted : CountedUp (buildNumberModulus + 1) system) :
    system.points 0 = .registering 1 ∧ system.points buildNumberModulus = .registering 1 ∧
      (turn (sample.program everyone) system (0, .sample)).points buildNumberModulus = .registering 1 ∧
      demoSnapshot.timestampedKey MavenEvent.sample.now 1 "releases" ∈
        (turn (sample.program everyone) system (0, .sample)).shared.layout := by
  obtain ⟨unlocked, -, -, registering⟩ := counted
  have numbers : (0 + 1) % buildNumberModulus = 1 ∧ (buildNumberModulus + 1) % buildNumberModulus = 1 := by
    decide +kernel
  have positive : buildNumberModulus ≠ 0 := by decide +kernel
  have one := registering 0 (by omega)
  have again := registering buildNumberModulus (by omega)
  rw [numbers.1] at one
  rw [numbers.2] at again
  have enters : sample.program everyone 0 .sample system.shared (.registering 1) =
      (system.shared.enter (demoSnapshot.timestampedKey MavenEvent.sample.now 1 "releases")
        (sample.digestOf [1]), .announcing 1 MavenEvent.sample.now) := by
    obtain ⟨asked, parsed⟩ := everyone_uploads 0
    rw [MavenServer.program, step_of_pending rfl, asked, handle_registers parsed .sample unlocked 1]
  have next := turn_eq_of MavenEvent.sample ⟨rfl, one⟩ enters
  refine ⟨one, again, (turn_points_of_ne positive).trans again, ?_⟩
  rw [next.1]
  exact ExtTreeMap.mem_insert_self

/-- Once all numbers were assigned, an upload gets a number again, and replaces the file of the first build. -/
theorem build_is_replaced : let program := sample.program everyone
    let counted := run program (MavenState.new Nat).start (countTurns (buildNumberModulus + 1))
    let entered := turn program counted (0, .sample)
    counted.points 0 = .registering 1 ∧ counted.points buildNumberModulus = .registering 1 ∧
      entered.points buildNumberModulus = .registering 1 ∧
      demoSnapshot.timestampedKey MavenEvent.sample.now 1 "releases" ∈ entered.shared.layout :=
  (countedUp (buildNumberModulus + 1)).replaces

end Many

end FerroProtocols.Maven
