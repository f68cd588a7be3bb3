import FerroProtocols.Lib.Interleaving
import FerroProtocols.Oci.UploadHandlers

/-! What becomes of the chunks of an upload session under any interleaving of its requests. -/

namespace FerroProtocols.Oci

open BlobStore Std Interleaving

namespace UploadPoint

/-- A request that is under way and holds no bytes of the session. -/
def Active : UploadPoint → Prop
  | .ready | .patchAppend _ | .patchCancel _ | .finishAppend _ _ | .finishCancel _ | .finishTake _ => True
  | .finishStore _ _ | .finishComplete _ | .answered _ => False

/-- A request that is under way without bytes of the session, or has been refused. -/
def Plain (point : UploadPoint) : Prop :=
  point.Active ∨ ∃ error, point = .answered (.refused error)

private theorem Plain.ne {point other : UploadPoint} (plain : point.Plain) (ended : ¬ other.Active)
    (going : ∀ error, other ≠ .answered (.refused error)) : point ≠ other := by
  rintro rfl
  rcases plain with active | ⟨error, refused⟩
  · exact ended active
  · exact going error refused

end UploadPoint

namespace UploadConfig

/-- The session that the requests are about. -/
def session (config : UploadConfig) (reg : InMemoryState) : Option UploadState :=
  reg.uploads[(config.name, config.uuid)]?

/-- All that a turn can do to the session, with the points before and after it. -/
inductive Turns (config : UploadConfig) (req : UploadRequest) (now : Nat)
    (reg : InMemoryState) (point : UploadPoint) : UploadTurn → Prop where
  -- A request that has nothing more to do stays where it is.
  | rest (ended : ¬ point.Active) : Turns config req now reg point ⟨reg, point, .quiet⟩
  -- Nothing happens to the session, and the request comes no further than a plain point.
  | quiet {after : InMemoryState} {next : UploadPoint} (active : point.Active)
      (same : config.session after = config.session reg) (plain : next.Plain) :
      Turns config req now reg point ⟨after, next, .quiet⟩
  | evicted {after : InMemoryState} {error : OciError} (active : point.Active)
      (gone : config.session after = none)
      (idle : ∀ before, config.session reg = some before →
        before.isIdleFor now config.limits.idleTtl = true) :
      Turns config req now reg point ⟨after, .answered (.refused error), .evicted⟩
  | appended {before grown : UploadState} {after : InMemoryState} {next : UploadPoint}
      (active : point.Active) (found : config.session reg = some before)
      (left : config.session after = some grown)
      (longer : grown.buffer = before.buffer ++ req.body)
      (acknowledged : next.Plain ∨ ∃ headers, next = .answered (.accepted headers)) :
      Turns config req now reg point ⟨after, next, .appended⟩
  | cancelled {after : InMemoryState} {error : OciError} (active : point.Active)
      (gone : config.session after = none) (tooLarge : error.status = 413) :
      Turns config req now reg point ⟨after, .answered (.refused error), .cancelled⟩
  | taken {before emptied : UploadState} {after : InMemoryState} {declared : Digest}
      (active : point.Active) (finish : req.isFinish = true)
      (found : config.session reg = some before)
      (left : config.session after = some emptied) (empty : emptied.buffer = []) :
      Turns config req now reg point ⟨after, .finishStore declared before.buffer, .taken⟩
  | spilled {emptied : UploadState} {after : InMemoryState} {error : OciError}
      (active : point.Active) (finish : req.isFinish = true)
      (left : config.session after = some emptied) (empty : emptied.buffer = []) :
      Turns config req now reg point ⟨after, .answered (.refused error), .spilled⟩
  | stored {declared : Digest} {bytes : Bytes} (holds : point = .finishStore declared bytes)
      (finish : req.isFinish = true) :
      Turns config req now reg point ⟨reg, .finishComplete declared, .stored bytes⟩
  | abandoned {declared : Digest} {bytes : Bytes} {error : OciError}
      (holds : point = .finishStore declared bytes) (finish : req.isFinish = true) :
      Turns config req now reg point ⟨reg, .answered (.refused error), .abandoned⟩
  | completed {after : InMemoryState} {declared : Digest} {headers : List (String × String)}
      (done : point = .finishComplete declared) (gone : config.session after = none) :
      Turns config req now reg point ⟨after, .answered (.created headers), .completed⟩

variable (config : UploadConfig)

/-- Cancelling leaves no session. -/
theorem session_cancelUpload (reg : InMemoryState) :
    config.session (reg.cancelUpload config.name config.uuid).2 = none := by
  simp [session, InMemoryState.cancelUpload]

private theorem plain_patchCheck (contentRange : Option (Option String))
    (body : Bytes) (offset : Nat) : (config.patchCheck contentRange body offset).Plain := by
  unfold patchCheck
  cases chunkStart contentRange body offset with
  | error error => exact .inr ⟨error, rfl⟩
  | ok start =>
    dsimp only
    split
    · exact .inr ⟨_, rfl⟩
    · split <;> exact .inl trivial

private theorem plain_finishCheck (declared : Digest) (body : Bytes)
    (offset : Nat) : (config.finishCheck declared body offset).Plain := by
  unfold finishCheck
  split
  · exact .inl trivial
  · split <;> exact .inl trivial

variable (event : UploadEvent) (reg : InMemoryState) (point : UploadPoint)

private theorem patchUpload_turns (contentRange : Option (Option String)) (body : Bytes) :
    Turns config (.patch contentRange body) event.now reg point
      (config.patchUpload contentRange body event reg point) := by
  cases point with
  | ready =>
    unfold patchUpload
    rcases reg.getUploadState_effect config.name config.uuid config.limits.idleTtl event.now with
      ⟨missing, idle⟩ | ⟨session, looked, _⟩
    · simp only [missing]
      exact .evicted trivial (by simp [UploadConfig.session]) idle
    · simp only [looked]
      exact .quiet trivial rfl (config.plain_patchCheck contentRange body session.offset)
  | patchCancel offset => exact .cancelled trivial (config.session_cancelUpload reg) rfl
  | patchAppend start =>
    unfold patchUpload
    rcases reg.appendUpload_effect config.name config.uuid start body event.now with
      ⟨error, refused⟩ | ⟨before, found, _, appended⟩
    · simp only [refused]
      exact .quiet trivial rfl (.inr ⟨_, rfl⟩)
    · simp only [appended]
      exact .appended trivial found ExtTreeMap.getElem?_insert_self rfl (.inr ⟨_, rfl⟩)
  -- The points of a final request are active ones that a chunk's request never reaches.
  | finishAppend _ _ | finishCancel _ | finishTake _ => exact .quiet trivial rfl (.inl trivial)
  | finishStore _ _ | finishComplete _ | answered _ => exact .rest id

private theorem finishUpload_turns (digest : Option String) (body : Bytes) :
    Turns config (.finish digest body) event.now reg point
      (config.finishUpload digest body event reg point) := by
  -- One case per step of the handler, in the order of the source.
  cases point with
  | ready =>
    unfold finishUpload
    cases declaredDigest digest with
    | error error => exact .quiet trivial rfl (.inr ⟨_, rfl⟩)
    | ok declared =>
      rcases reg.getUploadState_effect config.name config.uuid config.limits.idleTtl event.now with
        ⟨missing, idle⟩ | ⟨session, looked, _⟩
      · simp only [missing]
        exact .evicted trivial (by simp [UploadConfig.session]) idle
      · simp only [looked]
        exact .quiet trivial rfl (config.plain_finishCheck declared body session.offset)
  | finishCancel offset => exact .cancelled trivial (config.session_cancelUpload reg) rfl
  | finishAppend declared offset =>
    unfold finishUpload
    rcases reg.appendUpload_effect config.name config.uuid offset body event.now with
      ⟨error, refused⟩ | ⟨before, found, _, appended⟩
    · simp only [refused]
      exact .quiet trivial rfl (.inr ⟨_, rfl⟩)
    · simp only [appended]
      exact .appended trivial found ExtTreeMap.getElem?_insert_self rfl (.inl (.inl trivial))
  | finishTake declared =>
    unfold finishUpload
    rcases reg.takeUploadBytes_effect config.name config.uuid with missing | ⟨before, found, took⟩
    · simp only [missing]
      exact .quiet trivial rfl (.inr ⟨_, rfl⟩)
    · simp only [took]
      split
      · exact .spilled trivial rfl ExtTreeMap.getElem?_insert_self rfl
      · exact .taken trivial rfl found ExtTreeMap.getElem?_insert_self rfl
  | finishStore declared bytes =>
    unfold finishUpload
    cases event.put with
    | error error => exact .abandoned rfl rfl
    | ok _ => exact .stored rfl rfl
  | finishComplete declared => exact .completed rfl (by simp [session, InMemoryState.completeUpload])
  | patchAppend _ | patchCancel _ => exact .quiet trivial rfl (.inl trivial)
  | answered _ => exact .rest id

/-- Every turn of every request is one of these. -/
private theorem turn_turns (req : UploadRequest) :
    Turns config req event.now reg point (config.turn req event reg point) := by
  cases req with
  | patch contentRange body => exact config.patchUpload_turns event reg point contentRange body
  | finish digest body => exact config.finishUpload_turns event reg point digest body

end UploadConfig

/-- A blob that a final request has stored, and the requests whose bytes it is made of. -/
structure StoredBlob where
  finish : Nat
  bytes : Bytes
  parts : List Nat
  deriving DecidableEq

/-- Why a session was dropped with the bytes in its buffer. -/
inductive DropCause where
  -- A request looked for it and found it idle.
  | idle (session : Option UploadState) (now : Nat)
  -- A request went over its cap.
  | overCap (client : Nat)

/-- What has become of the bytes of each request, which is known by its number. -/
structure ChunkLedger where
  -- The requests whose bytes make up the buffer, in order.
  held : List Nat := []
  -- The final requests that have taken the bytes and neither completed the session nor failed.
  unfinished : List Nat := []
  -- The requests that appended while a final request was unfinished.
  late : List Nat := []
  -- What each final request has taken.
  taken : Nat → List Nat := fun _ => []
  stored : List StoredBlob := []
  -- The requests whose bytes went with the session, and why it was dropped.
  dropped : List (Nat × DropCause) := []

namespace ChunkLedger

/-- The ledger after a turn of a request that came upon a session at some time. -/
def record (ledger : ChunkLedger) (client : Nat) (session : Option UploadState) (now : Nat) :
    UploadEffect → ChunkLedger
  | .quiet => ledger
  -- An idle session is dropped with all chunks that it holds.
  | .evicted =>
    { ledger with
      held := []
      dropped := ledger.dropped ++ ledger.held.map fun chunk => (chunk, .idle session now) }
  -- A chunk is late when a final request has taken the buffer and is not done.
  | .appended =>
    { ledger with
      held := ledger.held ++ [client]
      late := if ledger.unfinished.isEmpty then ledger.late else client :: ledger.late }
  | .cancelled =>
    { ledger with
      held := []
      dropped := ledger.dropped ++ ledger.held.map fun chunk => (chunk, .overCap client) }
  -- The chunks go from the session to the final request that took them.
  | .taken =>
    { ledger with
      held := []
      unfinished := client :: ledger.unfinished
      taken := fun finish => if finish = client then ledger.held else ledger.taken finish }
  | .spilled => { ledger with held := [] }
  | .stored bytes =>
    { ledger with stored := ledger.stored ++ [⟨client, bytes, ledger.taken client⟩] }
  | .abandoned =>
    { ledger with unfinished := ledger.unfinished.filter fun finish => decide (finish ≠ client) }
  -- What came after the taking goes with the session.
  | .completed =>
    { ledger with
      held := []
      unfinished := ledger.unfinished.filter fun finish => decide (finish ≠ client) }

end ChunkLedger

/-- What all requests act on, with the ledger beside it. -/
structure UploadShared where
  registry : InMemoryState
  ledger : ChunkLedger

/-- A run of requests on one session. -/
abbrev UploadSystem := Interleaving.State Nat UploadShared UploadPoint

namespace UploadConfig

variable (config : UploadConfig) (reqs : Nat → UploadRequest)

/-- The requests of a session as threads. -/
def program : Interleaving.Program Nat UploadShared UploadPoint UploadEvent :=
  fun client event shared point =>
    let turn := config.turn (reqs client) event shared.registry point
    let session := config.session shared.registry
    (⟨turn.registry, shared.ledger.record client session event.now turn.effect⟩, turn.point)

/-- A session that has just been opened, with no request made yet. -/
def opening (reg : InMemoryState) : UploadSystem := ⟨⟨reg, {}⟩, fun _ => .ready⟩

/-- The bytes of some requests, one after the other. -/
def chunks (parts : List Nat) : Bytes := parts.flatMap fun client => (reqs client).body

/-- Where an acknowledged chunk can be, as long as requests are under way. -/
inductive Placed (ledger : ChunkLedger) (points : Nat → UploadPoint) (client : Nat) : Prop where
  | late (member : client ∈ ledger.late)
  | held (member : client ∈ ledger.held)
  | dropped {cause : DropCause} (member : (client, cause) ∈ ledger.dropped)
  | stored {blob : StoredBlob} (member : blob ∈ ledger.stored) (part : client ∈ blob.parts)
  -- A final request has taken it and is about to store it.
  | taken {finish : Nat} {declared : Digest} {bytes : Bytes}
      (isFinish : (reqs finish).isFinish = true)
      (holds : points finish = .finishStore declared bytes) (part : client ∈ ledger.taken finish)
  -- A final request has failed.
  | failed {finish : Nat} {error : OciError} (isFinish : (reqs finish).isFinish = true)
      (refused : points finish = .answered (.refused error))

/-- The ledger is true of the registry and of the points of all requests. -/
structure Accounted (system : UploadSystem) : Prop where
  buffer : ∀ session, config.session system.shared.registry = some session →
    session.buffer = chunks reqs system.shared.ledger.held
  closed : config.session system.shared.registry = none → system.shared.ledger.held = []
  -- While a final request is unfinished, only late chunks are in the buffer.
  window : system.shared.ledger.unfinished ≠ [] →
    ∀ chunk ∈ system.shared.ledger.held, chunk ∈ system.shared.ledger.late
  completing : ∀ finish declared, system.points finish = .finishComplete declared →
    finish ∈ system.shared.ledger.unfinished
  storing : ∀ finish declared bytes, system.points finish = .finishStore declared bytes →
    finish ∈ system.shared.ledger.unfinished ∧
      bytes = chunks reqs (system.shared.ledger.taken finish)
  stored : ∀ blob ∈ system.shared.ledger.stored,
    (reqs blob.finish).isFinish = true ∧ blob.bytes = chunks reqs blob.parts
  idle : ∀ chunk session now, (chunk, .idle session now) ∈ system.shared.ledger.dropped →
    ∃ found, session = some found ∧ found.isIdleFor now config.limits.idleTtl = true
  overCap : ∀ chunk cause, (chunk, .overCap cause) ∈ system.shared.ledger.dropped →
    ∃ error, system.points cause = .answered (.refused error) ∧ error.status = 413
  accepted : ∀ client headers, system.points client = .answered (.accepted headers) →
    Placed reqs system.shared.ledger system.points client

private theorem accounted_opening {reg : InMemoryState} {session : UploadState}
    (opened : config.session reg = some session) (empty : session.buffer = []) :
    Accounted config reqs (opening reg) where
  buffer := by
    intro found same
    have there : config.session reg = some found := same
    rw [opened] at there
    cases there
    exact empty
  closed := by
    intro gone
    have there : config.session reg = none := gone
    rw [opened] at there
    cases there
  window := fun unfinished => absurd rfl unfinished
  completing := nofun
  storing := nofun
  stored := nofun
  idle := nofun
  overCap := nofun
  accepted := nofun

end UploadConfig

section Records

variable (ledger : ChunkLedger) (client : Nat) (session : Option UploadState) (now : Nat)
  (effect : UploadEffect)

private theorem late_record {chunk : Nat} (member : chunk ∈ ledger.late) :
    chunk ∈ (ledger.record client session now effect).late := by
  cases effect with
  | appended =>
    simp only [ChunkLedger.record]
    split
    · exact member
    · exact List.mem_cons_of_mem _ member
  | _ => exact member

private theorem stored_record {blob : StoredBlob} (member : blob ∈ ledger.stored) :
    blob ∈ (ledger.record client session now effect).stored := by
  cases effect with
  | stored bytes => exact List.mem_append_left _ member
  | _ => exact member

private theorem dropped_record {entry : Nat × DropCause} (member : entry ∈ ledger.dropped) :
    entry ∈ (ledger.record client session now effect).dropped := by
  cases effect with
  | evicted | cancelled => exact List.mem_append_left _ member
  | _ => exact member

private theorem unfinished_record {finish : Nat} (member : finish ∈ ledger.unfinished)
    (other : finish ≠ client) : finish ∈ (ledger.record client session now effect).unfinished := by
  cases effect with
  | taken => exact List.mem_cons_of_mem _ member
  | abandoned | completed => exact List.mem_filter.mpr ⟨member, by simpa using other⟩
  | _ => exact member

private theorem taken_record {finish : Nat} (other : finish ≠ client) :
    (ledger.record client session now effect).taken finish = ledger.taken finish := by
  cases effect with
  | taken => exact if_neg other
  | _ => rfl

end Records

namespace UploadConfig

section Turn

variable {config : UploadConfig} {reqs : Nat → UploadRequest}

/-- The system after a turn of one request. -/
def advance (config : UploadConfig) (system : UploadSystem) (client now : Nat) (turn : UploadTurn) :
    UploadSystem :=
  ⟨⟨turn.registry,
      system.shared.ledger.record client (config.session system.shared.registry) now turn.effect⟩,
    fun thread => if thread = client then turn.point else system.points thread⟩

variable {system : UploadSystem} {client now : Nat} {turn : UploadTurn}
  (turned : Turns config (reqs client) now system.shared.registry (system.points client) turn)

include turned

private theorem answered_advance {other : Nat} {answer : UploadAnswer}
    (answered : system.points other = .answered answer) :
    (config.advance system client now turn).points other = .answered answer := by
  by_cases own : other = client
  · subst own
    simp only [advance, if_true]
    -- Nothing but rest is left for a request that has been answered.
    rw [answered] at turned
    cases turned with
    | rest _ => rfl
    | quiet active | evicted active | appended active | cancelled active | taken active | spilled active =>
      exact active.elim
    | stored holds | abandoned holds | completed holds => cases holds
  · simp only [advance, if_neg own]
    exact answered

variable (accounted : Accounted config reqs system)

include accounted

private theorem held_advance {chunk : Nat} (member : chunk ∈ system.shared.ledger.held) :
    Placed reqs (config.advance system client now turn).shared.ledger
      (config.advance system client now turn).points chunk := by
  cases turned with
  | rest | quiet | stored | abandoned => exact .held member
  | evicted | cancelled => exact .dropped (List.mem_append_right _ (List.mem_map_of_mem member))
  | appended => exact .held (List.mem_append_left _ member)
  | taken _ isFinish =>
    exact .taken isFinish (if_pos rfl)
      (by simpa [advance, ChunkLedger.record] using member)
  | spilled _ finish => exact .failed finish (if_pos rfl)
  | completed done _ =>
    -- The session goes with all that came in since its bytes were taken.
    have unfinished := List.ne_nil_of_mem (accounted.completing client _ done)
    exact .late (accounted.window unfinished chunk member)

private theorem placed_advance {chunk : Nat} (placed : Placed reqs system.shared.ledger system.points chunk) :
    Placed reqs (config.advance system client now turn).shared.ledger
      (config.advance system client now turn).points chunk := by
  cases placed with
  | late member => exact .late (late_record _ _ _ _ _ member)
  | held member => exact held_advance turned accounted member
  | dropped member => exact .dropped (dropped_record _ _ _ _ _ member)
  | stored member part => exact .stored (stored_record _ _ _ _ _ member) part
  | failed isFinish refused => exact .failed isFinish (answered_advance turned refused)
  | @taken finish declared bytes isFinish holds part =>
    by_cases own : finish = client
    · subst own
      cases turned with
      | rest _ => exact .taken isFinish ((if_pos rfl).trans holds) part
      | stored _ _ => exact .stored (List.mem_append_right _ List.mem_cons_self) part
      | abandoned _ _ => exact .failed isFinish (if_pos rfl)
      | completed done _ =>
        rw [holds] at done
        cases done
      -- All other turns are those of requests that hold no bytes.
      | quiet active | evicted active | appended active | cancelled active | taken active | spilled active =>
        rw [holds] at active
        exact active.elim
    · refine .taken isFinish ((if_neg own).trans holds) ?_
      rw [advance, taken_record _ _ _ _ _ own]
      exact part

private theorem accounted_advance : Accounted config reqs (config.advance system client now turn) where
  buffer := by
    intro session found
    simp only [advance] at found ⊢
    -- Where a session is left, it is untouched, longer by one chunk, or empty.
    cases turned with
    | rest | stored | abandoned => exact accounted.buffer session found
    | quiet _ same => exact accounted.buffer session (same ▸ found)
    | evicted _ gone | cancelled _ gone | completed _ gone =>
      rw [gone] at found
      cases found
    | @appended before grown _ _ _ there left longer =>
      rw [left] at found
      cases found
      rw [longer, accounted.buffer before there]
      simp [ChunkLedger.record, chunks]
    | taken _ _ _ left empty | spilled _ _ left empty =>
      rw [left] at found
      cases found
      exact empty
  closed := by
    intro gone
    simp only [advance] at gone ⊢
    -- Every turn that ends the session empties the list of held chunks.
    cases turned with
    | rest | stored | abandoned => exact accounted.closed gone
    | quiet _ same => exact accounted.closed (same ▸ gone)
    | appended _ _ left =>
      rw [left] at gone
      cases gone
    | _ => rfl
  window := by
    intro unfinished chunk member
    simp only [advance] at unfinished member ⊢
    cases turned with
    | rest | quiet | stored => exact accounted.window unfinished chunk member
    | appended =>
      -- A chunk that comes in now is late itself.
      have busy : system.shared.ledger.unfinished.isEmpty = false := List.isEmpty_eq_false_iff.mpr unfinished
      simp only [ChunkLedger.record, busy, Bool.false_eq_true, if_false] at member ⊢
      rcases List.mem_append.mp member with earlier | own
      · exact List.mem_cons_of_mem _ (accounted.window unfinished chunk earlier)
      · rw [List.mem_singleton.mp own]
        exact List.mem_cons_self
    | abandoned =>
      apply accounted.window _ chunk member
      intro none
      apply unfinished
      simp [ChunkLedger.record, none]
    | _ => cases member
  completing := by
    intro finish declared point
    by_cases own : finish = client
    · subst own
      simp only [advance, if_true] at point ⊢
      cases turned with
      | rest => exact accounted.completing finish declared point
      | quiet _ _ plain => exact absurd point (plain.ne id nofun)
      | appended _ _ _ _ acknowledged =>
        rcases acknowledged with plain | ⟨headers, accepted⟩
        · exact absurd point (plain.ne id nofun)
        · rw [accepted] at point
          cases point
      -- Having stored the bytes, the request has been unfinished since it took them.
      | stored holds => exact (accounted.storing finish _ _ holds).1
      | _ => cases point
    · simp only [advance, if_neg own] at point ⊢
      exact unfinished_record _ _ _ _ _ (accounted.completing finish declared point) own
  storing := by
    intro finish declared bytes point
    by_cases own : finish = client
    · subst own
      simp only [advance, if_true] at point ⊢
      cases turned with
      | rest => exact accounted.storing finish declared bytes point
      | quiet _ _ plain => exact absurd point (plain.ne id nofun)
      | appended _ _ _ _ acknowledged =>
        rcases acknowledged with plain | ⟨headers, accepted⟩
        · exact absurd point (plain.ne id nofun)
        · rw [accepted] at point
          cases point
      | @taken before _ _ _ _ _ found =>
        cases point
        simp only [ChunkLedger.record, if_true]
        exact ⟨List.mem_cons_self, accounted.buffer before found⟩
      | _ => cases point
    · simp only [advance, if_neg own] at point ⊢
      rw [taken_record _ _ _ _ _ own]
      have before := accounted.storing finish declared bytes point
      exact ⟨unfinished_record _ _ _ _ _ before.1 own, before.2⟩
  stored := by
    intro blob member
    simp only [advance] at member
    cases turned with
    | stored holds isFinish =>
      rcases List.mem_append.mp member with earlier | own
      · exact accounted.stored blob earlier
      · rw [List.mem_singleton.mp own]
        exact ⟨isFinish, (accounted.storing client _ _ holds).2⟩
    | _ => exact accounted.stored blob member
  idle := by
    intro chunk session time member
    cases turned with
    | evicted _ _ idle =>
      rcases List.mem_append.mp member with earlier | own
      · exact accounted.idle chunk session time earlier
      · obtain ⟨_, held, entry⟩ := List.mem_map.mp own
        cases entry
        cases found : config.session system.shared.registry with
        | some before => exact ⟨before, rfl, idle before found⟩
        | none =>
          -- Without a session there is no chunk to drop.
          rw [accounted.closed found] at held
          cases held
    | cancelled =>
      rcases List.mem_append.mp member with earlier | own
      · exact accounted.idle chunk session time earlier
      · obtain ⟨_, _, entry⟩ := List.mem_map.mp own
        cases entry
    | _ => exact accounted.idle chunk session time member
  overCap := by
    intro chunk cause member
    -- An entry that was there before names a request that keeps its answer.
    have kept (earlier : (chunk, .overCap cause) ∈ system.shared.ledger.dropped) :
        ∃ error, (config.advance system client now turn).points cause =
          .answered (.refused error) ∧ error.status = 413 := by
      obtain ⟨error, refused, tooLarge⟩ := accounted.overCap chunk cause earlier
      exact ⟨error, answered_advance turned refused, tooLarge⟩
    cases turned with
    | evicted =>
      rcases List.mem_append.mp member with earlier | own
      · exact kept earlier
      · obtain ⟨_, _, entry⟩ := List.mem_map.mp own
        cases entry
    | @cancelled _ error _ _ tooLarge =>
      rcases List.mem_append.mp member with earlier | own
      · exact kept earlier
      · obtain ⟨_, _, entry⟩ := List.mem_map.mp own
        cases entry
        exact ⟨error, if_pos rfl, tooLarge⟩
    | _ => exact kept member
  accepted := by
    intro chunk headers point
    by_cases own : chunk = client
    · subst own
      have now : turn.point = .answered (.accepted headers) := (if_pos rfl).symm.trans point
      -- A chunk is acknowledged in the turn that appends it, and in no other.
      cases turned with
      | rest ended => exact placed_advance (.rest ended) accounted (accounted.accepted chunk headers now)
      | quiet _ _ plain => exact absurd now (plain.ne id nofun)
      | appended => exact .held (List.mem_append_right _ List.mem_cons_self)
      | _ => cases now
    · have before : system.points chunk = .answered (.accepted headers) :=
        (if_neg own).symm.trans point
      exact placed_advance turned accounted (accounted.accepted chunk headers before)

end Turn

section Outcome

variable (config : UploadConfig) (reqs : Nat → UploadRequest)

private theorem accounted_run {system : UploadSystem} (accounted : Accounted config reqs system)
    (events : List (Nat × UploadEvent)) : Accounted config reqs (run (config.program reqs) system events) := by
  apply run_invariant _ accounted
  intro state event before
  exact accounted_advance (config.turn_turns event.2 _ _ _) before

/-- Every final request that was made has been answered with 201. -/
def FinishesSucceed (system : UploadSystem) : Prop :=
  ∀ finish, (reqs finish).isFinish = true →
    system.points finish = .ready ∨ ∃ headers, system.points finish = .answered (.created headers)

/-- The bytes of a chunk are in a blob that a final request stored, or in the session's buffer. -/
inductive Survives (system : UploadSystem) (chunk : Nat) : Prop where
  | stored {blob : StoredBlob} (member : blob ∈ system.shared.ledger.stored)
      (finish : (reqs blob.finish).isFinish = true)
      (bytes : blob.bytes = chunks reqs blob.parts) (part : chunk ∈ blob.parts)
  | buffered {session : UploadState} (live : config.session system.shared.registry = some session)
      (bytes : session.buffer = chunks reqs system.shared.ledger.held)
      (part : chunk ∈ system.shared.ledger.held)

/-- The bytes of a chunk were in the buffer of the session when it was dropped. -/
inductive Dropped (system : UploadSystem) (chunk : Nat) : Prop where
  | idle {session : UploadState} {now : Nat}
      (member : (chunk, .idle (some session) now) ∈ system.shared.ledger.dropped)
      (idle : session.isIdleFor now config.limits.idleTtl = true)
  | overCap {patch : Nat} {error : OciError}
      (member : (chunk, .overCap patch) ∈ system.shared.ledger.dropped)
      (notFinish : (reqs patch).isFinish = false)
      (refused : system.points patch = .answered (.refused error)) (tooLarge : error.status = 413)

variable {config reqs} {system : UploadSystem}

private theorem FinishesSucceed.ne (succeed : FinishesSucceed reqs system) {finish : Nat}
    (isFinish : (reqs finish).isFinish = true) {point : UploadPoint} (begun : point ≠ .ready)
    (failed : ∀ headers, point ≠ .answered (.created headers)) : system.points finish ≠ point := by
  rintro rfl
  rcases succeed finish isFinish with ready | ⟨headers, created⟩
  · exact begun ready
  · exact failed headers created

private theorem FinishesSucceed.not_refused (succeed : FinishesSucceed reqs system) {finish : Nat}
    {error : OciError} (refused : system.points finish = .answered (.refused error)) :
    (reqs finish).isFinish = false :=
  Bool.eq_false_iff.mpr fun isFinish => absurd refused (succeed.ne isFinish nofun nofun)

/-- Where the accounts place a chunk, once all final requests have succeeded. -/
theorem Accounted.outcome (accounted : Accounted config reqs system)
    (succeed : FinishesSucceed reqs system) {chunk : Nat}
    (placed : Placed reqs system.shared.ledger system.points chunk) (early : chunk ∉ system.shared.ledger.late) :
    Survives config reqs system chunk ∨ Dropped config reqs system chunk := by
  cases placed with
  | late member => exact absurd member early
  | stored member part =>
    obtain ⟨isFinish, bytes⟩ := accounted.stored _ member
    exact .inl (.stored member isFinish bytes part)
  | held member =>
    cases live : config.session system.shared.registry with
    | some session => exact .inl (.buffered live (accounted.buffer session live) member)
    | none =>
      rw [accounted.closed live] at member
      cases member
  | @dropped cause member =>
    cases cause with
    | idle session now =>
      obtain ⟨found, rfl, idle⟩ := accounted.idle chunk session now member
      exact .inr (.idle member idle)
    | overCap patch =>
      obtain ⟨error, refused, tooLarge⟩ := accounted.overCap chunk patch member
      exact .inr (.overCap member (succeed.not_refused refused) refused tooLarge)
  -- What is left are final requests that hold bytes or have failed.
  | taken isFinish holds _ => exact absurd holds (succeed.ne isFinish nofun nofun)
  | failed isFinish refused =>
    rw [succeed.not_refused refused] at isFinish
    cases isFinish

private theorem session_startUpload {before after : InMemoryState} {now : Nat}
    (started : before.startUpload config.limits config.name config.uuid now = (.started config.uuid, after)) :
    config.session after = some (.new config.name config.uuid now) := by
  unfold InMemoryState.startUpload at started
  dsimp only at started
  split at started
  · cases started
  · obtain ⟨_, rfl⟩ := Prod.mk.inj started
    simp [session]

/-- When all final requests succeed, an acknowledged chunk is lost only with a session that was
dropped, or by coming in after a final request took the bytes and before it completed the session. -/
theorem accepted_chunk_outcome {before after : InMemoryState} {now : Nat}
    (started : before.startUpload config.limits config.name config.uuid now = (.started config.uuid, after))
    (events : List (Nat × UploadEvent)) (succeed : FinishesSucceed reqs
      (run (config.program reqs) (opening after) events)) (chunk : Nat) (headers : List (String × String))
    (accepted : (run (config.program reqs) (opening after) events).points chunk =
      .answered (.accepted headers)) (early : chunk ∉
      (run (config.program reqs) (opening after) events).shared.ledger.late) :
    Survives config reqs (run (config.program reqs) (opening after) events) chunk ∨
      Dropped config reqs (run (config.program reqs) (opening after) events) chunk := by
  -- The session starts empty, so the accounting starts balanced.
  have opened := accounted_opening config reqs (session_startUpload started) rfl
  have accounted := accounted_run config reqs opened events
  exact accounted.outcome succeed (accounted.accepted chunk headers accepted) early

end Outcome

/-- A session for at most one byte. -/
def oneByte : UploadConfig := ⟨"a", "u", 1, ⟨1, 10⟩, shaTable⟩

/-- The registry when that session has just been opened. -/
def oneByteOpened : InMemoryState := (InMemoryState.startUpload {} ⟨1, 10⟩ "a" "u" 0).2

private theorem oneByte_started : InMemoryState.startUpload {} oneByte.limits oneByte.name oneByte.uuid 0 =
    (.started oneByte.uuid, oneByteOpened) := rfl

/-- One final request, and chunks of one byte. -/
def finishAmongChunks (client : Nat) : UploadRequest :=
  if client = 1 then .finish (some sevenSha.toString) [] else .patch none [7]

/-- Turns of requests, all at the same time. -/
def atOnce (clients : List Nat) : List (Nat × UploadEvent) :=
  clients.map fun client => (client, { now := 0 })

private theorem finishesSucceed_of_patches {reqs : Nat → UploadRequest} {system : UploadSystem}
    (patches : ∀ client, (reqs client).isFinish = false) : FinishesSucceed reqs system := by
  intro finish isFinish
  rw [patches finish] at isFinish
  cases isFinish

/-- A chunk that comes before the final request is stored. -/
theorem accepted_chunk_outcome_stored :
    let final := run (oneByte.program finishAmongChunks) (opening oneByteOpened)
      (atOnce [0, 0, 1, 1, 1, 1])
    ⟨1, [7], [0]⟩ ∈ final.shared.ledger.stored ∧
      (Survives oneByte finishAmongChunks final 0 ∨ Dropped oneByte finishAmongChunks final 0) := by
  obtain ⟨stored, accepted, onTime, created⟩ :
      let final := run (oneByte.program finishAmongChunks) (opening oneByteOpened)
        (atOnce [0, 0, 1, 1, 1, 1])
      ⟨1, [7], [0]⟩ ∈ final.shared.ledger.stored ∧
        final.points 0 = .answered (.accepted (uploadLocationHeaders "a" "u" 1)) ∧
        final.shared.ledger.late = [] ∧
        final.points 1 = .answered (.created (blobCreatedHeaders "a" sevenSha)) := by decide +kernel
  refine ⟨stored, accepted_chunk_outcome oneByte_started _ ?_ 0 _ accepted ?_⟩
  rotate_left
  · rw [onTime]
    exact List.not_mem_nil
  intro finish isFinish
  by_cases own : finish = 1
  · subst own
    exact .inr ⟨blobCreatedHeaders "a" sevenSha, created⟩
  · simp [finishAmongChunks, own, UploadRequest.isFinish] at isFinish

/-- A chunk between the final request's taking and its completing is acknowledged, and is nowhere. -/
theorem chunk_lost_between_take_and_complete :
    let final := run (oneByte.program finishAmongChunks) (opening oneByteOpened)
      (atOnce [0, 0, 1, 1, 2, 2, 1, 1])
    final.points 2 = .answered (.accepted (uploadLocationHeaders "a" "u" 1)) ∧
      final.shared.ledger.stored = [⟨1, [7], [0]⟩] ∧ final.shared.ledger.late = [2] ∧
      (oneByte.session final.shared.registry).isNone = true := by
  decide +kernel

/-- A chunk that goes over the cap takes an acknowledged one with it. -/
theorem accepted_chunk_lost_over_cap :
    ¬ ∀ (config : UploadConfig) (reqs : Nat → UploadRequest) (before after : InMemoryState) (now : Nat),
      before.startUpload config.limits config.name config.uuid now = (.started config.uuid, after) →
      ∀ events : List (Nat × UploadEvent), FinishesSucceed reqs
          (run (config.program reqs) (opening after) events) → ∀ chunk headers,
          (run (config.program reqs) (opening after) events).points chunk =
            .answered (.accepted headers) → Survives config reqs
            (run (config.program reqs) (opening after) events) chunk := by
  intro always
  -- The second chunk is refused and drops the session, and no blob was stored.
  obtain ⟨accepted, nothing, gone⟩ :
      let final := run (oneByte.program fun _ => .patch none [7])
        (opening oneByteOpened) (atOnce [0, 0, 1, 1])
      final.points 0 = .answered (.accepted (uploadLocationHeaders "a" "u" 1)) ∧
        final.shared.ledger.stored = [] ∧ (oneByte.session final.shared.registry).isNone = true := by
    decide +kernel
  have survives := always oneByte (fun _ => .patch none [7]) {} oneByteOpened 0 oneByte_started
    (atOnce [0, 0, 1, 1]) (finishesSucceed_of_patches fun _ => rfl) 0 _ accepted
  cases survives with
  | stored member _ _ _ =>
    rw [nothing] at member
    cases member
  | buffered live _ _ =>
    rw [live] at gone
    cases gone

end UploadConfig

end FerroProtocols.Oci
