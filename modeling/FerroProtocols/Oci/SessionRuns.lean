import FerroProtocols.Lib.Interleaving
import FerroProtocols.Oci.Sessions

/-! The chunks of a session follow one another in the order in which they were accepted. -/

namespace FerroProtocols.Oci

open BlobStore Std UploadConfig Interleaving

namespace UploadPoint

/-- The offset a request is about to append at. -/
def appendsAt : UploadPoint → Option Nat
  | .patchAppend start => some start
  | .finishAppend _ offset => some offset
  | _ => none

/-- A chunk that has been acknowledged. -/
def Accepted (point : UploadPoint) : Prop := ∃ headers, point = .answered (.accepted headers)

end UploadPoint

/-- An answer for a session that is gone: it was unknown, or it has been dropped for its size. -/
def OciError.Gone (error : OciError) : Prop :=
  error.code = .blobUploadUnknown ∨ error.status = 413

namespace UploadConfig

/-- The key of the session. -/
def key (config : UploadConfig) : String × String := (config.name, config.uuid)

/-- What a request has checked before it appends. -/
def Checked (config : UploadConfig) (req : UploadRequest) (point : UploadPoint) : Prop :=
  ∀ start, point.appendsAt = some start →
    wouldExceedCap config.maxUploadSessionBytes start req.body.length = false ∧
      -- A chunk starts where it says that it starts.
      ∀ contentRange body, req = .patch contentRange body →
        chunkStart contentRange body start = .ok start

/-- All that a turn can do to the sessions, with the points before and after it. -/
inductive Effect (config : UploadConfig) (req : UploadRequest) (now : Nat)
    (reg : InMemoryState) (point : UploadPoint) : InMemoryState → UploadPoint → Prop where
  | kept {next : UploadPoint} (quiet : next = point ∨ ¬ next.Accepted) :
      Effect config req now reg point reg next
  -- A session goes when it is idle or too long, and when its final request completes.
  | erased {next : UploadPoint}
      (ends : (∃ error, next = .answered (.refused error) ∧ error.Gone) ∨
        req.isFinish = true ∧ ¬ next.Accepted) :
      Effect config req now reg point
        { reg with uploads := reg.uploads.erase config.key } next
  -- A chunk is acknowledged at once; the rest of a final request is not.
  | appended {start : Nat} {session : UploadState} {next : UploadPoint}
      (reached : point.appendsAt = some start)
      (found : reg.uploads[config.key]? = some session) (fits : session.offset = start)
      (answered : point = .patchAppend start ∧ req.isFinish = false ∧ next.Accepted ∨
        req.isFinish = true ∧ ¬ next.Accepted) :
      Effect config req now reg point
        { reg with
          uploads := reg.uploads.insert config.key (session.append req.body now) } next
  -- The buffer is taken out, and the session stays until the blob is stored.
  | emptied {session : UploadState} {next : UploadPoint} (finish : req.isFinish = true)
      (found : reg.uploads[config.key]? = some session) (quiet : ¬ next.Accepted) :
      Effect config req now reg point
        { reg with
          uploads := reg.uploads.insert config.key { session with buffer := [] } } next

section Turns

variable (config : UploadConfig)

private theorem patchCheck_not_accepted (contentRange : Option (Option String)) (body : Bytes)
    (offset : Nat) : ¬ (config.patchCheck contentRange body offset).Accepted := by
  rintro ⟨headers, accepted⟩
  unfold patchCheck at accepted
  split at accepted
  · cases accepted
  · split at accepted
    · cases accepted
    · split at accepted <;> cases accepted

private theorem finishCheck_not_accepted (declared : Digest) (body : Bytes) (offset : Nat) :
    ¬ (config.finishCheck declared body offset).Accepted := by
  rintro ⟨headers, accepted⟩
  unfold finishCheck at accepted
  split at accepted
  · cases accepted
  · split at accepted <;> cases accepted

variable (event : UploadEvent) (reg : InMemoryState) (point : UploadPoint)

private theorem patchUpload_effect (contentRange : Option (Option String)) (body : Bytes) :
    Effect config (.patch contentRange body) event.now reg point
      (config.patchUpload contentRange body event reg point).registry
      (config.patchUpload contentRange body event reg point).point := by
  cases point with
  | ready =>
    unfold patchUpload
    rcases reg.getUploadState_effect config.name config.uuid config.limits.idleTtl event.now with
      ⟨missing, _⟩ | ⟨session, looked, _⟩
    · simp only [missing]
      exact .erased (.inl ⟨_, rfl, .inl rfl⟩)
    · simp only [looked]
      exact .kept (.inr (config.patchCheck_not_accepted contentRange body session.offset))
  | patchCancel offset => exact .erased (.inl ⟨_, rfl, .inr rfl⟩)
  | patchAppend start =>
    unfold patchUpload
    rcases reg.appendUpload_effect config.name config.uuid start body event.now with
      ⟨error, refused⟩ | ⟨session, found, fits, appended⟩
    · simp only [refused]
      exact .kept (.inr nofun)
    · simp only [appended]
      exact .appended rfl found fits (.inl ⟨rfl, rfl, _, rfl⟩)
  -- The other points are not reached, or leave nothing to do.
  | finishAppend _ _ | finishCancel _ | finishTake _ | finishStore _ _ | finishComplete _
  | answered _ => exact .kept (.inl rfl)

private theorem finishUpload_effect (digest : Option String) (body : Bytes) :
    Effect config (.finish digest body) event.now reg point
      (config.finishUpload digest body event reg point).registry
      (config.finishUpload digest body event reg point).point := by
  -- One case per step of the handler; only the last one answers with a blob.
  cases point with
  | ready =>
    unfold finishUpload
    cases declaredDigest digest with
    | error error => exact .kept (.inr nofun)
    | ok declared =>
      rcases reg.getUploadState_effect config.name config.uuid config.limits.idleTtl event.now
        with ⟨missing, _⟩ | ⟨session, looked, _⟩
      · simp only [missing]
        exact .erased (.inl ⟨_, rfl, .inl rfl⟩)
      · simp only [looked]
        exact .kept (.inr (config.finishCheck_not_accepted declared body session.offset))
  | finishCancel offset => exact .erased (.inl ⟨_, rfl, .inr rfl⟩)
  | finishAppend declared offset =>
    unfold finishUpload
    rcases reg.appendUpload_effect config.name config.uuid offset body event.now with
      ⟨error, refused⟩ | ⟨session, found, fits, appended⟩
    · simp only [refused]
      exact .kept (.inr nofun)
    · simp only [appended]
      exact .appended rfl found fits (.inr ⟨rfl, nofun⟩)
  | finishTake declared =>
    unfold finishUpload
    rcases reg.takeUploadBytes_effect config.name config.uuid with
      missing | ⟨session, found, took⟩
    · simp only [missing]
      exact .kept (.inr nofun)
    · simp only [took]
      -- Whether the digest matches does not matter for the session.
      split <;> exact .emptied rfl found nofun
  | finishStore declared bytes =>
    unfold finishUpload
    cases event.put with
    | error | ok => exact .kept (.inr nofun)
  | finishComplete declared => exact .erased (.inr ⟨rfl, nofun⟩)
  | patchAppend _ | patchCancel _ | answered _ => exact .kept (.inl rfl)

/-- Every turn of every request has one of these effects. -/
private theorem turn_effect (req : UploadRequest) : Effect config req event.now reg point
      (config.turn req event reg point).registry (config.turn req event reg point).point := by
  cases req with
  | patch contentRange body => exact config.patchUpload_effect event reg point contentRange body
  | finish digest body => exact config.finishUpload_effect event reg point digest body

variable {point : UploadPoint} {req : UploadRequest}

private theorem checked_of_none {config : UploadConfig}
    (quiet : point.appendsAt = none) : config.Checked req point := by
  intro start reached
  rw [quiet] at reached
  cases reached

private theorem checked_patchCheck (contentRange : Option (Option String)) (body : Bytes) (offset : Nat) :
    config.Checked (.patch contentRange body) (config.patchCheck contentRange body offset) := by
  unfold patchCheck
  cases starts : chunkStart contentRange body offset with
  | error error => exact checked_of_none rfl
  | ok start =>
    dsimp only
    split
    · exact checked_of_none rfl
    · rename_i fits
      split
      · exact checked_of_none rfl
      · rename_i small
        -- The chunk starts at the offset it was compared with.
        intro other reached
        cases reached
        have same : start = offset := not_not.mp fits
        subst same
        refine ⟨Bool.eq_false_iff.mpr small, ?_⟩
        rintro range bytes ⟨⟩
        exact starts

private theorem checked_finishCheck (digest : Option String) (declared : Digest) (body : Bytes) (offset : Nat) :
    config.Checked (.finish digest body) (config.finishCheck declared body offset) := by
  unfold finishCheck
  split
  · exact checked_of_none rfl
  · split
    · exact checked_of_none rfl
    · rename_i small
      intro other reached
      cases reached
      exact ⟨Bool.eq_false_iff.mpr small, nofun⟩

private theorem checked_turn (checked : config.Checked req point) (event : UploadEvent) (reg : InMemoryState) :
    config.Checked req (config.turn req event reg point).point := by
  -- Only the checks lead to a point that appends; every other step leads away from it.
  cases req with
  | patch contentRange body =>
    cases point with
    | ready =>
      simp only [turn, patchUpload]
      split
      · exact checked_of_none rfl
      · exact config.checked_patchCheck contentRange body _
    | patchAppend start =>
      simp only [turn, patchUpload]
      split <;> exact checked_of_none rfl
    | patchCancel _ => exact checked_of_none rfl
    | _ => exact checked
  | finish digest body =>
    cases point with
    | ready =>
      simp only [turn, finishUpload]
      split
      · exact checked_of_none rfl
      · split
        · exact checked_of_none rfl
        · exact config.checked_finishCheck digest _ body _
    | finishAppend | finishStore =>
      simp only [turn, finishUpload]
      split <;> exact checked_of_none rfl
    | finishTake declared =>
      simp only [turn, finishUpload]
      split
      · exact checked_of_none rfl
      · split <;> exact checked_of_none rfl
    | finishCancel _ | finishComplete _ => exact checked_of_none rfl
    | _ => exact checked

end Turns

end UploadConfig

namespace UploadServer

variable (server : UploadServer)

/-- All that a turn of any request can do to the sessions. -/
inductive Moves (req : SessionRequest) (event : SessionEvent) (reg : InMemoryState)
    (point : SessionPoint) : InMemoryState → SessionPoint → Prop where
  -- The request has been answered before, or is answered without a look at its session.
  | kept {next : SessionPoint} (quiet : next = point ∨ ∀ upload, next = .upload upload →
      ∃ answer, upload = .answered answer ∧ ¬ upload.Accepted) :
      Moves req event reg point reg next
  | upload {name uuid : String} {upload : UploadRequest} {before next : UploadPoint}
      {after : InMemoryState} (asks : req = .upload name uuid upload)
      (reached : point = .upload before)
      (checked : (server.config name uuid).Checked upload before →
        (server.config name uuid).Checked upload next)
      (effect : (server.config name uuid).Effect upload event.now reg before after next) :
      Moves req event reg point after (.upload next)
  -- A session was dropped by a request for its status or by one to cancel it.
  | erased {name uuid : String} {next : SessionPoint}
      (asks : req = .status name uuid ∨ req = .cancel name uuid)
      (ends : ∀ upload, next = .upload upload → ∃ error, upload = .answered (.refused error)) :
      Moves req event reg point
        { reg with uploads := reg.uploads.erase (name, uuid) } next
  | started {name : String} {digest : Option String} {body : Bytes} {answer : UploadAnswer}
      (asks : req = .init name digest body) :
      Moves req event reg point
        (reg.startUpload server.limits name event.uuid event.now).2 (.upload (.answered answer))

private theorem proceed_moves (req : SessionRequest) (event : SessionEvent) (reg : InMemoryState)
    (point : UploadPoint) : Moves server req event reg (.upload point)
      (server.proceed req event reg point).1 (server.proceed req event reg point).2 := by
  cases req with
  | upload name uuid upload =>
    unfold proceed
    exact .upload rfl rfl (fun checked => checked_turn _ checked _ _)
      ((server.config name uuid).turn_effect event.toUploadEvent reg point upload)
  | init name digest body =>
    cases point with
    | ready =>
      unfold proceed initUpload
      cases digest with
      | some text =>
        -- Storing a blob at once answers with 201 or an error.
        refine .kept (.inr ?_)
        rintro upload ⟨⟩
        refine ⟨_, rfl, ?_⟩
        rintro ⟨headers, accepted⟩
        simp only [UploadPoint.answered.injEq] at accepted
        unfold monolithic at accepted
        split at accepted
        · cases accepted
        · dsimp only at accepted
          split at accepted
          · cases accepted
          · split at accepted <;> cases accepted
      | none =>
        dsimp only
        have moves : ∀ answer, Moves server (.init name none body) event reg (.upload .ready)
            (reg.startUpload server.limits name event.uuid event.now).2
            (.upload (.answered answer)) := fun _ => .started rfl
        generalize reg.startUpload server.limits name event.uuid event.now = result at moves ⊢
        obtain ⟨admission, after⟩ := result
        cases admission with
        | started | atCapacity => exact moves _
    | _ => exact .kept (.inl rfl)
  | status name uuid =>
    cases point with
    | ready =>
      unfold proceed getUploadStatus
      rcases reg.getUploadState_effect name uuid server.limits.idleTtl event.now
        with ⟨missing, _⟩ | ⟨session, looked, _⟩
      · simp only [missing]
        refine .erased (.inl rfl) ?_
        rintro upload ⟨⟩
        exact ⟨_, rfl⟩
      · simp only [looked]
        exact .kept (.inr nofun)
    | _ => exact .kept (.inl rfl)
  | cancel name uuid =>
    cases point with
    | ready =>
      unfold proceed cancelUpload InMemoryState.cancelUpload
      dsimp only
      split
      · rename_i ended
        obtain ⟨_, rfl⟩ := Prod.mk.inj ended
        refine .erased (.inr rfl) ?_
        rintro upload ⟨⟩
        exact ⟨_, rfl⟩
      · rename_i ended
        obtain ⟨_, rfl⟩ := Prod.mk.inj ended
        exact .erased (.inr rfl) nofun
    | _ => exact .kept (.inl rfl)

/-- Every turn of a request is one of these. -/
theorem turn_moves (req : SessionRequest) (event : SessionEvent) (reg : InMemoryState) (point : SessionPoint) :
    Moves server req event reg point (server.turn req event reg point).1
      (server.turn req event reg point).2 := by
  -- The name is checked in the first turn, before the handler does anything.
  cases point with
  | noContent headers => exact .kept (.inl rfl)
  | upload upload =>
    cases upload with
    | ready =>
      unfold turn
      cases validateName req.name with
      | error error =>
        refine .kept (.inr ?_)
        rintro upload ⟨⟩
        exact ⟨_, rfl, nofun⟩
      | ok _ => exact server.proceed_moves req event reg .ready
    | _ => exact server.proceed_moves req event reg _

end UploadServer

/-- A chunk that was accepted: its request, the offset it was sent for, and where its session ended. -/
structure Acceptance where
  client : Nat
  start : Nat
  offset : Option Nat

/-- What all requests act on, with the chunks accepted so far in order beside it. -/
structure SessionShared where
  registry : InMemoryState
  accepted : List Acceptance := []

/-- A run of requests on sessions. -/
abbrev SessionSystem := Interleaving.State Nat SessionShared SessionPoint

/-- A request whose chunk has been acknowledged. -/
def SessionPoint.Accepted (point : SessionPoint) : Prop :=
  ∃ headers, point = .upload (.answered (.accepted headers))

/-- Note the acceptance of a chunk, made in a turn between two points. -/
def SessionShared.record (shared : SessionShared) (client : Nat) (req : SessionRequest)
    (point next : SessionPoint) : List Acceptance :=
  match req, point, next with
  | .upload name uuid _, .upload (.patchAppend start), .upload (.answered (.accepted _)) =>
    -- The session ends where the chunk is about to be appended.
    shared.accepted ++
      [⟨client, start, shared.registry.uploads[(name, uuid)]?.map UploadState.offset⟩]
  | _, _, _ => shared.accepted

/-- Without an acknowledgement there is nothing to note. -/
theorem SessionShared.record_of_not_accepted (shared : SessionShared) (client : Nat)
    (req : SessionRequest) (point : SessionPoint) {next : SessionPoint}
    (quiet : ¬ next.Accepted) : shared.record client req point next = shared.accepted := by
  unfold record
  split
  · exact absurd ⟨_, rfl⟩ quiet
  · rfl

namespace UploadServer

variable (server : UploadServer) (reqs : Nat → SessionRequest)

/-- The requests as threads. -/
def program : Interleaving.Program Nat SessionShared SessionPoint SessionEvent :=
  fun client event shared point =>
    let (reg, next) := server.turn (reqs client) event shared.registry point
    (⟨reg, shared.record client (reqs client) point next⟩, next)

/-- A registry before any request is made. -/
def opening (reg : InMemoryState) : SessionSystem := ⟨⟨reg, []⟩, fun _ => .upload .ready⟩

/-- A request that has been answered stays so, and changes nothing more. -/
theorem turn_answered (req : SessionRequest) (event : SessionEvent) (reg : InMemoryState)
    (answer : UploadAnswer) : server.turn req event reg (.upload (.answered answer)) =
      (reg, .upload (.answered answer)) := by
  cases req with
  | upload name uuid upload => cases upload <;> rfl
  | _ => rfl

section Checks

/-- Every request that is about to append has made its checks. -/
def AllChecked (system : SessionSystem) : Prop :=
  ∀ client name uuid upload point, reqs client = .upload name uuid upload →
    system.points client = .upload point → (server.config name uuid).Checked upload point

/-- No request starts with an append. -/
theorem allChecked_opening (reg : InMemoryState) : server.AllChecked reqs (opening reg) := by
  intro client name uuid upload point _ reached
  cases reached
  exact checked_of_none rfl

/-- A turn of any request keeps the checks of all. -/
theorem allChecked_turn {system : SessionSystem} (checked : server.AllChecked reqs system)
    (event : Nat × SessionEvent) :
    server.AllChecked reqs (Interleaving.turn (server.program reqs) system event) := by
  obtain ⟨client, event⟩ := event
  intro other name uuid upload point asks reached
  -- The other requests stay where they are, so only the own point has to be looked at.
  have moves := server.turn_moves (reqs client) event system.shared.registry
    (system.points client)
  by_cases own : other = client
  · subst own
    have next : (server.turn (reqs other) event system.shared.registry
        (system.points other)).2 = .upload point := (if_pos rfl).symm.trans reached
    rw [next] at moves
    generalize (server.turn (reqs other) event system.shared.registry (system.points other)).1 = after at moves
    cases moves with
    | kept quiet =>
      rcases quiet with same | ended
      · exact checked other name uuid upload point asks same.symm
      · obtain ⟨answer, rfl, _⟩ := ended point rfl
        exact checked_of_none rfl
    | upload same before keeps _ =>
      rw [asks] at same
      cases same
      exact keeps (checked other name uuid upload _ asks before)
    | erased _ ends =>
      obtain ⟨error, rfl⟩ := ends point rfl
      exact checked_of_none rfl
    | started _ => exact checked_of_none rfl
  · exact checked other name uuid upload point asks ((if_neg own).symm.trans reached)

end Checks

section Bounds

/-- The sessions keep to the limits of the server. -/
structure Bounded (reg : InMemoryState) : Prop where
  sessions : reg.uploads.size ≤ server.limits.maxSessions
  -- That an offset is a 64-bit word matters only for a cap of the largest one.
  buffers : ∀ (key : String × String) (session : UploadState),
    reg.uploads[key]? = some session → session.offset ≤ u64Max →
      session.offset ≤ server.maxUploadSessionBytes

private theorem bounded_empty : server.Bounded {} where
  sessions := Nat.zero_le _
  buffers := by
    intro key session found
    simp at found

variable {server}

variable {reg : InMemoryState}

/-- Dropping a session keeps to the limits. -/
theorem Bounded.erase (bounded : server.Bounded reg) (key : String × String) :
    server.Bounded { reg with uploads := reg.uploads.erase key } where
  sessions := ExtTreeMap.size_erase_le.trans bounded.sessions
  buffers := by
    intro other session found
    exact bounded.buffers other session (SparseMap.getElem?_of_erase found)

/-- Replacing a session by one within the cap keeps to the limits. -/
theorem Bounded.replace (bounded : server.Bounded reg) {key : String × String} {before after : UploadState}
    (found : reg.uploads[key]? = some before)
    (small : after.offset ≤ u64Max → after.offset ≤ server.maxUploadSessionBytes) :
    server.Bounded { reg with uploads := reg.uploads.insert key after } where
  sessions := by
    -- The key is not new, so the number of sessions stays.
    have member : key ∈ reg.uploads := by
      rw [ExtTreeMap.mem_iff_isSome_getElem?, found]
      rfl
    rw [ExtTreeMap.size_insert, if_pos (ExtTreeMap.contains_iff_mem.mpr member)]
    exact bounded.sessions
  buffers := by
    intro other session stored
    rw [ExtTreeMap.getElem?_insert] at stored
    split at stored
    · cases stored
      exact small
    · exact bounded.buffers other session stored

/-- Opening a session keeps to the limits. -/
theorem Bounded.startUpload (bounded : server.Bounded reg) (name uuid : String) (now : Nat) :
    server.Bounded (reg.startUpload server.limits name uuid now).2 := by
  -- Sweeping only removes sessions, and a new one is opened only below the limit.
  have swept : server.Bounded (reg.sweepIdleUploads now server.limits.idleTtl) := by
    refine ⟨ExtTreeMap.size_filter_le_size.trans bounded.sessions, ?_⟩
    intro key session found
    simp only [InMemoryState.sweepIdleUploads, ExtTreeMap.getElem?_filter'] at found
    exact bounded.buffers key session (Option.eq_some_of_filter_eq_some found)
  unfold InMemoryState.startUpload
  dsimp only
  split
  · exact swept
  · rename_i free
    refine ⟨?_, ?_⟩
    · have grown := ExtTreeMap.size_insert_le (t :=
        (reg.sweepIdleUploads now server.limits.idleTtl).uploads) (k := (name, uuid))
        (v := UploadState.new name uuid now)
      dsimp only
      omega
    · intro key session found
      dsimp only at found
      rw [ExtTreeMap.getElem?_insert] at found
      split at found
      · cases found
        exact fun _ => Nat.zero_le _
      · exact swept.buffers key session found

/-- What a request on a session does keeps to the limits, given its checks. -/
theorem Bounded.effect {after : InMemoryState} (bounded : server.Bounded reg)
    {name uuid : String} {upload : UploadRequest} {now : Nat} {point next : UploadPoint}
    (checked : (server.config name uuid).Checked upload point)
    (effect : (server.config name uuid).Effect upload now reg point after next) : server.Bounded after := by
  cases effect with
  | kept _ => exact bounded
  | erased _ => exact bounded.erase _
  | @appended start session _ reached found fits _ =>
    -- The session is still at the offset that was checked against the cap.
    apply bounded.replace found
    intro word
    have room : ¬ server.maxUploadSessionBytes < min (start + upload.body.length) u64Max :=
      of_decide_eq_false (checked _ reached).1
    simp only [UploadState.append, UploadState.offset, List.length_append] at word fits ⊢
    omega
  | emptied _ found _ => exact bounded.replace found fun _ => Nat.zero_le _

/-- A turn of any request keeps to the limits. -/
theorem Bounded.turn {system : SessionSystem} (checked : server.AllChecked reqs system)
    (bounded : server.Bounded system.shared.registry) (event : Nat × SessionEvent) : server.Bounded
      (Interleaving.turn (server.program reqs) system event).shared.registry := by
  obtain ⟨client, event⟩ := event
  have moves := server.turn_moves (reqs client) event system.shared.registry
    (system.points client)
  change server.Bounded (server.turn (reqs client) event system.shared.registry (system.points client)).1
  generalize server.turn (reqs client) event system.shared.registry
    (system.points client) = result at moves ⊢
  obtain ⟨after, next⟩ := result
  -- Of the four kinds of moves only an upload makes a session longer, and it was checked before.
  cases moves with
  | kept _ => exact bounded
  | upload asks reached _ effect => exact bounded.effect (checked client _ _ _ _ asks reached) effect
  | erased _ _ => exact bounded.erase _
  | started _ => exact bounded.startUpload _ _ _

variable (server)

/-- The sessions keep to the limits of the server throughout every run. -/
theorem sessions_bounded (events : List (Nat × SessionEvent)) :
    let reg := (run (server.program reqs) (opening {}) events).shared.registry
    reg.uploads.size ≤ server.limits.maxSessions ∧
      ∀ (key : String × String) (session : UploadState),
        reg.uploads[key]? = some session → session.offset ≤ u64Max →
          session.offset ≤ server.maxUploadSessionBytes := by
  intro reg
  -- The bound on a session rests on the checks, so both are carried through the run.
  have step : ∀ system event,
      server.AllChecked reqs system ∧ server.Bounded system.shared.registry →
      server.AllChecked reqs (Interleaving.turn (server.program reqs) system event) ∧
        server.Bounded
          (Interleaving.turn (server.program reqs) system event).shared.registry := by
    rintro system event ⟨checked, bounded⟩
    exact ⟨server.allChecked_turn reqs checked event, bounded.turn reqs checked event⟩
  have always := run_invariant step
    ⟨server.allChecked_opening reqs {}, server.bounded_empty⟩ events
  exact ⟨always.2.sessions, always.2.buffers⟩

end Bounds

end UploadServer

end FerroProtocols.Oci
