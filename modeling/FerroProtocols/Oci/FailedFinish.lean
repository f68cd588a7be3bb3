import FerroProtocols.Oci.UploadRuns

/-! What a final request that fails leaves of the session it found. -/

namespace FerroProtocols.Oci

open BlobStore Std

namespace UploadConfig

/-- A request that takes its turns one after the other, with no other request in between. -/
def alone (config : UploadConfig) (req : UploadRequest) (reg : InMemoryState)
    (point : UploadPoint) (events : List UploadEvent) : InMemoryState × UploadPoint :=
  -- Every registry call has its own time, and the store its own answer.
  events.foldl (fun (reg, point) event =>
    let turn := config.turn req event reg point
    (turn.registry, turn.point)) (reg, point)

/-- A client can go on from the offset it was last told, or is told that there is no session. -/
def Resumable (config : UploadConfig) (buffered : Bytes) (reg : InMemoryState) : Prop :=
  ∀ session, config.session reg = some session →
    buffered.length ≤ session.offset ∧ buffered <+: session.buffer

section Alone

variable (config : UploadConfig) (digest : Option String) (body : Bytes)

private theorem alone_cons {req : UploadRequest} {reg : InMemoryState} {point : UploadPoint}
    {event : UploadEvent} {turn : UploadTurn} (first : config.turn req event reg point = turn)
    (rest : List UploadEvent) : config.alone req reg point (event :: rest) =
      config.alone req turn.registry turn.point rest := by
  rw [← first]
  rfl

private theorem alone_answered (reg : InMemoryState) (answer : UploadAnswer) (events : List UploadEvent) :
    config.alone (.finish digest body) reg (.answered answer) events = (reg, .answered answer) := by
  -- Each further turn finds the same point again.
  induction events with
  | nil => rfl
  | cons event rest ih => exact ih

variable {config digest body} {reg : InMemoryState} {session : UploadState}
  {declared : Digest} {error : OciError} {events : List UploadEvent}

private theorem session_takeUploadBytes (there : config.session reg = some session) :
    ∃ after, reg.takeUploadBytes config.name config.uuid = (some session.buffer, after) ∧
      config.session after = some { session with buffer := [] } := by
  unfold InMemoryState.takeUploadBytes
  unfold UploadConfig.session at there ⊢
  simp only [there]
  exact ⟨_, rfl, by simp [UploadState.takeBytes]⟩

private theorem alone_finishStore_refused {bytes : Bytes}
    (failed : (config.alone (.finish digest body) reg (.finishStore declared bytes) events).2 =
      .answered (.refused error)) :
    (config.alone (.finish digest body) reg (.finishStore declared bytes) events).1 = reg := by
  -- It fails when the store does, and cannot fail once the bytes are stored.
  cases events with
  | nil => cases failed
  | cons event rest =>
    cases put : event.put with
    | error storeError =>
      have refused : config.turn (.finish digest body) event reg
          (.finishStore declared bytes) = ⟨reg, .answered (.refused
            (.ofBlobStore storeError)), .abandoned⟩ := by
        simp only [turn, finishUpload, put]
      rw [alone_cons config refused, alone_answered]
    | ok _ =>
      have stored : config.turn (.finish digest body) event reg
          (.finishStore declared bytes) = ⟨reg, .finishComplete declared, .stored bytes⟩ := by
        simp only [turn, finishUpload, put]
      rw [alone_cons config stored] at failed
      cases rest with
      | nil => cases failed
      | cons next rest =>
        rw [alone_cons config rfl, turn, finishUpload, alone_answered] at failed
        cases failed

private theorem alone_finishTake_refused (there : config.session reg = some session)
    (failed : (config.alone (.finish digest body) reg (.finishTake declared) events).2 =
      .answered (.refused error)) :
    config.session (config.alone (.finish digest body) reg (.finishTake declared) events).1 =
      some { session with buffer := [] } := by
  obtain ⟨after, took, left⟩ := session_takeUploadBytes there
  cases events with
  | nil => cases failed
  | cons event rest =>
    by_cases mismatch : declared.algo = (Digest.sha256Of config.sha session.buffer).algo ∧
        (Digest.sha256Of config.sha session.buffer).hex ≠ declared.hex
    · -- The digest is wrong, and the bytes are already out of the session.
      have refused : ∃ answer, config.turn (.finish digest body) event reg
          (.finishTake declared) = ⟨after, .answered answer, .spilled⟩ := by
        simp only [turn, finishUpload, took, if_pos mismatch]
        exact ⟨_, rfl⟩
      obtain ⟨answer, refused⟩ := refused
      rw [alone_cons config refused, alone_answered]
      exact left
    · have taken : config.turn (.finish digest body) event reg (.finishTake declared) =
          ⟨after, .finishStore declared session.buffer, .taken⟩ := by
        simp [turn, finishUpload, took, mismatch]
      rw [alone_cons config taken] at failed ⊢
      rw [alone_finishStore_refused failed]
      exact left

private theorem alone_finishAppend_refused (there : config.session reg = some session)
    (failed : (config.alone (.finish digest body) reg
      (.finishAppend declared session.offset) events).2 = .answered (.refused error)) :
    ∃ emptied, config.session (config.alone (.finish digest body) reg
      (.finishAppend declared session.offset) events).1 = some emptied ∧ emptied.buffer = [] := by
  cases events with
  | nil => cases failed
  | cons event rest =>
    -- Nothing came in between, so the offset is still the right one.
    have appended : ∃ after, config.turn (.finish digest body) event reg
        (.finishAppend declared session.offset) = ⟨after, .finishTake declared, .appended⟩ ∧
          config.session after = some (session.append body event.now) := by
      unfold UploadConfig.session at there ⊢
      simp only [turn, finishUpload, InMemoryState.appendUpload, there, ne_eq, not_true_eq_false, if_false]
      exact ⟨_, rfl, by simp⟩
    obtain ⟨after, appended, grown⟩ := appended
    rw [alone_cons config appended] at failed ⊢
    exact ⟨_, alone_finishTake_refused grown failed, rfl⟩

private theorem alone_finishCancel_refused {offset : Nat}
    (failed : (config.alone (.finish digest body) reg (.finishCancel offset) events).2 =
      .answered (.refused error)) :
    config.session (config.alone (.finish digest body) reg (.finishCancel offset) events).1 = none := by
  cases events with
  | nil => cases failed
  | cons event rest =>
    -- Whatever it answers, the next step forgets the session.
    have cancelled : ∃ answer, config.turn (.finish digest body) event reg
        (.finishCancel offset) = ⟨(reg.cancelUpload config.name config.uuid).2, .answered answer, .cancelled⟩ :=
      ⟨_, rfl⟩
    obtain ⟨answer, cancelled⟩ := cancelled
    rw [alone_cons config cancelled, alone_answered]
    exact config.session_cancelUpload reg

end Alone

variable {config : UploadConfig} {digest : Option String} {body : Bytes}
  {reg : InMemoryState} {session : UploadState} {declared : Digest} {error : OciError}

private theorem getUploadState_found {now : Nat}
    (found : (reg.getUploadState config.name config.uuid config.limits.idleTtl now).1 = some session) :
    reg.getUploadState config.name config.uuid config.limits.idleTtl now =
        (some session, reg) ∧ config.session reg = some session := by
  rcases reg.getUploadState_effect config.name config.uuid config.limits.idleTtl now with
    ⟨missing, _⟩ | ⟨state, looked, stored⟩
  · rw [missing] at found
    cases found
  · rw [looked] at found
    cases found
    exact ⟨looked, stored⟩

private theorem resumable_of_none {buffered : Bytes} (gone : config.session reg = none) :
    config.Resumable buffered reg := by
  intro session there
  rw [gone] at there
  cases there

private theorem resumable_emptied_iff {buffered : Bytes} (there : config.session reg = some session)
    (empty : session.buffer = []) : config.Resumable buffered reg ↔ buffered = [] := by
  constructor
  · intro resumable
    have kept := (resumable session there).2
    rw [empty] at kept
    exact List.prefix_nil.mp kept
  · rintro rfl found _
    exact ⟨Nat.zero_le _, List.nil_prefix⟩

/-- A final request that found a session and failed leaves one that can be resumed exactly when
nothing was buffered, or when it dropped the session for going over the cap. -/
theorem failed_finish_resumable_iff (event : UploadEvent) (rest : List UploadEvent)
    (declares : declaredDigest digest = .ok declared)
    (found : (reg.getUploadState config.name config.uuid config.limits.idleTtl event.now).1 = some session)
    (failed : (config.alone (.finish digest body) reg .ready (event :: rest)).2 = .answered (.refused error)) :
    config.Resumable session.buffer (config.alone (.finish digest body) reg .ready (event :: rest)).1 ↔
      session.buffer = [] ∨ body ≠ [] ∧
        wouldExceedCap config.maxUploadSessionBytes session.offset body.length = true := by
  obtain ⟨looked, there⟩ := getUploadState_found found
  have first : config.turn (.finish digest body) event reg .ready =
      ⟨reg, config.finishCheck declared body session.offset, .quiet⟩ := by
    simp only [turn, finishUpload, declares, looked]
  rw [alone_cons config first] at failed ⊢
  -- What follows is decided by the body and the cap alone.
  unfold finishCheck at failed ⊢
  by_cases bare : body = []
  · simp only [bare, List.isEmpty_nil, if_true] at failed ⊢
    rw [resumable_emptied_iff (alone_finishTake_refused there failed) rfl]
    simp
  · rw [if_neg (by simpa using bare)] at failed ⊢
    by_cases exceeds : wouldExceedCap config.maxUploadSessionBytes session.offset body.length = true
    · rw [if_pos exceeds] at failed ⊢
      have gone := alone_finishCancel_refused failed
      exact iff_of_true (resumable_of_none gone) (.inr ⟨bare, exceeds⟩)
    · rw [if_neg exceeds] at failed ⊢
      obtain ⟨emptied, left, empty⟩ := alone_finishAppend_refused there failed
      rw [resumable_emptied_iff left empty]
      simp [exceeds]

/-- A session that holds one byte, which is all it may hold. -/
def oneByteFull : UploadState := ⟨"a", "u", [7], 0⟩

/-- The registry with that session. -/
def oneByteFilled : InMemoryState := { uploads := {(("a", "u"), oneByteFull)} }

/-- A final request with one more byte drops the session. -/
theorem failed_finish_resumable_over_cap : oneByte.Resumable oneByteFull.buffer
      (oneByte.alone (.finish (some emptySha.toString) [8]) oneByteFilled .ready
        [{ now := 0 }, { now := 0 }]).1 := by
  have declares : declaredDigest (some emptySha.toString) = .ok emptySha := by
    simp only [declaredDigest, Digest.parse_toString]
  obtain ⟨live, refused⟩ : (oneByteFilled.getUploadState oneByte.name oneByte.uuid oneByte.limits.idleTtl 0).1 =
        some oneByteFull ∧
      (oneByte.alone (.finish (some emptySha.toString) [8]) oneByteFilled .ready
        [{ now := 0 }, { now := 0 }]).2 = .answered (uploadTooLarge 1 1 1) := by decide +kernel
  exact (failed_finish_resumable_iff { now := 0 } [{ now := 0 }] declares live refused).mpr
    (.inr ⟨by decide, by decide⟩)

/-- A final request with a wrong digest loses the byte that was buffered and keeps the session. -/
theorem failed_finish_loses_buffer :
    ¬ ∀ (config : UploadConfig) (digest : Option String) (body : Bytes) (reg : InMemoryState)
      (session : UploadState) (declared : Digest) (error : OciError) (event : UploadEvent) (rest : List UploadEvent),
      declaredDigest digest = .ok declared →
      (reg.getUploadState config.name config.uuid config.limits.idleTtl event.now).1 = some session →
      (config.alone (.finish digest body) reg .ready (event :: rest)).2 = .answered (.refused error) →
      config.Resumable session.buffer (config.alone (.finish digest body) reg .ready (event :: rest)).1 := by
  intro always
  have declares : declaredDigest (some emptySha.toString) = .ok emptySha := by
    simp only [declaredDigest, Digest.parse_toString]
  -- The request is refused after the buffer was taken, and the session stays without it.
  obtain ⟨live, refused, emptied⟩ :
      let finished := oneByte.alone (.finish (some emptySha.toString) []) oneByteFilled .ready
        [{ now := 0 }, { now := 0 }]
      (oneByteFilled.getUploadState oneByte.name oneByte.uuid oneByte.limits.idleTtl 0).1 =
          some oneByteFull ∧
        finished.2 = .answered (.refused ⟨.digestInvalid, "digest mismatch: declared " ++
          emptySha.toString ++ ", computed " ++ sevenSha.toString, none⟩) ∧
        oneByte.session finished.1 = some ⟨"a", "u", [], 0⟩ := by decide +kernel
  have resumable := always oneByte (some emptySha.toString) [] oneByteFilled oneByteFull emptySha _
    { now := 0 } [{ now := 0 }] declares live refused
  exact absurd (resumable _ emptied).1 (by decide)

end UploadConfig

end FerroProtocols.Oci
