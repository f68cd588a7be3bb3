import FerroProtocols.Oci.SessionRuns
import Mathlib.Data.List.Pairwise

/-! The order of the chunks of a session, however the requests of its clients interleave. -/

namespace FerroProtocols.Oci

open BlobStore Std Interleaving SessionShared

namespace SessionRequest

/-- A request that brings a chunk, asks how far a session has come, or cancels it. -/
def Chunked : SessionRequest → Prop
  | .upload _ _ (.patch _ _) | .status _ _ | .cancel _ _ => True
  | .upload _ _ (.finish _ _) | .init _ _ _ => False

/-- The session a request is about. -/
def key : SessionRequest → Option (String × String)
  | .upload name uuid _ | .status name uuid | .cancel name uuid => some (name, uuid)
  | .init _ _ _ => none

/-- The bytes a request brings. -/
def body : SessionRequest → Bytes
  | .upload _ _ req => req.body
  | .init _ _ body => body
  | .status _ _ | .cancel _ _ => []

end SessionRequest

namespace UploadServer

variable (server : UploadServer) (reqs : Nat → SessionRequest)

/-- The chunks accepted for a session, in the order of their acceptance. -/
def acceptedBytes (accepted : List Acceptance) (key : String × String) : Bytes :=
  (accepted.filter fun entry => decide ((reqs entry.client).key = some key)).flatMap
    fun entry => (reqs entry.client).body

/-- Where a chunk that was accepted ends. -/
def endsAt (entry : Acceptance) : Nat := entry.start + (reqs entry.client).body.length

/-- What holds of the accepted chunks at every moment. -/
structure InOrder (initial : InMemoryState) (system : SessionSystem) : Prop where
  buffers : ∀ (key : String × String) (session : UploadState),
    system.shared.registry.uploads[key]? = some session →
      ∃ before, initial.uploads[key]? = some before ∧
        session.buffer = before.buffer ++ acceptedBytes reqs system.shared.accepted key
  answered : ∀ client, (∃ entry ∈ system.shared.accepted, entry.client = client) ↔
    (system.points client).Accepted
  once : (system.shared.accepted.map Acceptance.client).Nodup
  -- As long as the session is there, no chunk can be accepted below the end of another.
  reached : ∀ entry ∈ system.shared.accepted, ∀ (key : String × String) (session : UploadState),
    (reqs entry.client).key = some key →
      system.shared.registry.uploads[key]? = some session → endsAt reqs entry ≤ session.offset
  ordered : system.shared.accepted.Pairwise fun earlier later =>
    (reqs earlier.client).key = (reqs later.client).key →
      endsAt reqs earlier ≤ later.start
  started : ∀ entry ∈ system.shared.accepted, entry.offset = some entry.start ∧
    ∀ name uuid contentRange body,
      reqs entry.client = .upload name uuid (.patch contentRange body) →
        UploadConfig.chunkStart contentRange body entry.start = .ok entry.start

private theorem inOrder_opening (initial : InMemoryState) : InOrder reqs initial (opening initial) where
  buffers := by
    intro key session found
    exact ⟨session, found, by simp [acceptedBytes, opening]⟩
  answered := by
    intro client
    constructor
    · rintro ⟨entry, member, _⟩
      cases member
    · rintro ⟨headers, accepted⟩
      cases accepted
  once := List.nodup_nil
  reached := nofun
  ordered := List.Pairwise.nil
  started := nofun

section Turn

variable {server reqs} {initial : InMemoryState} {system : SessionSystem} {client : Nat}

variable {after : InMemoryState} {next : SessionPoint}

/-- A turn that accepts nothing and changes no session other than by dropping it. -/
theorem InOrder.quiet (inOrder : InOrder reqs initial system) (fresh : ¬ (system.points client).Accepted)
    (refused : ¬ next.Accepted)
    (fewer : ∀ (key : String × String) (session : UploadState), after.uploads[key]? = some session →
      system.shared.registry.uploads[key]? = some session) : InOrder reqs initial ⟨⟨after, system.shared.accepted⟩,
      fun thread => if thread = client then next else system.points thread⟩ where
  buffers := fun key session found => inOrder.buffers key session (fewer key session found)
  answered := by
    intro other
    dsimp only
    by_cases own : other = client
    · -- The request had not been acknowledged before, and is not now.
      subst own
      rw [if_pos rfl]
      exact iff_of_false (fun noted => fresh ((inOrder.answered other).mp noted)) refused
    · rw [if_neg own]
      exact inOrder.answered other
  once := inOrder.once
  reached := fun entry member key session own found =>
    inOrder.reached entry member key session own (fewer key session found)
  ordered := inOrder.ordered
  started := inOrder.started

/-- A turn that accepts a chunk at the end of its session. -/
theorem InOrder.accept (inOrder : InOrder reqs initial system) {name uuid : String}
    {contentRange : Option (Option String)} {body : Bytes} {session : UploadState} {now : Nat}
    (asks : reqs client = .upload name uuid (.patch contentRange body))
    (fresh : ¬ (system.points client).Accepted) (accepted : next.Accepted)
    (found : system.shared.registry.uploads[(name, uuid)]? = some session)
    (starts : UploadConfig.chunkStart contentRange body session.offset = .ok session.offset) : InOrder reqs initial
      ⟨⟨{ system.shared.registry with
          uploads := system.shared.registry.uploads.insert (name, uuid) (session.append body now) },
        system.shared.accepted ++ [⟨client, session.offset, some session.offset⟩]⟩,
      fun thread => if thread = client then next else system.points thread⟩ := by
  have ownKey : (reqs client).key = some (name, uuid) := by rw [asks]; rfl
  have ownBody : (reqs client).body = body := by rw [asks]; rfl
  -- The request has not been noted before.
  have unseen : ∀ entry ∈ system.shared.accepted, entry.client ≠ client := by
    intro entry member same
    exact fresh ((inOrder.answered client).mp ⟨entry, member, same⟩)
  refine ⟨?buffers, ?answered, ?once, ?reached, ?ordered, ?started⟩
  case buffers =>
    intro key other stored
    dsimp only at stored ⊢
    rw [ExtTreeMap.getElem?_insert] at stored
    by_cases here : (name, uuid) = key
    · subst here
      rw [if_pos (by simp)] at stored
      cases stored
      obtain ⟨before, first, grown⟩ := inOrder.buffers (name, uuid) session found
      refine ⟨before, first, ?_⟩
      simp only [UploadState.append, grown, acceptedBytes, List.filter_append, List.flatMap_append]
      simp [ownKey, ownBody]
    · rw [if_neg (by simpa [LawfulEqCmp.compare_eq_iff_eq] using here)] at stored
      obtain ⟨before, first, grown⟩ := inOrder.buffers key other stored
      refine ⟨before, first, ?_⟩
      simp only [grown, acceptedBytes, List.filter_append, List.flatMap_append]
      simp [ownKey, here]
  case answered =>
    intro other
    dsimp only
    by_cases own : other = client
    · subst own
      rw [if_pos rfl]
      exact iff_of_true ⟨_, List.mem_append_right _ List.mem_cons_self, rfl⟩ accepted
    · rw [if_neg own, ← inOrder.answered other]
      simp [Ne.symm own]
  case once =>
    rw [List.map_append, List.nodup_append]
    refine ⟨inOrder.once, by simp, ?_⟩
    intro other member single alone same
    obtain ⟨entry, inside, rfl⟩ := List.mem_map.mp member
    simp only [List.map_cons, List.map_nil, List.mem_singleton] at alone
    exact unseen entry inside (same.trans alone)
  case reached =>
    intro entry member key other own stored
    dsimp only at member stored
    rw [ExtTreeMap.getElem?_insert] at stored
    rcases List.mem_append.mp member with earlier | new
    · by_cases here : (name, uuid) = key
      · -- The session has grown, so what was below its end still is.
        subst here
        rw [if_pos (by simp)] at stored
        cases stored
        have below := inOrder.reached entry earlier (name, uuid) session own found
        simp only [UploadState.append, UploadState.offset, List.length_append] at below ⊢
        omega
      · rw [if_neg (by simpa [LawfulEqCmp.compare_eq_iff_eq] using here)] at stored
        exact inOrder.reached entry earlier key other own stored
    · rw [List.mem_singleton.mp new] at own ⊢
      rw [ownKey] at own
      cases own
      rw [if_pos (by simp)] at stored
      cases stored
      simp [endsAt, ownBody, UploadState.append, UploadState.offset]
  case ordered =>
    refine List.pairwise_append.mpr ⟨inOrder.ordered, List.pairwise_singleton _ _, ?_⟩
    intro earlier member later new same
    rw [List.mem_singleton.mp new] at same ⊢
    exact inOrder.reached earlier member (name, uuid) session (same.trans ownKey) found
  case started =>
    intro entry member
    rcases List.mem_append.mp member with earlier | new
    · exact inOrder.started entry earlier
    · rw [List.mem_singleton.mp new]
      refine ⟨rfl, ?_⟩
      intro otherName otherUuid otherRange otherBody same
      rw [asks] at same
      cases same
      exact starts

private theorem turn_of_accepted (done : (system.points client).Accepted) (event : SessionEvent) :
    Interleaving.turn (server.program reqs) system (client, event) = system := by
  obtain ⟨headers, answered⟩ := done
  -- The program of an answered request keeps the shared state and its point.
  have nothing : server.program reqs client event system.shared (system.points client) =
      (system.shared, system.points client) := by
    unfold program
    rw [answered, turn_answered]
    cases reqs client <;> rfl
  obtain ⟨shared, points⟩ := system
  simp only [Interleaving.turn, nothing]
  congr 1
  funext thread
  split
  · rename_i own
    rw [own]
  · rfl

/-- What a request on a session does keeps the chunks of every session in order. -/
theorem InOrder.effect (inOrder : InOrder reqs initial system) {name uuid : String}
    {upload : UploadRequest} {now : Nat} {point next : UploadPoint}
    (asks : reqs client = .upload name uuid upload) (chunk : upload.isFinish = false)
    (before : system.points client = .upload point) (fresh : ¬ (system.points client).Accepted)
    (checked : (server.config name uuid).Checked upload point)
    (effect : (server.config name uuid).Effect upload now system.shared.registry point after next) :
    InOrder reqs initial ⟨⟨after, system.shared.record client (reqs client) (.upload point) (.upload next)⟩,
        fun thread => if thread = client then .upload next else system.points thread⟩ := by
  -- Without an acknowledgement nothing is noted.
  have unnoted (refused : ¬ next.Accepted) :
      ¬ (SessionPoint.upload next).Accepted := by
    rintro ⟨headers, accepted⟩
    exact refused ⟨headers, SessionPoint.upload.inj accepted⟩
  cases effect with
  | kept quiet =>
    have refused : ¬ (SessionPoint.upload next).Accepted := by
      rcases quiet with same | refused
      · grind
      · exact unnoted refused
    rw [record_of_not_accepted _ _ _ _ refused]
    exact inOrder.quiet fresh refused fun _ _ found => found
  | erased ends =>
    have refused : ¬ next.Accepted := by
      rcases ends with ⟨error, rfl, _⟩ | ⟨_, refused⟩
      · exact nofun
      · exact refused
    rw [record_of_not_accepted _ _ _ _ (unnoted refused)]
    exact inOrder.quiet fresh (unnoted refused) fun _ _ found => SparseMap.getElem?_of_erase found
  | @appended start session _ reached found fits answered =>
    rcases answered with ⟨rfl, _, headers, rfl⟩ | ⟨finish, _⟩
    · -- The chunk is appended at the offset it was checked for.
      cases upload with
      | finish digest body => cases chunk
      | patch contentRange body =>
        have starts := (checked start reached).2 contentRange body rfl
        have noted : system.shared.record client (reqs client) (.upload (.patchAppend start))
            (.upload (.answered (.accepted headers))) =
            system.shared.accepted ++ [⟨client, session.offset, some session.offset⟩] := by
          have here : system.shared.registry.uploads[(name, uuid)]? = some session := found
          simp [SessionShared.record, asks, here, fits]
        rw [noted]
        rw [← fits] at starts
        exact inOrder.accept asks fresh ⟨headers, rfl⟩ found starts
    · grind
  | emptied finish _ _ => grind

/-- A turn of any request keeps the chunks of every session in order. -/
theorem InOrder.turn (only : ∀ client, (reqs client).Chunked)
    (checked : server.AllChecked reqs system) (inOrder : InOrder reqs initial system)
    (event : Nat × SessionEvent) :
    InOrder reqs initial (Interleaving.turn (server.program reqs) system event) := by
  obtain ⟨client, event⟩ := event
  -- A request that has been acknowledged takes no turn that matters.
  by_cases done : (system.points client).Accepted
  · rw [turn_of_accepted done]
    exact inOrder
  · have moves := server.turn_moves (reqs client) event system.shared.registry
      (system.points client)
    have chunked := only client
    change InOrder reqs initial ⟨⟨(server.turn (reqs client) event system.shared.registry
        (system.points client)).1, system.shared.record client (reqs client)
        (system.points client) (server.turn (reqs client) event system.shared.registry
          (system.points client)).2⟩, fun thread => if thread = client then
        (server.turn (reqs client) event system.shared.registry (system.points client)).2
        else system.points thread⟩
    generalize server.turn (reqs client) event system.shared.registry
      (system.points client) = result at moves ⊢
    obtain ⟨after, next⟩ := result
    cases moves with
    | kept quiet =>
      have refused : ¬ next.Accepted := by
        rcases quiet with rfl | ended
        · exact done
        · rintro ⟨headers, accepted⟩
          obtain ⟨answer, _, refused⟩ := ended _ accepted
          exact refused ⟨headers, rfl⟩
      rw [record_of_not_accepted _ _ _ _ refused]
      exact inOrder.quiet done refused fun _ _ found => found
    -- Final requests are excluded, so what is appended is a chunk.
    | @upload name uuid upload point next _ asks before _ effect =>
      rw [before]
      refine inOrder.effect asks ?_ before done (checked client name uuid upload point asks before)
        effect
      rw [asks] at chunked
      cases upload with
      | patch _ _ => rfl
      | finish _ _ => exact chunked.elim
    | erased _ ends =>
      have refused : ¬ next.Accepted := by
        rintro ⟨headers, accepted⟩
        obtain ⟨error, refused⟩ := ends _ accepted
        cases refused
      rw [record_of_not_accepted _ _ _ _ refused]
      exact inOrder.quiet done refused fun _ _ found => SparseMap.getElem?_of_erase found
    -- No request opens a session.
    | started asks =>
      rw [asks] at chunked
      exact chunked.elim

end Turn

section Runs

private theorem inOrder_run (only : ∀ client, (reqs client).Chunked) (initial : InMemoryState)
    (events : List (Nat × SessionEvent)) : InOrder reqs initial
      (run (server.program reqs) (opening initial) events) := by
  -- The checks that requests make are part of what is carried through the run.
  have step : ∀ system event,
      server.AllChecked reqs system ∧ InOrder reqs initial system →
      server.AllChecked reqs (Interleaving.turn (server.program reqs) system event) ∧
        InOrder reqs initial
          (Interleaving.turn (server.program reqs) system event) := by
    rintro system event ⟨checked, inOrder⟩
    exact ⟨server.allChecked_turn reqs checked event, inOrder.turn only checked event⟩
  exact (run_invariant step ⟨server.allChecked_opening reqs initial, inOrder_opening reqs initial⟩ events).2

/-- An answer is final. -/
theorem answered_run {system : SessionSystem} {client : Nat} {answer : UploadAnswer}
    (answered : system.points client = .upload (.answered answer)) (events : List (Nat × SessionEvent)) :
    (run (server.program reqs) system events).points client = .upload (.answered answer) := by
  -- A turn of the request itself changes nothing, and the others do not reach its point.
  have step : ∀ (state : SessionSystem) (event : Nat × SessionEvent),
      state.points client = .upload (.answered answer) →
      (Interleaving.turn (server.program reqs) state event).points client = .upload (.answered answer) := by
    rintro state ⟨other, event⟩ before
    by_cases own : client = other
    · subst own
      have stays := server.turn_answered (reqs client) event state.shared.registry answer
      rw [← before] at stays
      exact (if_pos rfl).trans ((congrArg Prod.snd stays).trans before)
    · exact (if_neg own).trans before
  exact run_invariant step answered events

/-- An error that tells of a session which is as it was: a chunk was malformed or out of place. -/
def Rejection (error : OciError) : Prop := ¬ error.Gone

variable {contentRange : Option (Option String)}

private theorem turn_chunk {req : SessionRequest} {name uuid : String} {body : Bytes}
    (asks : req = .upload name uuid (.patch contentRange body)) (event : SessionEvent)
    (reg : InMemoryState) (point : SessionPoint) : (server.turn req event reg point).1 = reg ∨
      (server.turn req event reg point).2.Accepted ∨
      ∃ error, (server.turn req event reg point).2 = .refused error ∧ error.Gone := by
  -- What only final, opening or cancelling requests do is excluded by the request.
  have moves := server.turn_moves req event reg point
  generalize server.turn req event reg point = result at moves ⊢
  obtain ⟨after, next⟩ := result
  cases moves with
  | kept _ => exact .inl rfl
  | upload same _ _ effect =>
    rw [asks] at same
    cases same
    cases effect with
    | kept _ => exact .inl rfl
    | erased ends =>
      rcases ends with ⟨error, rfl, gone⟩ | ⟨finish, _⟩
      · exact .inr (.inr ⟨error, rfl, gone⟩)
      · cases finish
    | appended _ _ _ answered =>
      rcases answered with ⟨_, _, headers, rfl⟩ | ⟨finish, _⟩
      · exact .inr (.inl ⟨headers, rfl⟩)
      · cases finish
    | emptied finish _ _ => cases finish
  | erased same _ =>
    rw [asks] at same
    rcases same with same | same <;> cases same
  | started same => grind

private theorem rejected_unchanged {name uuid : String} {body : Bytes} {client : Nat}
    (asks : reqs client = .upload name uuid (.patch contentRange body))
    (system : SessionSystem) (event : SessionEvent) (later : List (Nat × SessionEvent))
    {error : OciError} (rejection : Rejection error) (rejected : (run (server.program reqs) system
      ((client, event) :: later)).points client = .refused error) :
    (Interleaving.turn (server.program reqs) system (client, event)).shared.registry = system.shared.registry := by
  have point : (Interleaving.turn (server.program reqs) system (client, event)).points client =
      (server.turn (reqs client) event system.shared.registry (system.points client)).2 :=
    if_pos rfl
  change (run (server.program reqs)
    (Interleaving.turn (server.program reqs) system (client, event)) later).points client = _ at rejected
  rcases server.turn_chunk asks event system.shared.registry (system.points client) with
    same | ⟨headers, accepted⟩ | ⟨other, refused, gone⟩
  · exact same
  · -- An acknowledged chunk is not rejected later.
    have stays := server.answered_run reqs (point.trans accepted) later
    rw [rejected] at stays
    cases stays
  · have stays := server.answered_run reqs (point.trans refused) later
    rw [rejected] at stays
    cases stays
    exact absurd gone rejection

end Runs

private theorem stop_of_checkedLength {range : ContentRange} {length : Nat}
    (checked : range.checkedLength = some length) : range.stop + 1 = range.start + length := by
  unfold ContentRange.checkedLength at checked
  split at checked
  · cases checked
  · split at checked
    · cases checked
      omega
    · cases checked

private theorem range_of_chunkStart {header : Option String} {body : Bytes} {offset start : Nat}
    (starts : UploadConfig.chunkStart (some header) body offset = .ok start) :
    ∃ text range, header = some text ∧ ContentRange.parse text = .ok range ∧
      range.start = start ∧ range.stop + 1 = range.start + body.length := by
  -- The checks are passed in their order: the text, the length of the range, its first offset.
  unfold UploadConfig.chunkStart at starts
  cases header with
  | none => cases starts
  | some text =>
    dsimp only at starts
    split at starts
    · cases starts
    · rename_i range parsed
      split at starts
      · cases starts
      · rename_i length checked
        split at starts
        · cases starts
        · rename_i same
          cases starts
          have ends := stop_of_checkedLength checked
          rw [not_not.mp same] at ends
          exact ⟨text, range, rfl, parsed, rfl, ends⟩

/-- Two chunks are not both accepted for one offset of one session, unless one of them is empty. -/
def Apart (left right : Acceptance) : Prop :=
  (reqs left.client).key = (reqs right.client).key →
    (reqs left.client).body ≠ [] → (reqs right.client).body ≠ [] → left.start ≠ right.start

/-- The buffers of sessions are made of the chunks accepted for them, one after the other. -/
structure Linearised (initial : InMemoryState) (system : SessionSystem) : Prop where
  buffers : ∀ (key : String × String) (session : UploadState),
    system.shared.registry.uploads[key]? = some session →
      ∃ before, initial.uploads[key]? = some before ∧
        session.buffer = before.buffer ++ acceptedBytes reqs system.shared.accepted key
  -- Exactly the chunks answered with 202 are accepted ones, each of them once.
  answered : ∀ client, (∃ entry ∈ system.shared.accepted, entry.client = client) ↔
    (system.points client).Accepted
  once : (system.shared.accepted.map Acceptance.client).Nodup
  exclusive : ∀ left ∈ system.shared.accepted, ∀ right ∈ system.shared.accepted, left ≠ right →
    Apart reqs left right
  ranges : ∀ entry ∈ system.shared.accepted, entry.offset = some entry.start ∧
    ∀ name uuid header body,
      reqs entry.client = .upload name uuid (.patch (some header) body) →
        ∃ text range, header = some text ∧ ContentRange.parse text = .ok range ∧
          entry.offset = some range.start ∧ range.stop + 1 = range.start + body.length

private theorem InOrder.exclusive {reqs : Nat → SessionRequest} {initial : InMemoryState}
    {system : SessionSystem} (inOrder : InOrder reqs initial system) :
    ∀ left ∈ system.shared.accepted, ∀ right ∈ system.shared.accepted, left ≠ right → Apart reqs left right := by
  -- The earlier of two chunks that are not empty ends behind the start of the later.
  have apart : system.shared.accepted.Pairwise (Apart reqs) := by
    refine inOrder.ordered.imp ?_
    intro left right order same filled _ starts
    have positive := List.length_pos_iff.mpr filled
    have below := order same
    simp only [endsAt] at below
    omega
  have symmetric : Std.Symm (Apart reqs) := by
    refine ⟨?_⟩
    intro left right order same filledRight filledLeft starts
    exact order same.symm filledLeft filledRight starts.symm
  intro left inLeft right inRight different
  exact apart.forall inLeft inRight different

/-- However the requests of any number of clients interleave, the chunks of a session follow one
another in the order of their acceptance, and one that is rejected changes nothing. -/
theorem sessions_linearise (only : ∀ client, (reqs client).Chunked) (initial : InMemoryState)
    (events : List (Nat × SessionEvent)) : Linearised reqs initial
        (run (server.program reqs) (opening initial) events) ∧
      ∀ before client event later, events = before ++ (client, event) :: later → ∀ name uuid contentRange body error,
          reqs client = .upload name uuid (.patch contentRange body) → Rejection error →
          (run (server.program reqs) (opening initial) events).points client = .refused error →
          let system := run (server.program reqs) (opening initial) before
          (Interleaving.turn (server.program reqs) system (client, event)).shared.registry =
            system.shared.registry := by
  -- All but the ranges is part of the invariant; the ranges follow from the checks.
  have inOrder := server.inOrder_run reqs only initial events
  refine ⟨⟨inOrder.buffers, inOrder.answered, inOrder.once, inOrder.exclusive, ?_⟩, ?_⟩
  · intro entry member
    obtain ⟨offset, starts⟩ := inOrder.started entry member
    refine ⟨offset, ?_⟩
    intro name uuid header body asks
    obtain ⟨text, range, spelled, parsed, start, ends⟩ :=
      range_of_chunkStart (starts name uuid (some header) body asks)
    exact ⟨text, range, spelled, parsed, by rw [offset, start], ends⟩
  · rintro before client event later rfl name uuid contentRange body error asks rejection rejected
    rw [run, List.foldl_append] at rejected
    exact server.rejected_unchanged reqs asks _ event later rejection rejected

/-- A server with one session at most, of one byte at most. -/
def small : UploadServer := ⟨1, ⟨1, 10⟩, shaTable⟩

/-- A session that has just been opened. -/
def oneSession : InMemoryState := (InMemoryState.startUpload {} small.limits "a" "u" 0).2

/-- Two chunks for the same offset. -/
def twoChunks (client : Nat) : SessionRequest :=
  .upload "a" "u" (.patch (if client = 0 then none else some (some "0-0")) [7])

/-- Both chunks pass their checks, and only the first to append is accepted. -/
theorem sessions_linearise_race :
    let final := run (small.program twoChunks) (opening oneSession)
      [(0, { now := 0 }), (1, { now := 0 }), (1, { now := 0 }), (0, { now := 0 })]
    final.shared.accepted.map Acceptance.client = [1] ∧ Linearised twoChunks oneSession final := by
  refine ⟨by decide +kernel, ?_⟩
  exact (small.sessions_linearise twoChunks (fun _ => trivial) oneSession _).1

end UploadServer

end FerroProtocols.Oci
