import FerroProtocols.BlobStore.Memory
import FerroProtocols.Lib.Ledger
import FerroProtocols.Lib.Runs
import FerroProtocols.Oci.Names

/-! The gauge of stored blobs, under requests that interleave between any two of their steps. -/

namespace FerroProtocols.Oci

open BlobStore Interleaving InMemoryBlobStore

/-- What the handlers of blobs share; the mutex is given by the request that holds it. -/
structure AppState (ι : Type) where
  blobStore : InMemoryBlobStore
  blobCount : Int
  blobAccounting : Option ι

namespace AppState

variable {ι : Type}

/-- An empty store and a gauge of zero. -/
def new : AppState ι := ⟨.new, 0, none⟩

/-- Count one blob more. -/
def incBlobCount (state : AppState ι) : AppState ι := { state with blobCount := state.blobCount + 1 }

/-- Count one blob less, but never less than none. -/
def decBlobCount (state : AppState ι) : AppState ι :=
  { state with blobCount := max (state.blobCount - 1) 0 }

end AppState

/-- The functions the handlers of blobs are built on. -/
structure BlobServer where
  hashes : Hashes

/-- A request that stores or deletes a blob. -/
inductive BlobRequest where
  -- The handlers of uploads and manifests store under a digest they have checked themselves.
  | store (digest : Digest) (body : Bytes)
  | delete (name digestStr : String)

/-- How a request ends. -/
inductive BlobAnswer where
  | stored
  | failed (error : BlobStoreError)
  | accepted
  | refused (error : OciError)
  deriving DecidableEq

/-- How far a request has come. -/
inductive BlobPoint where
  | ready
  -- A store: the mutex is held, the check is made, the blob is written, the answer is known.
  | locked
  | checked (alreadyPresent : Bool)
  | written (alreadyPresent : Bool)
  | unlocking (answer : BlobAnswer)
  -- A delete: the blob was seen, the blob was removed.
  | found (digest : Digest)
  | removed
  | answered (answer : BlobAnswer)
  deriving DecidableEq

namespace BlobServer

variable {ι : Type} (server : BlobServer)

/-- The digest a path spells. -/
def parseDigest (text : String) : Except OciError Digest :=
  match Digest.parse text with
  | .error error =>
    .error ⟨.digestInvalid, "invalid digest `" ++ text ++ "`: " ++ error.text, none⟩
  | .ok digest => .ok digest

/-- One step of storing a blob; the store acts unless it reports a fault. -/
def storeBlobCounted (thread : ι) (digest : Digest) (body : Bytes) (fault : Option BlobStoreError)
    (state : AppState ι) : BlobPoint → AppState ι × BlobPoint
  | .ready =>
    -- The lock is awaited.
    if state.blobAccounting = none then ({ state with blobAccounting := some thread }, .locked)
    else (state, .ready)
  | .locked =>
    match fault with
    -- A check that fails counts as absence.
    | some _ => (state, .checked false)
    | none => (state, .checked (state.blobStore.contains digest))
  | .checked alreadyPresent =>
    match fault with
    | some error => (state, .unlocking (.failed error))
    | none =>
      match state.blobStore.put server.hashes digest body with
      | .error error => (state, .unlocking (.failed error))
      | .ok after => ({ state with blobStore := after }, .written alreadyPresent)
  | .written alreadyPresent =>
    (if alreadyPresent then state else state.incBlobCount, .unlocking .stored)
  | .unlocking answer => ({ state with blobAccounting := none }, .answered answer)
  | point => (state, point)

/-- One step of deleting a blob. -/
def deleteBlob (name digestStr : String) (fault : Option BlobStoreError) (state : AppState ι) :
    BlobPoint → AppState ι × BlobPoint
  | .ready =>
    -- Nothing shared is read before the check for the blob.
    match validateName name with
    | .error error => (state, .answered (.refused error))
    | .ok () =>
      match parseDigest digestStr with
      | .error error => (state, .answered (.refused error))
      | .ok digest =>
        match fault with
        | some error => (state, .answered (.refused (.ofBlobStore error)))
        | none =>
          if state.blobStore.contains digest then (state, .found digest)
          else
            (state, .answered (.refused
              ⟨.blobUnknown, "blob " ++ digest.toString ++ " not found", none⟩))
  | .found digest =>
    match fault with
    | some error => (state, .answered (.refused (.ofBlobStore error)))
    -- That another request has deleted the blob since is no error.
    | none => ({ state with blobStore := state.blobStore.delete digest }, .removed)
  | .removed => (state.decBlobCount, .answered .accepted)
  | point => (state, point)

variable (reqs : ι → BlobRequest)

/-- One step of a request. -/
def program : Interleaving.Program ι (AppState ι) BlobPoint (Option BlobStoreError) :=
  fun thread fault state point =>
    match reqs thread with
    | .store digest body => server.storeBlobCounted thread digest body fault state point
    | .delete name digestStr => deleteBlob name digestStr fault state point

end BlobServer

/-- The blobs, the gauge, and how far every request has come. -/
abbrev BlobSystem (ι : Type) := Interleaving.State ι (AppState ι) BlobPoint

/-- No request has been looked at, and nothing is stored. -/
def BlobSystem.opening (ι : Type) : BlobSystem ι := ⟨.new, fun _ => .ready⟩

namespace BlobRequest

/-- The digest of the blob a request is about. -/
def target : BlobRequest → Option Digest
  | .store digest _ => some digest
  | .delete _ digestStr => (Digest.parse digestStr).toOption

/-- A request that stores. -/
def isStore : BlobRequest → Bool
  | .store _ _ => true
  | .delete _ _ => false

/-- The blob a request is about is in the store. -/
def present {ι : Type} (req : BlobRequest) (state : AppState ι) : Bool :=
  req.target.any state.blobStore.contains

end BlobRequest

namespace BlobPoint

/-- What a request still has to add to the gauge. -/
def due : BlobPoint → Int
  | .written false => 1
  | .removed => -1
  | _ => 0

/-- The points at which a request holds the mutex. -/
def Holds : BlobPoint → Prop
  | .locked | .checked _ | .written _ | .unlocking _ => True
  | _ => False

/-- The points at which a request takes for granted that its blob is in the store. -/
def Relies : BlobPoint → Prop
  | .checked true | .written _ | .found _ => True
  | _ => False

/-- A request between its first and its last step. -/
def inFlight : BlobPoint → Bool
  | .ready | .answered _ => false
  | _ => true

/-- A request that has been answered. -/
def isAnswered : BlobPoint → Bool
  | .answered _ => true
  | _ => false

end BlobPoint

namespace BlobServer

variable {ι : Type} (server : BlobServer) (reqs : ι → BlobRequest)

/-- What a step without a fault can do to the shared state and to the point of its request. -/
inductive Moves (thread : ι) : AppState ι → BlobPoint → AppState ι → BlobPoint → Prop
  | stays (state : AppState ι) (point : BlobPoint) : Moves thread state point state point
  | locks (state : AppState ι) (stores : (reqs thread).isStore = true)
      (free : state.blobAccounting = none) :
      Moves thread state .ready { state with blobAccounting := some thread } .locked
  -- The check is made in the state in which the mutex is held.
  | checks (state : AppState ι) :
      Moves thread state .locked state (.checked ((reqs thread).present state))
  -- Bytes that do not have the digest are refused.
  | fails (state : AppState ι) (alreadyPresent : Bool) (error : BlobStoreError) :
      Moves thread state (.checked alreadyPresent) state (.unlocking (.failed error))
  | writes (state : AppState ι) (alreadyPresent : Bool) (digest : Digest) (body : Bytes)
      (after : InMemoryBlobStore) (about : (reqs thread).target = some digest)
      (stores : (reqs thread).isStore = true)
      (accepted : state.blobStore.put server.hashes digest body = .ok after) :
      Moves thread state (.checked alreadyPresent) { state with blobStore := after }
        (.written alreadyPresent)
  | counts (state : AppState ι) (alreadyPresent : Bool) :
      Moves thread state (.written alreadyPresent)
        (if alreadyPresent then state else state.incBlobCount) (.unlocking .stored)
  | unlocks (state : AppState ι) (answer : BlobAnswer) :
      Moves thread state (.unlocking answer) { state with blobAccounting := none } (.answered answer)
  | refuses (state : AppState ι) (error : OciError) :
      Moves thread state .ready state (.answered (.refused error))
  -- A delete holds no mutex.
  | finds (state : AppState ι) (digest : Digest) (about : (reqs thread).target = some digest)
      (deletes : (reqs thread).isStore = false) (inside : state.blobStore.contains digest = true) :
      Moves thread state .ready state (.found digest)
  | removes (state : AppState ι) (digest : Digest) :
      Moves thread state (.found digest)
        { state with blobStore := state.blobStore.delete digest } .removed
  | uncounts (state : AppState ι) :
      Moves thread state .removed state.decBlobCount (.answered .accepted)

private theorem parse_of_parseDigest {text : String} {digest : Digest}
    (parsed : parseDigest text = .ok digest) : Digest.parse text = .ok digest := by
  unfold parseDigest at parsed
  split at parsed
  · cases parsed
  · rename_i read
    cases parsed
    exact read

private theorem moves_program (thread : ι) (state : AppState ι) (point : BlobPoint) :
    server.Moves reqs thread state point (server.program reqs thread none state point).1
      (server.program reqs thread none state point).2 := by
  unfold program
  cases asked : reqs thread with
  | store digest body =>
    have about : (reqs thread).target = some digest := by rw [asked]; rfl
    have stores : (reqs thread).isStore = true := by rw [asked]; rfl
    cases point with
    | ready =>
      simp only [storeBlobCounted]
      split
      · rename_i free
        exact .locks state stores free
      · exact .stays state .ready
    | locked =>
      have same : (reqs thread).present state = state.blobStore.contains digest := by
        rw [BlobRequest.present, about]
        rfl
      have moved : server.Moves reqs thread state .locked state _ := .checks state
      rw [same] at moved
      exact moved
    | checked alreadyPresent =>
      simp only [storeBlobCounted]
      split
      · exact .fails state alreadyPresent _
      · rename_i after accepted
        exact .writes state alreadyPresent digest body after about stores accepted
    | written alreadyPresent => exact .counts state alreadyPresent
    | unlocking answer => exact .unlocks state answer
    | found | removed | answered => exact .stays state _
  | delete name digestStr =>
    have deletes : (reqs thread).isStore = false := by rw [asked]; rfl
    cases point with
    | ready =>
      simp only [deleteBlob]
      -- The refusals come in the order of the checks.
      split
      · exact .refuses state _
      · split
        · exact .refuses state _
        · rename_i digest parsed
          have about : (reqs thread).target = some digest := by
            rw [asked, BlobRequest.target, parse_of_parseDigest parsed]
            rfl
          split
          · rename_i inside
            exact .finds state digest about deletes inside
          · exact .refuses state _
    | found digest => exact .removes state digest
    | removed => exact .uncounts state
    | locked | checked | written | unlocking | answered => exact .stays state _

/-- By how much a step puts the gauge out of step with the store. -/
def slip {ι : Type} (req : BlobRequest) (state : AppState ι) : BlobPoint → BlobPoint → Int
  -- The blob was deleted after the check: it comes back without being counted.
  | .checked true, .written _ => if req.present state then 0 else -1
  -- The blob was deleted by another request: it is counted as deleted twice.
  | .found digest, .removed => if state.blobStore.contains digest then 0 else -1
  -- The blob is deleted before it was counted: at zero the gauge does not go down.
  | .removed, .answered _ => if state.blobCount = 0 then 1 else 0
  | _, _ => 0

section Steps

variable {server reqs} {thread : ι} {state after : AppState ι} {point next : BlobPoint}
  (moved : server.Moves reqs thread state point after next)

include moved

private theorem nonneg_moves (nonneg : 0 ≤ state.blobCount) : 0 ≤ after.blobCount := by
  cases moved with
  | counts alreadyPresent =>
    cases alreadyPresent with
    | false => exact Int.add_nonneg nonneg (by decide)
    | true => exact nonneg
  | uncounts => exact Int.le_max_right _ _
  | stays | locks | checks | fails | writes | unlocks | refuses | finds | removes => exact nonneg

private theorem present_moves {req : BlobRequest} (outside : req.present state = false)
    (released : ¬point.Holds) : req.present after = false := by
  -- Of the steps that change the store only a removal is possible without the mutex.
  cases moved with
  | removes digest =>
    cases about : req.target with
    | none => rw [BlobRequest.present, about]; rfl
    | some other =>
      rw [BlobRequest.present, about] at outside ⊢
      apply Bool.eq_false_iff.mpr
      intro inside
      exact Bool.eq_false_iff.mp outside
        ((contains_delete state.blobStore digest other).mp inside).2
  | writes | counts => exact absurd trivial released
  | stays | locks | checks | fails | unlocks | refuses | finds | uncounts => exact outside

/-- A move keeps the balance of count, debts and store, except for its slip. -/
private theorem balance_moves
    (absent : point = .checked false → (reqs thread).present state = false) (nonneg : 0 ≤ state.blobCount) :
    after.blobCount + next.due - after.blobStore.len =
      state.blobCount + point.due - state.blobStore.len + slip (reqs thread) state point next := by
  cases moved with
  | stays => cases point <;> simp [slip]
  | writes alreadyPresent digest body store about stores accepted =>
    have grown := len_put accepted
    have same : (reqs thread).present state = state.blobStore.contains digest := by
      rw [BlobRequest.present, about]
      rfl
    cases alreadyPresent with
    | false =>
      -- The mutex has kept the blob out of the store since the check.
      rw [← same, absent rfl] at grown
      simp only [slip, BlobPoint.due, grown]
      simp
    | true =>
      simp only [slip, BlobPoint.due, grown, same]
      split <;> push_cast <;> omega
  | counts alreadyPresent => cases alreadyPresent <;> simp [slip, BlobPoint.due, AppState.incBlobCount]
  | removes digest =>
    simp only [slip, BlobPoint.due, len_delete]
    split <;> omega
  | uncounts =>
    simp only [slip, BlobPoint.due, AppState.decBlobCount]
    split <;> omega
  | locks | checks | fails | unlocks | refuses | finds => simp [slip, BlobPoint.due]

end Steps

section Systems

/-- A turn without a fault makes a step of its request. -/
theorem moves_turn [DecidableEq ι] (system : BlobSystem ι) {event : ι × Option BlobStoreError}
    (sound : event.2 = none) : server.Moves reqs event.1 system.shared (system.points event.1)
      (turn (server.program reqs) system event).shared
      ((turn (server.program reqs) system event).points event.1) := by
  have moved := server.moves_program reqs event.1 system.shared (system.points event.1)
  rw [← sound] at moved
  rw [turn_points_self]
  exact moved

/-- What the mutex guarantees. -/
structure Guarded (system : BlobSystem ι) : Prop where
  holds : ∀ thread, (system.points thread).Holds →
    system.shared.blobAccounting = some thread ∧ (reqs thread).isStore = true
  absent : ∀ thread, system.points thread = .checked false →
    (reqs thread).present system.shared = false
  nonneg : 0 ≤ system.shared.blobCount

variable {reqs}

/-- Only one request holds the mutex. -/
theorem Guarded.unique {system : BlobSystem ι} (guarded : Guarded reqs system) {one other : ι}
    (first : (system.points one).Holds) (second : (system.points other).Holds) : one = other :=
  Option.some.inj ((guarded.holds one first).1.symm.trans (guarded.holds other second).1)

private theorem guarded_opening (reqs : ι → BlobRequest) : Guarded reqs (BlobSystem.opening ι) where
  holds := fun _ held => held.elim
  absent := nofun
  nonneg := Int.le_refl 0

variable {server}

/-- A step of one request keeps the guarantees. -/
theorem Guarded.moves {before after : BlobSystem ι} {thread : ι} (guarded : Guarded reqs before)
    (moved : server.Moves reqs thread before.shared (before.points thread) after.shared (after.points thread))
    (others : ∀ other, other ≠ thread → after.points other = before.points other) : Guarded reqs after where
  nonneg := nonneg_moves moved guarded.nonneg
  holds := by
    have own := guarded.holds thread
    intro other held
    by_cases same : other = thread
    · -- The request of the step: it held the mutex before, unless it takes it now.
      subst same
      generalize before.points other = point, after.points other = next at own moved held
      generalize before.shared = state, after.shared = left at own moved ⊢
      cases moved with
      | locks stores free => exact ⟨rfl, stores⟩
      | counts alreadyPresent => cases alreadyPresent <;> exact own trivial
      | unlocks | refuses | finds | removes | uncounts => exact held.elim
      | stays => exact own held
      | checks | fails | writes => exact own trivial
    · rw [others other same] at held
      obtain ⟨holder, stores⟩ := guarded.holds other held
      refine ⟨?_, stores⟩
      generalize before.points thread = point, after.points thread = next at own moved
      generalize before.shared = state, after.shared = left at own moved holder ⊢
      cases moved with
      | locks stores free => rw [free] at holder; cases holder
      | unlocks answer =>
        rw [(own trivial).1] at holder
        exact absurd (Option.some.inj holder).symm same
      | counts alreadyPresent => cases alreadyPresent <;> exact holder
      | stays | checks | fails | writes | refuses | finds | removes | uncounts => exact holder
  absent := by
    intro other checked
    by_cases same : other = thread
    · subst same
      have own := guarded.absent other
      generalize before.points other = point, after.points other = next at own moved checked
      generalize before.shared = state, after.shared = left at own moved ⊢
      cases moved with
      | checks => exact BlobPoint.checked.inj checked
      | stays => exact own checked
      | _ => cases checked
    · rw [others other same] at checked
      refine present_moves moved (guarded.absent other checked) fun held => same ?_
      exact guarded.unique (by rw [checked]; trivial) held

/-- The gauge, with what is still due, less the number of blobs. -/
def balance [Fintype ι] (system : BlobSystem ι) : Int :=
  system.shared.blobCount + total BlobPoint.due system - system.shared.blobStore.len

variable (server reqs)

/-- The slip of one turn. -/
def slipAt [DecidableEq ι] (system : BlobSystem ι) (event : ι × Option BlobStoreError) : Int :=
  slip (reqs event.1) system.shared (system.points event.1)
    ((turn (server.program reqs) system event).points event.1)

variable {server reqs}

private theorem guarded_turn [DecidableEq ι] (system : BlobSystem ι) (event : ι × Option BlobStoreError)
    (guarded : Guarded reqs system) (sound : event.2 = none) :
    Guarded reqs (turn (server.program reqs) system event) :=
  guarded.moves (server.moves_turn reqs system sound) fun _ => turn_points_of_ne

private theorem balance_turn [Fintype ι] [DecidableEq ι] (system : BlobSystem ι) (event : ι × Option BlobStoreError)
    (guarded : Guarded reqs system) (sound : event.2 = none) :
    balance (turn (server.program reqs) system event) = balance system + server.slipAt reqs system event := by
  have stepped := balance_moves (server.moves_turn reqs system sound)
    (guarded.absent event.1) guarded.nonneg
  unfold balance slipAt
  rw [total_turn]
  omega

private theorem total_answered [Fintype ι] {system : BlobSystem ι}
    (done : ∀ thread, (system.points thread).isAnswered = true) : total BlobPoint.due system = 0 := by
  apply Finset.sum_eq_zero
  intro thread _
  have answered := done thread
  cases reached : system.points thread with
  | answered answer => rfl
  | _ => rw [reached] at answered; cases answered

end Systems

section Overlap

/-- Of two requests for the same blob that are in flight together, neither deletes it. -/
def Apart (system : BlobSystem ι) : Prop :=
  ∀ one other, one ≠ other → (system.points one).inFlight = true →
    (system.points other).inFlight = true → (reqs one).target = (reqs other).target →
      (reqs one).isStore = true ∧ (reqs other).isStore = true

instance Apart.instDecidable [Fintype ι] [DecidableEq ι] (system : BlobSystem ι) :
    Decidable (Apart reqs system) := by
  unfold Apart
  infer_instance

/-- What holds at every moment as long as no delete overlaps with another request for its blob. -/
structure Kept [Fintype ι] (system : BlobSystem ι) : Prop where
  guarded : Guarded reqs system
  relied : ∀ thread, (system.points thread).Relies → (reqs thread).present system.shared = true
  targeted : ∀ thread digest, system.points thread = .found digest →
    (reqs thread).target = some digest ∧ (reqs thread).isStore = false
  balanced : balance system = 0

variable {server reqs}

variable {point : BlobPoint} {state after : AppState ι} {system : BlobSystem ι} {thread : ι}

private theorem inFlight_of_relies (relies : point.Relies) : point.inFlight = true := by
  cases point with
  | checked | written | found => rfl
  | _ => exact relies.elim

private theorem present_iff {req : BlobRequest} : req.present state = true ↔
      ∃ digest, req.target = some digest ∧ state.blobStore.contains digest = true := by
  rw [BlobRequest.present, Option.any_eq_true]

private theorem Kept.relied_moves [Fintype ι] {before after : BlobSystem ι} {other : ι}
    (kept : Kept reqs before) (apart : Apart reqs before) (different : other ≠ thread)
    (moved : server.Moves reqs thread before.shared (before.points thread) after.shared (after.points thread))
    (relies : (before.points other).Relies) : (reqs other).present after.shared = true := by
  obtain ⟨digest, about, inside⟩ := present_iff.mp (kept.relied other relies)
  refine present_iff.mpr ⟨digest, about, ?_⟩
  have separate := apart other thread different (inFlight_of_relies relies)
  have found := kept.targeted thread
  generalize before.points thread = point, after.points thread = next at separate found moved
  generalize before.shared = state, after.shared = left at inside moved ⊢
  cases moved with
  | writes alreadyPresent stored body store _ _ accepted => exact (contains_put accepted digest).mpr (.inr inside)
  | removes dropped =>
    -- Were it the same blob, then the delete would overlap with the other request.
    obtain ⟨target, deletes⟩ := found dropped rfl
    refine (contains_delete _ dropped digest).mpr ⟨?_, inside⟩
    rintro rfl
    rw [(separate rfl (about.trans target.symm)).2] at deletes
    cases deletes
  | counts alreadyPresent => cases alreadyPresent <;> exact inside
  | stays | locks | checks | fails | unlocks | refuses | finds | uncounts => exact inside

private theorem relied_own {next : BlobPoint}
    (moved : server.Moves reqs thread state point after next) (relies : next.Relies)
    (relied : point.Relies → (reqs thread).present state = true) : (reqs thread).present after = true := by
  -- Only a check, a write and the look of a delete lead to such a point.
  cases moved with
  | stays => exact relied relies
  | checks =>
    cases seen : (reqs thread).present state with
    | true => rfl
    | false => rw [seen] at relies; exact relies.elim
  | writes alreadyPresent digest body store about _ accepted =>
    exact present_iff.mpr
      ⟨digest, about, (contains_put accepted digest).mpr (.inl rfl)⟩
  | finds digest about deletes inside => exact present_iff.mpr ⟨digest, about, inside⟩
  | _ => exact relies.elim

private theorem targeted_own {next : BlobPoint}
    (moved : server.Moves reqs thread state point after next) {digest : Digest} (found : next = .found digest)
    (targeted : point = .found digest → (reqs thread).target = some digest ∧ (reqs thread).isStore = false) :
    (reqs thread).target = some digest ∧ (reqs thread).isStore = false := by
  cases moved with
  | stays => exact targeted found
  | finds seen about deletes inside =>
    cases found
    exact ⟨about, deletes⟩
  | _ => cases found

private theorem due_le (point : BlobPoint) : point.due ≤ if point = .written false then 1 else 0 := by
  cases point with
  | written alreadyPresent => cases alreadyPresent <;> decide
  | removed => decide
  | _ => exact Int.le_refl 0

private theorem Kept.card_writers_le [Fintype ι] (kept : Kept reqs system) :
    (Finset.univ.filter fun thread => system.points thread = .written false).card ≤ system.shared.blobStore.len := by
  rcases Finset.eq_empty_or_nonempty
    (Finset.univ.filter fun thread => system.points thread = .written false) with none | ⟨writer, member⟩
  · rw [none]
    exact Nat.zero_le _
  · -- The mutex admits one of them, and its blob is in the store.
    have written := (Finset.mem_filter.mp member).2
    obtain ⟨digest, _, inside⟩ := present_iff.mp (kept.relied writer (by rw [written]; trivial))
    refine le_trans (Finset.card_le_one.mpr ?_) (len_pos inside)
    intro one first other second
    exact kept.guarded.unique (by rw [(Finset.mem_filter.mp first).2]; trivial)
      (by rw [(Finset.mem_filter.mp second).2]; trivial)

private theorem Kept.blobCount_pos [Fintype ι] [DecidableEq ι]
    (kept : Kept reqs system) (removed : system.points thread = .removed) : 0 < system.shared.blobCount := by
  -- The delete owes one, and only requests that have written a new blob are owed one.
  have bound : total BlobPoint.due system ≤
      ∑ other, ((if other = thread then -1 else 0) + if system.points other = .written false then 1 else 0) := by
    apply Finset.sum_le_sum
    intro other _
    by_cases same : other = thread
    · subst same
      rw [removed, if_pos rfl]
      decide
    · rw [if_neg same, Int.zero_add]
      exact due_le (system.points other)
  rw [Finset.sum_add_distrib, Finset.sum_ite_eq', if_pos (Finset.mem_univ _), Finset.sum_boole] at bound
  have waiting := kept.card_writers_le
  have balanced := kept.balanced
  unfold balance at balanced
  omega

private theorem Kept.slip_eq_zero [Fintype ι] [DecidableEq ι] (kept : Kept reqs system) (next : BlobPoint) :
    slip (reqs thread) system.shared (system.points thread) next = 0 := by
  unfold slip
  split
  · rename_i reached
    rw [if_pos (kept.relied thread (by rw [reached]; trivial))]
  · rename_i digest reached
    obtain ⟨target, about, inside⟩ := present_iff.mp (kept.relied thread (by rw [reached]; trivial))
    rw [(kept.targeted thread digest reached).1] at about
    cases about
    rw [if_pos inside]
  · rename_i reached
    have counted := kept.blobCount_pos reached
    rw [if_neg (by omega)]
  · rfl

private theorem kept_turn [Fintype ι] [DecidableEq ι] (system : BlobSystem ι)
    (event : ι × Option BlobStoreError) (kept : Kept reqs system) (meets : Apart reqs system ∧ event.2 = none) :
    Kept reqs (turn (server.program reqs) system event) where
  guarded := guarded_turn system event kept.guarded meets.2
  -- What other requests rely on is not removed, because no delete overlaps with them.
  relied := by
    intro thread relies
    have moved := server.moves_turn reqs system meets.2
    by_cases same : thread = event.1
    · subst same
      exact relied_own moved relies (kept.relied event.1)
    · rw [turn_points_of_ne same] at relies
      exact kept.relied_moves meets.1 same moved relies
  targeted := by
    intro thread digest found
    have moved := server.moves_turn reqs system meets.2
    by_cases same : thread = event.1
    · subst same
      exact targeted_own moved found (kept.targeted event.1 digest)
    · rw [turn_points_of_ne same] at found
      exact kept.targeted thread digest found
  balanced := by
    rw [balance_turn system event kept.guarded meets.2, kept.balanced, slipAt, kept.slip_eq_zero]
    rfl

private theorem balance_opening [Fintype ι] : balance (BlobSystem.opening ι) = 0 := by
  have nothing : total BlobPoint.due (BlobSystem.opening ι) = 0 := Finset.sum_eq_zero fun _ _ => rfl
  rw [balance, nothing]
  rfl

private theorem kept_opening [Fintype ι] (reqs : ι → BlobRequest) : Kept reqs (BlobSystem.opening ι) where
  guarded := guarded_opening reqs
  relied := fun _ relies => relies.elim
  targeted := nofun
  balanced := balance_opening

end Overlap

/-- When all requests have been answered the gauge counts the blobs exactly when the slips cancel out.
There are none if no delete overlaps with another request for the same blob. -/
theorem blobCount_exact [Fintype ι] [DecidableEq ι] (events : List (ι × Option BlobStoreError))
    (sound : ∀ event ∈ events, event.2 = none)
    (done : ∀ thread, ((run (server.program reqs) (BlobSystem.opening ι) events).points thread).isAnswered = true) :
    let final := (run (server.program reqs) (BlobSystem.opening ι) events).shared
    (final.blobCount = final.blobStore.len ↔
      entries (server.program reqs) (server.slipAt reqs) (BlobSystem.opening ι) events = 0) ∧
    (Runs.Along (turn (server.program reqs)) (fun system _ => Apart reqs system)
      (BlobSystem.opening ι) events → final.blobCount = final.blobStore.len) := by
  -- Nothing is due any more, so the balance is the gauge less the number of blobs.
  have settled := total_answered done
  constructor
  · have booked : balance (run (server.program reqs) (BlobSystem.opening ι) events) = _ :=
      balance_run guarded_turn balance_turn (guarded_opening reqs) sound
    rw [balance_opening, balance, settled] at booked
    omega
  · intro along
    have kept := (along.and_of_forall sound).invariant kept_turn (kept_opening reqs)
    have balanced := kept.balanced
    rw [balance] at balanced
    change _ + total BlobPoint.due
      (run (server.program reqs) (BlobSystem.opening ι) events) - _ = _ at balanced
    rw [settled] at balanced
    exact Int.sub_eq_zero.mp ((congrArg (· - _) (Int.add_zero _).symm).trans balanced)

/-- A server that knows a few digests. -/
def tableServer : BlobServer := ⟨.table⟩

/-- The digest of no bytes under the other algorithm. -/
def emptySha512 : Digest := Hashes.table.digestOf .sha512 []

/-- Turns of requests, none of them with a fault. -/
def turns {count : Nat} (threads : List (Fin count)) : List (Fin count × Option BlobStoreError) :=
  threads.map fun thread => (thread, none)

/-- Two stores of one blob race for the mutex, while a delete of another blob goes on between them. -/
def racingStores : Fin 4 → BlobRequest
  | 0 => .store emptySha512 []
  | 1 | 2 => .store emptySha []
  | 3 => .delete "a" emptySha512.toString

/-- The blob that was stored twice is counted once. -/
theorem blobCount_exact_race : let events := turns [0, 0, 0, 0, 0, 1, 2, 3, 1, 3, 1, 2, 1, 3, 1, 2, 2, 2, 2, 2]
    let final := (run (tableServer.program racingStores) (BlobSystem.opening (Fin 4)) events).shared
    final.blobCount = final.blobStore.len ∧ final.blobCount = 1 := by
  obtain ⟨sound, done, along, counted⟩ :
      let events := turns [0, 0, 0, 0, 0, 1, 2, 3, 1, 3, 1, 2, 1, 3, 1, 2, 2, 2, 2, 2]
      let final := run (tableServer.program racingStores) (BlobSystem.opening (Fin 4)) events
      (∀ event ∈ events, event.2 = none) ∧ (∀ thread, (final.points thread).isAnswered = true) ∧
        Runs.Along (turn (tableServer.program racingStores))
          (fun system _ => Apart racingStores system) (BlobSystem.opening (Fin 4)) events ∧
        final.shared.blobCount = 1 := by
    decide +kernel
  exact ⟨(tableServer.blobCount_exact racingStores _ sound done).2 along, counted⟩

/-- Two blobs are stored, and two deletes of the first are made at once. -/
def racingDeletes : Fin 4 → BlobRequest
  | 0 => .store emptySha []
  | 1 => .store emptySha512 []
  | 2 | 3 => .delete "a" emptySha.toString

/-- Both deletes see the blob, and both are counted: one blob is left, and the gauge is zero. -/
theorem blobCount_misses_blob : let events := turns [0, 0, 0, 0, 0, 1, 1, 1, 1, 1, 2, 3, 2, 3, 2, 3]
    let final := run (tableServer.program racingDeletes) (BlobSystem.opening (Fin 4)) events
    (∀ event ∈ events, event.2 = none) ∧ (∀ thread, (final.points thread).isAnswered = true) ∧
      final.shared.blobCount = 0 ∧ final.shared.blobStore.len = 1 := by
  decide +kernel

end BlobServer

end FerroProtocols.Oci
