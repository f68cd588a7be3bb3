import Mathlib.Algebra.Order.BigOperators.Group.List
import FerroProtocols.Lumberjack.Client
import FerroProtocols.Lumberjack.Server

/-! Every declared slot of a window is an event recorded, a legacy slot consumed, or still open. -/

namespace FerroProtocols.Lumberjack

/-- A data frame as the reader consumes it. -/
inductive DataFrame where
  -- A JSON event, which is recorded.
  | json (seq : UInt32) (payload : Bytes)
  -- A legacy frame, of which only the slot is consumed.
  | legacy (raw : Bytes)
  deriving DecidableEq

namespace DataFrame

/-- The event a data frame becomes, if it is recorded. -/
def event : DataFrame → Option JsonEvent
  | .json seq payload => some ⟨seq, payload⟩
  | .legacy _ => none

/-- Whether a data frame is a legacy one. -/
def isLegacy : DataFrame → Bool
  | .json _ _ => false
  | .legacy _ => true

/-- The sequence number a data frame carries on the wire, behind its two header bytes. -/
def seq : DataFrame → Option UInt32
  | .json seq _ => some seq
  | .legacy raw => BigEndian.wordAt raw 2

end DataFrame

/-- What the reader has been given for the window it is reading. -/
structure Ledger where
  -- The count of the Window frame that was accepted.
  declared : Option UInt32
  -- The data frames consumed since, inline or inside a batch.
  data : List DataFrame
  deriving DecidableEq

namespace Ledger

/-- Nothing has been consumed yet. -/
def blank : Ledger := ⟨none, []⟩

/-- The events among the data frames. -/
def events (ledger : Ledger) : List JsonEvent := ledger.data.filterMap DataFrame.event

/-- How many legacy slots have been consumed. -/
def legacySlots (ledger : Ledger) : Nat := ledger.data.countP DataFrame.isLegacy

/-- Enter a frame the reader takes. -/
def enter (ledger : Ledger) : Frame → Ledger
  | .window count => ⟨some count, []⟩
  | .json seq payload => { ledger with data := ledger.data ++ [.json seq payload] }
  | .unknown _ raw => { ledger with data := ledger.data ++ [.legacy raw] }
  -- A batch is accounted for by the frames inside it.
  | .compressed _ => ledger
  | .ack _ => ledger

/-- Enter the frame of a step, if it takes one. -/
def enterStep (ledger : Ledger) : Option Frame → Ledger
  | none => ledger
  | some frame => ledger.enter frame

private theorem length_data (ledger : Ledger) : ledger.data.length = ledger.events.length + ledger.legacySlots := by
  obtain ⟨declared, data⟩ := ledger
  simp only [events, legacySlots]
  -- Every frame is an event or a legacy slot, and never both.
  induction data with
  | nil => rfl
  | cons frame rest ih =>
    cases frame with
    | json seq payload =>
      simp only [List.length_cons, List.filterMap_cons, DataFrame.event, List.countP_cons, DataFrame.isLegacy]
      rw [ih]
      simp only [Bool.false_eq_true, if_false]
      omega
    | legacy raw =>
      simp only [List.length_cons, List.filterMap_cons, DataFrame.event, List.countP_cons, DataFrame.isLegacy]
      rw [ih]
      simp only [if_true]
      omega

end Ledger

/-- The state of a window agrees with the ledger of what was consumed for it. -/
structure Balanced (limits : WindowLimits) (state : WindowState) (ledger : Ledger) : Prop where
  -- Slots consumed and slots remaining make up the declared count.
  slots : state.windowRemaining.map (fun remaining => ledger.data.length + remaining.toNat) =
    ledger.declared.map UInt32.toNat
  -- Only a count within the cap is accepted.
  declaredFits : ∀ count ∈ ledger.declared, count.toNat ≤ limits.maxWindowEvents.toNat
  -- Data frames are consumed only for a declared window.
  unopened : ledger.declared = none → ledger.data = []
  -- The events are those of the data frames, in order.
  events : state.events = ledger.events
  -- The last sequence number is that of the last event.
  lastSeq : state.lastSeq = (state.events.getLast?.map JsonEvent.seq).getD 0
  -- A payload's length is a 32-bit word.
  payloads : ∀ event ∈ state.events, event.payload.length < 2 ^ 32
  -- The running sum has never saturated.
  bytes : state.accumulatedBytes = (state.events.map fun event => event.payload.length).sum
  bytesFit : state.accumulatedBytes ≤ limits.maxWindowBytes.toNat

/-- A fresh window is balanced by a blank ledger. -/
theorem Balanced.start (limits : WindowLimits) : Balanced limits .start .blank where
  slots := rfl
  declaredFits := by simp [Ledger.blank]
  unopened := fun _ => rfl
  events := rfl
  lastSeq := rfl
  payloads := by simp [WindowState.start]
  bytes := rfl
  bytesFit := Nat.zero_le _

variable {remaining : UInt32}

/-- A slot that is not zero counts for at least one. -/
theorem toNat_pos (slot : remaining ≠ 0) : 0 < remaining.toNat := by
  rcases Nat.eq_zero_or_pos remaining.toNat with zero | positive
  · exact absurd (UInt32.toNat_inj.mp zero) slot
  · exact positive

/-- Filling a slot lowers the counter by one. -/
theorem toNat_sub_one (slot : remaining ≠ 0) : (remaining - 1).toNat = remaining.toNat - 1 := by
  have positive := toNat_pos slot
  exact UInt32.toNat_sub_of_le remaining 1 (UInt32.le_iff_toNat_le.mpr positive)

namespace Balanced

variable {limits : WindowLimits} {state after : WindowState} {ledger : Ledger} {remaining : UInt32}
  (balanced : Balanced limits state ledger)

include balanced

/-- The remaining counter of an open window, with the count it was declared with. -/
theorem declared_of_remaining (isOpen : state.windowRemaining = some remaining) :
    ∃ count, ledger.declared = some count ∧ ledger.data.length + remaining.toNat = count.toNat := by
  have slots := balanced.slots
  rw [isOpen, Option.map_some] at slots
  obtain ⟨count, declared, same⟩ := Option.map_eq_some_iff.mp slots.symm
  exact ⟨count, declared, same.symm⟩

private theorem remaining_of_declared {count : UInt32}
    (declared : ledger.declared = some count) : ∃ remaining, state.windowRemaining = some remaining ∧
      ledger.data.length + remaining.toNat = count.toNat := by
  have slots := balanced.slots
  rw [declared, Option.map_some] at slots
  exact Option.map_eq_some_iff.mp slots

variable (isOpen : state.windowRemaining = some remaining) (slot : remaining ≠ 0)

include isOpen slot

/-- There is room for an event as long as a slot is open. -/
theorem room : state.events.length < limits.maxWindowEvents.toNat := by
  obtain ⟨count, declared, slots⟩ := balanced.declared_of_remaining isOpen
  have fits := balanced.declaredFits count (by simp [declared])
  have consumed := ledger.length_data
  rw [← balanced.events] at consumed
  -- The open slot is one more than the events so far, and all slots are within the cap.
  have positive := toNat_pos slot
  omega

private theorem bytes_lt {payload : Bytes} (small : payload.length < 2 ^ 32) :
    state.accumulatedBytes + payload.length < u64Max := by
  obtain ⟨count, declared, slots⟩ := balanced.declared_of_remaining isOpen
  have consumed := ledger.length_data
  rw [← balanced.events] at consumed
  have word := count.toNat_lt
  have positive := toNat_pos slot
  -- Fewer than two to the thirty-two payloads, each shorter than that.
  have total : (state.events.map fun event => event.payload.length).sum ≤
      state.events.length * (2 ^ 32 - 1) := by
    have each := List.sum_le_card_nsmul (state.events.map fun event => event.payload.length)
      (2 ^ 32 - 1) (by
        intro length member
        obtain ⟨event, recorded, rfl⟩ := List.mem_map.mp member
        have := balanced.payloads event recorded
        omega)
    simpa using each
  rw [balanced.bytes]
  have few : state.events.length ≤ 2 ^ 32 - 2 := by omega
  have product := Nat.mul_le_mul_right (2 ^ 32 - 1) few
  unfold u64Max
  omega

private theorem slots_grown (frame : DataFrame) :
    (some (remaining - 1)).map (fun remaining => (ledger.data ++ [frame]).length + remaining.toNat) =
      ledger.declared.map UInt32.toNat ∧ (ledger.declared = none → ledger.data ++ [frame] = []) := by
  obtain ⟨count, declared, slots⟩ := balanced.declared_of_remaining isOpen
  have lower := toNat_sub_one slot
  have positive := toNat_pos slot
  refine ⟨?_, fun closed => by simp [declared] at closed⟩
  simp only [declared, Option.map_some, List.length_append, List.length_cons, List.length_nil, Option.some.injEq]
  omega

omit isOpen slot

/-- Recording an event keeps the books. -/
theorem recordEvent {seq : UInt32} {payload : Bytes}
    (small : payload.length < 2 ^ 32) (recorded : state.recordEvent limits seq payload = .ok after) :
    Balanced limits after (ledger.enter (.json seq payload)) := by
  simp only [WindowState.recordEvent] at recorded
  cases isOpen : state.windowRemaining with
  | none => simp [isOpen] at recorded
  | some remaining =>
    simp only [isOpen] at recorded
    by_cases full : remaining = 0
    · simp [full] at recorded
    -- The sum cannot saturate: a window has too few payloads for that.
    have room := balanced.room isOpen full
    have below := balanced.bytes_lt isOpen full small
    have sum : min (state.accumulatedBytes + payload.length) u64Max =
        state.accumulatedBytes + payload.length := Nat.min_eq_left (by omega)
    simp only [if_neg full, if_neg (Nat.not_le.mpr room), sum] at recorded
    by_cases excess : state.accumulatedBytes + payload.length > limits.maxWindowBytes.toNat
    · simp [excess] at recorded
    · simp only [if_neg excess, Except.ok.injEq] at recorded
      subst recorded
      -- One slot less remains, and one entry more is in the ledger.
      obtain ⟨slots, unopened⟩ := balanced.slots_grown isOpen full (.json seq payload)
      refine ⟨slots, balanced.declaredFits, unopened, ?_, ?_, ?_, ?_, ?_⟩
      · simp [Ledger.enter, Ledger.events, DataFrame.event, balanced.events]
      · simp
      · intro event member
        rcases List.mem_append.mp member with earlier | last
        · exact balanced.payloads event earlier
        · rw [List.mem_singleton.mp last]
          exact small
      · simp [balanced.bytes]
      · exact Nat.le_of_not_lt excess

/-- Consuming a slot keeps the books. -/
theorem consumeSlot (frameType : UInt8) (raw : Bytes)
    (consumed : state.consumeSlot = .ok after) : Balanced limits after (ledger.enter (.unknown frameType raw)) := by
  simp only [WindowState.consumeSlot] at consumed
  cases isOpen : state.windowRemaining with
  | none => simp [isOpen] at consumed
  | some remaining =>
    simp only [isOpen] at consumed
    by_cases full : remaining = 0
    · simp [full] at consumed
    simp only [if_neg full, Except.ok.injEq] at consumed
    subst consumed
    -- The events and their sum are untouched; only the slots move.
    obtain ⟨slots, unopened⟩ := balanced.slots_grown isOpen full (.legacy raw)
    refine ⟨slots, balanced.declaredFits, unopened, ?_, balanced.lastSeq, balanced.payloads, balanced.bytes,
      balanced.bytesFit⟩
    simp [Ledger.enter, Ledger.events, DataFrame.event, balanced.events]

/-- Opening a window keeps the books, which start anew. -/
theorem opened {count : UInt32} (closed : state.windowRemaining = none)
    (fits : count.toNat ≤ limits.maxWindowEvents.toNat) :
    Balanced limits { state with windowRemaining := some count } (ledger.enter (.window count)) := by
  -- Without a declared window nothing has been consumed and no event recorded.
  have undeclared : ledger.declared = none := by
    have slots := balanced.slots
    rw [closed] at slots
    cases declared : ledger.declared with
    | none => rfl
    | some earlier => simp [declared] at slots
  have noEvents : state.events = [] := by
    rw [balanced.events, Ledger.events, balanced.unopened undeclared]
    rfl
  refine ⟨by simp [Ledger.enter], ?_, ?_, ?_, balanced.lastSeq, balanced.payloads, balanced.bytes, balanced.bytesFit⟩
  · intro other declared
    simp only [Ledger.enter, Option.mem_def, Option.some.injEq] at declared
    rw [← declared]
    exact fits
  · intro undeclared
    simp [Ledger.enter] at undeclared
  · simpa [Ledger.enter, Ledger.events] using noEvents

/-- Accepting any frame, or none, keeps the books. -/
theorem accepted {frame : Option Frame}
    {cap : UInt64} (fits : ∀ taken ∈ frame, taken.Fits cap) (accepts : Accepted limits state frame after) :
    Balanced limits after (ledger.enterStep frame) := by
  cases accepts with
  | idle | batch => exact balanced
  | opened count closed within => exact balanced.opened closed within
  | recorded seq payload recorded => exact balanced.recordEvent (fits _ rfl).1 recorded
  | skipped frameType raw consumed => exact balanced.consumeSlot frameType raw consumed

end Balanced

namespace Reader

variable {zlib : Zlib} {conn after : ServerConnection} {state : WindowState} {window : Window} {reader : Reader}

private theorem step_accepted {next : Reader} (steps : reader.step zlib = .go next) :
    Accepted reader.connection.limits reader.state (reader.upcoming zlib) next.state ∧
      next.connection.limits = reader.connection.limits := by
  cases step_go steps with
  | fromBatch taken accepted | fromConnection taken accepted =>
    exact ⟨by simpa [upcoming, taken] using accepted, rfl⟩
  | leaveBatch taken | received taken => exact ⟨by simpa [upcoming, taken] using .idle, rfl⟩
  | enterBatch taken => exact ⟨by simpa [upcoming, taken] using .batch _, rfl⟩

private theorem upcoming_fits (zlib : Zlib) (reader : Reader) :
    ∃ cap, ∀ frame ∈ reader.upcoming zlib, frame.Fits cap := by
  obtain ⟨conn, state, position⟩ := reader
  -- Whichever decoder is asked, its frame fits its own cap.
  have asked : ∀ dec : FrameDecoder, ∀ frame,
      (dec.nextFrame zlib).1 = .ok (some frame) → frame.Fits dec.maxFramePayload := by
    intro dec frame returned
    have next : dec.nextFrame zlib = (.ok (some frame), (dec.nextFrame zlib).2) := by rw [← returned]
    obtain ⟨size, parsed, _⟩ := FrameDecoder.nextFrame_frame next
    exact parseFrame_fits parsed
  cases position with
  | outer =>
    refine ⟨conn.decoder.maxFramePayload, fun frame taken => asked _ _ ?_⟩
    grind [upcoming, Option.mem_def]
  | inner batch =>
    refine ⟨batch.maxFramePayload, fun frame taken => asked _ _ ?_⟩
    grind [upcoming, Option.mem_def]

private theorem finish_window (halts : finish conn state = .halt (.ok (some window), after)) :
    state.windowRemaining = some 0 ∧ window = state.window := by
  unfold finish at halts
  split at halts
  · rename_i filled
    simp only [Transition.halt.injEq, Prod.mk.injEq, Except.ok.injEq, Option.some.injEq] at halts
    exact ⟨filled, halts.1.symm⟩
  · cases halts

private theorem takeInnerFrame_window {batch : FrameDecoder} {frame : Frame} :
    takeInnerFrame conn state batch frame ≠ .halt (.ok (some window), after) := by
  intro halts
  cases frame with
  | json seq payload =>
    simp only [takeInnerFrame] at halts
    cases recorded : state.recordEvent conn.limits seq payload <;> simp [recorded] at halts
  | unknown frameType raw =>
    simp only [takeInnerFrame] at halts
    cases consumed : state.consumeSlot <;> simp [consumed] at halts
  | window | compressed | ack => simp [takeInnerFrame] at halts

private theorem receive_window : receive conn state ≠ .halt (.ok (some window), after) := by
  intro halts
  unfold receive at halts
  split at halts
  · simp at halts
  · split at halts <;> simp at halts
  · cases halts

private theorem takeFrame_window {frame : Frame}
    (halts : takeFrame conn state frame = .halt (.ok (some window), after)) :
    ∃ filled, Accepted conn.limits state (some frame) filled ∧ filled.windowRemaining = some 0 ∧
      (window = filled.window ∨ (state.windowRemaining = none ∧ window = ⟨state.events, 0⟩ ∧
        filled.events = state.events)) := by
  -- Only the end of a window and a declaration of zero events return one.
  cases frame with
  | window count =>
    simp only [takeFrame] at halts
    split at halts
    · simp at halts
    rename_i closed
    have closed : state.windowRemaining = none := by simpa using closed
    simp only [checkDeclaredWindow] at halts
    by_cases large : count.toNat > conn.limits.maxWindowEvents.toNat
    · simp [if_pos large] at halts
    · simp only [if_neg large] at halts
      split at halts
      · rename_i empty
        simp only [Transition.halt.injEq, Prod.mk.injEq, Except.ok.injEq, Option.some.injEq] at halts
        exact ⟨_, .opened count closed (by omega), by rw [empty], .inr ⟨closed, halts.1.symm, rfl⟩⟩
      · cases halts
  | json seq payload =>
    simp only [takeFrame] at halts
    cases recorded : state.recordEvent conn.limits seq payload with
    | error error => simp [recorded] at halts
    | ok filled =>
      rw [recorded] at halts
      obtain ⟨complete, returned⟩ := finish_window halts
      exact ⟨filled, .recorded seq payload recorded, complete, .inl returned⟩
  -- A batch is read in steps of its own.
  | compressed decompressed => cases halts
  | unknown frameType raw =>
    simp only [takeFrame] at halts
    cases consumed : state.consumeSlot with
    | error error => simp [consumed] at halts
    | ok filled =>
      rw [consumed] at halts
      obtain ⟨complete, returned⟩ := finish_window halts
      exact ⟨filled, .skipped frameType raw consumed, complete, .inl returned⟩
  | ack seq => simp [takeFrame] at halts

private theorem step_window (halts : reader.step zlib = .halt (.ok (some window), after)) :
    ∃ filled, Accepted reader.connection.limits reader.state (reader.upcoming zlib) filled ∧
      filled.windowRemaining = some 0 ∧ (window = filled.window ∨ (reader.state.windowRemaining = none ∧
        window = ⟨reader.state.events, 0⟩ ∧ filled.events = reader.state.events)) := by
  obtain ⟨conn, state, position⟩ := reader
  -- A batch that has run out may have filled the window; a frame inside it never returns.
  cases position with
  | inner batch =>
    simp only [step] at halts
    rcases called : batch.nextFrame zlib with ⟨error | _ | frame, rest⟩
    · simp [called] at halts
    · simp only [called] at halts
      obtain ⟨complete, returned⟩ := finish_window halts
      exact ⟨state, by simpa [upcoming, called] using .idle, complete, .inl returned⟩
    · simp only [called] at halts
      exact absurd halts takeInnerFrame_window
  | outer =>
    simp only [step] at halts
    rcases called : conn.decoder.nextFrame zlib with ⟨error | _ | frame, rest⟩
    · simp [called] at halts
    · simp only [called] at halts
      exact absurd halts receive_window
    · simp only [called] at halts
      obtain ⟨filled, accepted, complete, returned⟩ := takeFrame_window halts
      exact ⟨filled, by simpa [upcoming, called] using accepted, complete, returned⟩

/-- The ledger after a step of a reader. -/
def note (zlib : Zlib) (reader : Reader) (ledger : Ledger) : Ledger :=
  ledger.enterStep (reader.upcoming zlib)

/-- The reader with its ledger beside it. -/
def audited (zlib : Zlib) : Machine (Reader × Ledger) (ReadResult × Ledger) :=
  (machine zlib).ghost (note zlib)

/-- A call that is about to start, with nothing in its ledger. -/
def opening (conn : ServerConnection) : Reader × Ledger :=
  (⟨conn, .start, .outer⟩, .blank)

private theorem balanced_of_reaches
    {ledger : Ledger} (reached : (audited zlib).Reaches (opening conn) (reader, ledger)) :
    Balanced conn.limits reader.state ledger ∧ reader.connection.limits = conn.limits := by
  -- The invariant is kept by every step of the machine with its ledger.
  refine reached.rule (fun pair => Balanced conn.limits pair.1.state pair.2 ∧
    pair.1.connection.limits = conn.limits) ⟨.start _, rfl⟩ ?_
  rintro before after ⟨balanced, sameLimits⟩ steps
  obtain ⟨steps, noted⟩ := Machine.ghost_step_go.mp steps
  obtain ⟨accepted, keptLimits⟩ := step_accepted steps
  obtain ⟨cap, fits⟩ := upcoming_fits zlib before.1
  rw [sameLimits] at accepted
  refine ⟨?_, keptLimits.trans sameLimits⟩
  rw [noted]
  exact balanced.accepted fits accepted

private theorem window_of_reaches {ledger : Ledger}
    (reached : (audited zlib).Reaches (opening conn) (reader, ledger))
    (halts : reader.step zlib = .halt (.ok (some window), after)) :
    ∃ filled, Balanced conn.limits filled (note zlib reader ledger) ∧
      filled.windowRemaining = some 0 ∧ window = filled.window := by
  obtain ⟨balanced, sameLimits⟩ := balanced_of_reaches reached
  obtain ⟨filled, accepted, complete, returned⟩ := step_window halts
  obtain ⟨cap, fits⟩ := upcoming_fits zlib reader
  rw [sameLimits] at accepted
  have books := balanced.accepted fits accepted
  refine ⟨filled, books, complete, ?_⟩
  rcases returned with returned | ⟨closed, returned, sameEvents⟩
  · exact returned
  · -- An empty window is returned with sequence number zero, which is what no event leaves.
    have undeclared : ledger.declared = none := by
      cases declared : ledger.declared with
      | none => rfl
      | some count =>
        obtain ⟨remaining, isOpen, _⟩ := balanced.remaining_of_declared declared
        rw [closed] at isOpen
        cases isOpen
    have noEvents : reader.state.events = [] := by
      rw [balanced.events, Ledger.events, balanced.unopened undeclared]
      rfl
    rw [returned, WindowState.window, books.lastSeq, sameEvents, noEvents]
    rfl

/-- The ledger of a whole call. -/
def finalLedger (zlib : Zlib) (conn : ServerConnection) : Ledger :=
  ((audited zlib).run (opening conn)).2

private theorem exists_last (zlib : Zlib) (conn : ServerConnection) :
    ∃ reader ledger, (audited zlib).Reaches (opening conn) (reader, ledger) ∧
      reader.step zlib = .halt (conn.readWindow zlib) ∧
      finalLedger zlib conn = note zlib reader ledger := by
  obtain ⟨⟨reader, ledger⟩, reached, halts⟩ := Machine.exists_halt (audited zlib) (opening conn)
  have same := Machine.ghost_run (machine zlib) (note zlib) ⟨conn, .start, .outer⟩ .blank
  obtain ⟨stops, noted⟩ := Machine.ghost_step_halt.mp halts
  exact ⟨reader, ledger, reached, stops.trans (congrArg _ same), noted⟩

/-- A window that was returned balances the final ledger, with every slot filled. -/
theorem window_balanced (returned : conn.readWindow zlib = (.ok (some window), after)) :
    ∃ filled, Balanced conn.limits filled (finalLedger zlib conn) ∧
      filled.windowRemaining = some 0 ∧ window = filled.window := by
  obtain ⟨reader, ledger, reached, halts, noted⟩ := exists_last zlib conn
  rw [returned] at halts
  rw [noted]
  exact window_of_reaches reached halts

/--
The accounting of a window, over every stream, chunking and choice of limits.

At every step after a count was declared, events, legacy slots and the remaining counter make it up, within the caps.
A returned window has consumed exactly the declared number of data frames.
An event is never refused for its number: the declared count has already been compared with the cap.
-/
theorem readWindow_accounting (zlib : Zlib) (conn : ServerConnection) :
    (∀ reader ledger, (audited zlib).Reaches (opening conn) (reader, ledger) →
      (∀ count, ledger.declared = some count → ∃ remaining, reader.state.windowRemaining = some remaining ∧
          reader.state.events.length + ledger.legacySlots + remaining.toNat = count.toNat ∧
          reader.state.events.length ≤ conn.limits.maxWindowEvents.toNat ∧
          (reader.state.events.map fun event => event.payload.length).sum ≤ conn.limits.maxWindowBytes.toNat) ∧
      (∀ seq payload requested limit, reader.upcoming zlib = some (.json seq payload) →
        reader.state.recordEvent reader.connection.limits seq payload ≠
          .error (.windowTooLarge "event count" requested limit))) ∧
    (∀ window after, conn.readWindow zlib = (.ok (some window), after) →
      ∃ count, (finalLedger zlib conn).declared = some count ∧
        (finalLedger zlib conn).data.length = count.toNat ∧
        window.events = (finalLedger zlib conn).events) := by
  refine ⟨fun reader ledger reached => ⟨?_, ?_⟩, ?_⟩
  · intro count declared
    obtain ⟨balanced, sameLimits⟩ := balanced_of_reaches reached
    obtain ⟨remaining, isOpen, slots⟩ := balanced.remaining_of_declared declared
    have consumed := ledger.length_data
    have fits := balanced.declaredFits count (by simp [declared])
    have bytesFit := balanced.bytesFit
    rw [← balanced.events] at consumed
    rw [balanced.bytes] at bytesFit
    exact ⟨remaining, isOpen, by omega, by omega, bytesFit⟩
  · intro seq payload requested limit taken refused
    obtain ⟨balanced, sameLimits⟩ := balanced_of_reaches reached
    simp only [WindowState.recordEvent] at refused
    cases isOpen : reader.state.windowRemaining with
    | none => simp [isOpen] at refused
    | some remaining =>
      simp only [isOpen] at refused
      by_cases full : remaining = 0
      · simp [full] at refused
      · -- With a slot left there is room for an event, so the second guard is never the reason.
        have room := balanced.room isOpen full
        rw [← sameLimits] at room
        simp only [if_neg full, if_neg (Nat.not_le.mpr room)] at refused
        split at refused <;> simp at refused
  · intro window after returned
    obtain ⟨filled, balanced, complete, rfl⟩ := window_balanced returned
    obtain ⟨count, declared, slots⟩ := balanced.declared_of_remaining complete
    exact ⟨count, declared, by simpa using slots, balanced.events⟩

end Reader

/-- A peer that sends one chunk under a cap of sixty-four bytes and then closes the connection. -/
def ServerConnection.fed (bytes : Bytes) (nonempty : bytes ≠ [])
    (within : bytes.length ≤ readChunk) : ServerConnection :=
  Listener.accept ⟨[⟨bytes, nonempty, within⟩], .eof, [], []⟩ 64 ⟨8, 64⟩

/-- A window of two: a JSON event and then a legacy frame without pairs, numbered one and two. -/
def mixedConnection : ServerConnection :=
  .fed ([0x32, 0x57, 0, 0, 0, 2] ++ [0x32, 0x4A, 0, 0, 0, 1, 0, 0, 0, 1, 0x7B] ++
    [0x32, 0x44, 0, 0, 0, 2, 0, 0, 0, 0]) (by simp) (by decide)

/-- The mixed window is returned and has consumed two data frames. -/
theorem readWindow_accounting_mixed : ∃ count, (Reader.finalLedger noZlib mixedConnection).declared = some count ∧
      (Reader.finalLedger noZlib mixedConnection).data.length = count.toNat ∧
      [⟨1, [0x7B]⟩] = (Reader.finalLedger noZlib mixedConnection).events := by
  have returned : (mixedConnection.readWindow noZlib).1 = .ok (some ⟨[⟨1, [0x7B]⟩], 1⟩) := by
    decide +kernel
  exact (Reader.readWindow_accounting noZlib mixedConnection).2 ⟨[⟨1, [0x7B]⟩], 1⟩ _
    (Prod.ext returned rfl)

end FerroProtocols.Lumberjack
