import FerroProtocols.Lumberjack.CleanClose
import FerroProtocols.Lumberjack.Encoding
import FerroProtocols.Lumberjack.LastSeq

/-! The windows a server reads are the batches a client wrote, in order. -/

namespace FerroProtocols.Lumberjack

/-- The frame that carries an event. -/
def JsonEvent.frame (event : JsonEvent) : Frame := .json event.seq event.payload

/-- The bytes that carry events, one frame after the other. -/
def encodeEvents (events : List JsonEvent) : Bytes :=
  (events.map fun event => encodeJsonFrame event.seq event.payload).flatten

/-- Payloads numbered from the one after a base, counting from an index on. -/
def numberFrom (base : UInt32) (index : Nat) (payloads : List Bytes) : List JsonEvent :=
  (payloads.zipIdx index).map fun (payload, place) => ⟨base + UInt32.ofNat (place + 1), payload⟩

private theorem advance_index (base : UInt32) {index : Nat} (word : index ≤ u32Max) :
    ((Sequence.mk base).advance (u32OfLength index + 1)).value = base + UInt32.ofNat (index + 1) := by
  -- The index is not cut off, and adding one may wrap on both sides alike.
  have kept : u32OfLength index = UInt32.ofNat index := by rw [u32OfLength, Nat.min_eq_left word]
  rw [Sequence.advance, kept, UInt32.ofNat_add]
  rfl

/-- The data frames of a batch are its payloads, numbered and encoded. -/
theorem dataFrames_eq (base : UInt32) (payloads : List Bytes) (counted : payloads.length ≤ u32Max) :
    dataFrames ⟨base⟩ payloads = encodeEvents (numberFrom base 0 payloads) := by
  unfold dataFrames encodeEvents numberFrom
  rw [List.map_map]
  congr 1
  apply List.map_congr_left
  rintro ⟨payload, place⟩ member
  -- Every index of the batch is below its length.
  have within := (List.mem_zipIdx member).2.1
  simp only [Function.comp_apply]
  rw [advance_index base (by omega)]

/-- The numbered payloads are the payloads. -/
theorem map_payload_numberFrom (base : UInt32) (index : Nat) (payloads : List Bytes) :
    (numberFrom base index payloads).map JsonEvent.payload = payloads := by
  induction payloads generalizing index with
  | nil => rfl
  | cons payload rest ih =>
    have later := ih (index + 1)
    simp only [numberFrom, List.zipIdx_cons, List.map_cons] at later ⊢
    rw [later]

private theorem getLast_numberFrom (base : UInt32) (index : Nat) {payloads : List Bytes} (nonempty : payloads ≠ []) :
    (numberFrom base index payloads).getLast?.map JsonEvent.seq =
      some (base + UInt32.ofNat (index + payloads.length)) := by
  induction payloads generalizing index with
  | nil => exact absurd rfl nonempty
  | cons payload rest ih =>
    cases rest with
    | nil => rfl
    | cons next others =>
      -- The last of several is the last of the rest.
      have later := ih (index + 1) (by simp)
      have shifted : index + 1 + (next :: others).length =
          index + (payload :: next :: others).length := by
        grind
      rw [shifted] at later
      rw [← later]
      simp [numberFrom, List.zipIdx_cons]

private theorem drain_encodeEvents (zlib : Zlib) (cap : UInt64) : ∀ {events : List JsonEvent},
    (∀ event ∈ events, event.payload.length < 2 ^ 32 ∧ event.payload.length ≤ cap.toNat) →
    (frameParser zlib cap).drain (encodeEvents events) = ⟨events.map JsonEvent.frame, none, []⟩ := by
  intro events
  induction events with
  | nil =>
    intro _
    exact StreamParser.drain_needMore rfl
  | cons event rest ih =>
    intro small
    obtain ⟨word, within⟩ := small event List.mem_cons_self
    have later := ih (fun other member => small other (List.mem_cons_of_mem event member))
    have parsed : (frameParser zlib cap).step (encodeEvents (event :: rest)) =
        .item event.frame (10 + event.payload.length) :=
      parseFrame_encodeJsonFrame zlib event.seq word within (encodeEvents rest)
    -- Behind the first frame come the frames of the rest.
    have behind : (encodeEvents (event :: rest)).drop (10 + event.payload.length) =
        encodeEvents rest :=
      List.drop_left' (length_encodeJsonFrame event.seq event.payload)
    rw [StreamParser.drain_item parsed, behind, later]
    rfl

namespace WindowState

/-- The state with one more event recorded. -/
def push (state : WindowState) (event : JsonEvent) : WindowState :=
  ⟨state.events ++ [event], state.windowRemaining.map (· - 1), event.seq,
    state.accumulatedBytes + event.payload.length⟩

/-- The open slots are for exactly these events, and the caps have room for them. -/
structure Room (limits : WindowLimits) (state : WindowState) (events : List JsonEvent) : Prop where
  slots : ∃ remaining, state.windowRemaining = some remaining ∧ remaining.toNat = events.length
  count : state.events.length + events.length ≤ limits.maxWindowEvents.toNat
  bytes : state.accumulatedBytes + (events.map fun event => event.payload.length).sum ≤
    limits.maxWindowBytes.toNat

/-- With room for it, an event is recorded, and there is room for the rest. -/
theorem Room.recordEvent {limits : WindowLimits} {state : WindowState} {event : JsonEvent}
    {rest : List JsonEvent} (room : Room limits state (event :: rest)) :
    state.recordEvent limits event.seq event.payload = .ok (state.push event) ∧
      Room limits (state.push event) rest := by
  obtain ⟨⟨remaining, isOpen, slots⟩, count, bytes⟩ := room
  simp only [List.length_cons, List.map_cons, List.sum_cons] at slots count bytes
  -- At least one slot is left, so the counter is not zero.
  have slot : remaining ≠ 0 := by
    intro zero
    rw [zero] at slots
    simp at slots
  have lower := toNat_sub_one slot
  have word := limits.maxWindowBytes.toNat_lt
  have sum : min (state.accumulatedBytes + event.payload.length) u64Max =
      state.accumulatedBytes + event.payload.length := by
    grind [u64Max]
  constructor
  · have fewer : ¬ state.events.length ≥ limits.maxWindowEvents.toNat := by omega
    have lighter : ¬ state.accumulatedBytes + event.payload.length >
        limits.maxWindowBytes.toNat := by omega
    simp [WindowState.recordEvent, isOpen, slot, fewer, sum, lighter, push]
  · refine ⟨⟨remaining - 1, by simp [push, isOpen], by omega⟩, ?_, ?_⟩
    · grind [push]
    · simp only [push]
      omega

/-- Recording all events leaves no slot open. -/
theorem Room.filled {limits : WindowLimits} : ∀ {events : List JsonEvent} {state : WindowState},
    Room limits state events → (events.foldl push state).windowRemaining = some 0 := by
  intro events
  induction events with
  | nil =>
    intro state room
    obtain ⟨remaining, isOpen, slots⟩ := room.slots
    have none : remaining = 0 := UInt32.toNat_inj.mp slots
    rw [List.foldl_nil, isOpen, none]
  | cons event rest ih =>
    intro state room
    exact ih room.recordEvent.2

private theorem foldl_push_events (events : List JsonEvent) (state : WindowState) :
    (events.foldl push state).events = state.events ++ events := by
  induction events generalizing state with
  | nil => simp
  | cons event rest ih => simp [ih, push]

private theorem foldl_push_lastSeq (events : List JsonEvent) (state : WindowState) :
    (events.foldl push state).lastSeq =
      (events.getLast?.map JsonEvent.seq).getD state.lastSeq := by
  induction events generalizing state with
  | nil => rfl
  | cons event rest ih =>
    rw [List.foldl_cons, ih]
    cases rest with
    | nil => rfl
    | cons next others => simp [List.getLast?_cons]

end WindowState

namespace StreamConfig

open WindowState

private theorem acceptBatch_events (config : StreamConfig) : ∀ {events : List JsonEvent}
    {state : WindowState}, Room config.limits state events →
    config.acceptBatch state (events.map JsonEvent.frame) = .ok (events.foldl push state) := by
  intro events
  induction events with
  | nil =>
    intro state _
    rfl
  | cons event rest ih =>
    intro state room
    obtain ⟨recorded, later⟩ := room.recordEvent
    simp only [List.map_cons, acceptBatch, acceptInner, JsonEvent.frame, recorded, List.foldl_cons]
    exact ih later

private theorem streamWindows_events (zlib : Zlib) (config : StreamConfig) (tail : Bytes) :
    ∀ {events : List JsonEvent} {state : WindowState}, events ≠ [] → Room config.limits state events →
    (∀ event ∈ events, event.payload.length < 2 ^ 32 ∧ event.payload.length ≤ config.frameCap.toNat) →
    config.streamWindows zlib state (encodeEvents events ++ tail) =
      (config.streamWindows zlib .start tail).cons (events.foldl push state).window := by
  intro events
  induction events with
  | nil =>
    intro state nonempty
    exact absurd rfl nonempty
  | cons event rest ih =>
    intro state _ room small
    obtain ⟨word, within⟩ := small event List.mem_cons_self
    obtain ⟨recorded, later⟩ := room.recordEvent
    have front : encodeEvents (event :: rest) ++ tail =
        encodeJsonFrame event.seq event.payload ++ (encodeEvents rest ++ tail) := by
      simp [encodeEvents]
    have parsed := parseFrame_encodeJsonFrame zlib event.seq word within
      (encodeEvents rest ++ tail)
    have behind : (encodeJsonFrame event.seq event.payload ++ (encodeEvents rest ++ tail)).drop
        (10 + event.payload.length) = encodeEvents rest ++ tail :=
      List.drop_left' (length_encodeJsonFrame event.seq event.payload)
    rw [front, streamWindows_item parsed, behind]
    simp only [acceptFrame, recorded, List.foldl_cons, settle]
    cases rest with
    | nil =>
      -- The last event fills the last slot.
      have filled : (state.push event).windowRemaining = some 0 := later.filled
      simp only [if_pos filled, List.foldl_nil]
      rfl
    | cons next others =>
      -- Slots for the other events are still open.
      obtain ⟨remaining, isOpen, slots⟩ := later.slots
      have unfilled : (state.push event).windowRemaining ≠ some 0 := by
        intro filled
        rw [filled, Option.some.injEq] at isOpen
        rw [← isOpen] at slots
        simp at slots
      simp only [if_neg unfilled]
      exact ih (by simp) later (fun other member => small other (List.mem_cons_of_mem _ member))

private theorem streamWindows_batch {zlib : Zlib} (roundTrips : zlib.RoundTrips) (config : StreamConfig)
    {level : UInt32} {encoded : Bytes} {events : List JsonEvent} {state : WindowState}
    (stored : encodeCompressed zlib level (encodeEvents events) = .ok encoded)
    (room : Room config.limits state events)
    (sameCap : config.batchCap = config.frameCap) (small : ∀ event ∈ events, event.payload.length < 2 ^ 32 ∧
      event.payload.length ≤ config.frameCap.toNat) (inner : (encodeEvents events).length ≤ config.frameCap.toNat)
    (shrunk : encoded.length < (encodeEvents events).length) (tail : Bytes) :
    config.streamWindows zlib state (encoded ++ tail) =
      (config.streamWindows zlib .start tail).cons (events.foldl push state).window := by
  have parsed := parseFrame_encodeCompressed stored roundTrips inner (by omega) tail
  -- The batch's decoder finds exactly the events' frames.
  have drained := drain_encodeEvents zlib config.frameCap small
  rw [streamWindows_item parsed, List.drop_left]
  simp [acceptFrame, sameCap, drained, acceptDrained, config.acceptBatch_events room, settle, if_pos room.filled]

end StreamConfig

/-- A batch a client can send as one window. -/
structure Batch where
  events : List Bytes
  -- An empty batch is answered without sending anything.
  nonempty : events ≠ []
  -- A larger batch aborts the call.
  counted : events.length ≤ u32Max

namespace Batch

/-- How many events a batch has, as the word its Window frame carries. -/
def count (batch : Batch) : UInt32 := UInt32.ofNat batch.events.length

/-- The window a batch should arrive as, numbered behind a base. -/
def window (batch : Batch) (base : UInt32) : Window :=
  ⟨batch.events.zipIdx.map fun (payload, index) => ⟨base + UInt32.ofNat (index + 1), payload⟩,
    base + batch.count⟩

/-- A batch whose sizes are within what the server accepts. -/
structure Admitted (batch : Batch) (base : UInt32) (cap : UInt64) (limits : WindowLimits) :
    Prop where
  few : batch.events.length ≤ limits.maxWindowEvents.toNat
  words : ∀ event ∈ batch.events, event.length < 2 ^ 32
  small : ∀ event ∈ batch.events, event.length ≤ cap.toNat
  total : (batch.events.map List.length).sum ≤ limits.maxWindowBytes.toNat
  inner : (dataFrames ⟨base⟩ batch.events).length ≤ cap.toNat

/-- Batches with the base each is numbered from, the next base behind the last number. -/
def assign (base : UInt32) : List Batch → List (UInt32 × Batch)
  | [] => []
  | batch :: later => (base, batch) :: assign (base + batch.count) later

/-- The state of a window of a given count, before its first data frame. -/
def opened (batch : Batch) : WindowState := ⟨[], some batch.count, 0, 0⟩

/-- The count of a batch is its number of events. -/
theorem toNat_count (batch : Batch) : batch.count.toNat = batch.events.length := by
  have counted := batch.counted
  apply UInt32.toNat_ofNat_of_lt'
  unfold u32Max at counted
  have size : UInt32.size = 2 ^ 32 := rfl
  omega

/-- An opened window has room for an admitted batch. -/
theorem Admitted.room {batch : Batch} {base : UInt32} {cap : UInt64} {limits : WindowLimits}
    (admitted : batch.Admitted base cap limits) : batch.opened.Room limits (numberFrom base 0 batch.events) := by
  have payloads := map_payload_numberFrom base 0 batch.events
  have length : (numberFrom base 0 batch.events).length = batch.events.length := by grind
  refine ⟨⟨batch.count, rfl, ?_⟩, ?_, ?_⟩
  · rw [batch.toNat_count, length]
  · simp only [opened, List.length_nil, length]
    have few := admitted.few
    omega
  · have sum : ((numberFrom base 0 batch.events).map fun event => event.payload.length) =
        batch.events.map List.length := by
      rw [← payloads, List.map_map, payloads]
      rfl
    rw [sum]
    simpa [opened] using admitted.total

private theorem foldl_push_window (batch : Batch) (base : UInt32) :
    ((numberFrom base 0 batch.events).foldl WindowState.push batch.opened).window = batch.window base := by
  have last := getLast_numberFrom base 0 batch.nonempty
  rw [Nat.zero_add] at last
  simp only [WindowState.window, WindowState.foldl_push_events, WindowState.foldl_push_lastSeq,
    last, Option.getD_some, opened, List.nil_append]
  rfl

private theorem streamWindows_payload {zlib : Zlib} (roundTrips : zlib.RoundTrips) (level : UInt32)
    {batch : Batch} {base : UInt32} {config : StreamConfig} (sameCap : config.batchCap = config.frameCap)
    (admitted : batch.Admitted base config.frameCap config.limits) (tail : Bytes) : config.streamWindows zlib .start
        (buildWindowPayload zlib level batch.events ⟨base⟩ ++ tail) =
      (config.streamWindows zlib .start tail).cons (batch.window base) := by
  have room := admitted.room
  have frames := dataFrames_eq base batch.events batch.counted
  have inner := admitted.inner
  rw [frames] at inner
  have small : ∀ event ∈ numberFrom base 0 batch.events, event.payload.length < 2 ^ 32 ∧
      event.payload.length ≤ config.frameCap.toNat := by
    intro event member
    have payload : event.payload ∈ batch.events := by
      rw [← map_payload_numberFrom base 0 batch.events]
      exact List.mem_map_of_mem member
    exact ⟨admitted.words _ payload, admitted.small _ payload⟩
  have nonempty : numberFrom base 0 batch.events ≠ [] := by
    intro empty
    have payloads := map_payload_numberFrom base 0 batch.events
    rw [empty] at payloads
    exact batch.nonempty payloads.symm
  -- The header opens the window, whichever bytes follow it.
  have header : ∀ body : Bytes, config.streamWindows zlib .start
      (encodeWindow (u32OfLength batch.events.length) ++ body) = config.streamWindows zlib batch.opened body := by
    intro body
    have counted : u32OfLength batch.events.length = batch.count := by
      rw [u32OfLength, Nat.min_eq_left batch.counted]
      rfl
    have few := admitted.few
    have positive : batch.count ≠ 0 := by
      intro zero
      have none := batch.toNat_count
      rw [zero] at none
      exact batch.nonempty (List.length_eq_zero_iff.mp none.symm)
    have fits : ¬ batch.count.toNat > config.limits.maxWindowEvents.toNat := by
      rw [batch.toNat_count]
      omega
    rw [counted, StreamConfig.streamWindows_item
      (parseFrame_encodeWindow zlib config.frameCap batch.count body), drop_encodeWindow]
    simp [StreamConfig.acceptFrame, WindowState.start, checkDeclaredWindow, fits, positive, opened]
  have plain : config.streamWindows zlib .start (encodeWindow (u32OfLength batch.events.length) ++
      dataFrames ⟨base⟩ batch.events ++ tail) =
        (config.streamWindows zlib .start tail).cons (batch.window base) := by
    rw [List.append_assoc, header, frames, config.streamWindows_events zlib tail nonempty room small,
      foldl_push_window]
  unfold buildWindowPayload
  -- The body is the data frames themselves unless a batch is strictly shorter.
  dsimp only
  split
  · cases stored : encodeCompressed zlib level (dataFrames ⟨base⟩ batch.events) with
    | error error => exact plain
    | ok encoded =>
      dsimp only
      split
      · rename_i shrunk
        rw [frames] at stored shrunk
        rw [List.append_assoc, header,
          config.streamWindows_batch roundTrips stored room sameCap small inner shrunk tail, foldl_push_window]
      · exact plain
  · exact plain

end Batch

private theorem streamWindows_batches {zlib : Zlib} (roundTrips : zlib.RoundTrips) (level : UInt32)
    {config : StreamConfig} (sameCap : config.batchCap = config.frameCap)
    (closed : config.closing = .eof) : ∀ {batches : List Batch} {base : UInt32}, (∀ sent ∈ Batch.assign base batches,
      sent.2.Admitted sent.1 config.frameCap config.limits) →
    config.streamWindows zlib .start ((Batch.assign base batches).map fun sent =>
        buildWindowPayload zlib level sent.2.events ⟨sent.1⟩).flatten =
      ⟨(Batch.assign base batches).map fun sent => sent.2.window sent.1, .ok (), []⟩ := by
  intro batches
  induction batches with
  | nil =>
    intro base _
    -- Nothing is left, and no window is open.
    have ended : parseFrame zlib config.frameCap [] = .needMore := rfl
    simp only [Batch.assign, List.map_nil, List.flatten_nil]
    rw [StreamConfig.streamWindows_needMore ended]
    simp only [StreamConfig.atEnd, closed]
    rfl
  | cons batch later ih =>
    intro base admitted
    have first := admitted (base, batch) List.mem_cons_self
    have others := ih (fun sent member => admitted sent (List.mem_cons_of_mem _ member))
    simp only [Batch.assign, List.map_cons, List.flatten_cons]
    rw [Batch.streamWindows_payload roundTrips level sameCap first, others]
    rfl

/-- An ack of the last number of a window is taken as a full ack by its sender. -/
theorem sendPayloadOnce_acked {attempt : Attempt} {client : Client} {conn : Connection}
    {ack : AckBytes} (connected : client.connection = some conn)
    (written : attempt.write = .done ()) (flushed : attempt.flush = .done ())
    (answered : attempt.ack = .done ack) {base count : UInt32}
    (full : ack.bytes = encodeAck (base + count)) (payload : Bytes) :
    (client.sendPayloadOnce attempt payload base count).1 = .ok count := by
  simp only [Client.sendPayloadOnce, connected, Client.exchange, written, flushed, answered, Outcome.await]
  exact (classifyAck_encodeAck full base count).mpr rfl

/-- Successive calls return the windows of batches, each with an ack on the socket that the sender of the batch takes
for a full one, and then the clean close. -/
def ServerConnection.Acks (zlib : Zlib) (level : UInt32) : List (UInt32 × Batch) → ServerConnection → Prop
  | [], conn => (conn.readAndAck zlib).1 = .ok none
  | (base, batch) :: later, conn => ∃ (acked : ServerConnection) (ack : AckBytes),
    conn.readAndAck zlib = (.ok (some (batch.window base)), acked) ∧
      acked.socket.outgoing = conn.socket.outgoing ++ ack.bytes ∧
      (∀ (attempt : Attempt) (client : Client) (link : Connection), client.connection = some link →
        attempt.write = .done () → attempt.flush = .done () → attempt.ack = .done ack →
        (client.sendPayloadOnce attempt (buildWindowPayload zlib level batch.events ⟨base⟩) base batch.count).1 =
          .ok batch.count) ∧
      Acks zlib level later acked

private theorem acks_of_streamWindows {zlib : Zlib} (level : UInt32) {sent : List (UInt32 × Batch)} {rest : Bytes} :
    ∀ {conn : ServerConnection}, conn.socket.writeFaults = [] → conn.config.streamWindows zlib .start conn.stream =
        ⟨sent.map fun sent => sent.2.window sent.1, .ok (), rest⟩ → conn.Acks zlib level sent := by
  induction sent with
  | nil =>
    intro conn _ windows
    have result := (conn.readWindow_eq zlib).1
    rw [StreamConfig.streamWindows_eq] at windows
    split at windows
    · cases windows
    · rename_i read
      rw [read] at result
      simp only [ServerConnection.Acks, ServerConnection.readAndAck]
      rcases called : conn.readWindow zlib with ⟨_ | _ | window, after⟩ <;> rw [called] at result <;> cases result
    · cases windows
  | cons first later ih =>
    obtain ⟨base, batch⟩ := first
    intro conn faultless windows
    obtain ⟨result, left, config⟩ := conn.readWindow_eq zlib
    have silent := congrArg Prod.snd (conn.readWindow_writes zlib)
    have written := congrArg Prod.fst (conn.readWindow_writes zlib)
    rw [StreamConfig.streamWindows_eq] at windows
    split at windows
    · -- The first call returns the window and leaves the stream behind it, to which the ack adds nothing.
      rename_i window stream read
      obtain ⟨heads, ending, leaves⟩ := StreamSession.mk.inj windows
      obtain ⟨window, tails⟩ := List.cons.inj heads
      have windows : conn.config.streamWindows zlib .start stream =
          ⟨later.map fun sent => sent.2.window sent.1, .ok (), rest⟩ := by rw [← tails, ← ending, ← leaves]
      rcases called : conn.readWindow zlib with ⟨outcome, after⟩
      rw [called] at result left config silent written
      rw [read] at result left
      have outcome : outcome = .ok (some (batch.window base)) := result.trans (by rw [window])
      have none : after.socket.writeFaults = [] := silent.trans faultless
      let acked : ServerConnection := { after with
        socket := { after.socket with outgoing := after.socket.outgoing ++ encodeAck (batch.window base).lastSeq } }
      have sends : after.sendAck (batch.window base).lastSeq = (.ok (), acked) := by
        simp [ServerConnection.sendAck, Socket.writeAll, Socket.flush, none, acked]
      refine ⟨acked, ⟨encodeAck (base + batch.count), by simp [encodeAck]⟩, ?_, ?_, ?_, ih none ?_⟩
      · simp only [ServerConnection.readAndAck, called, outcome, sends]
      · exact congrArg (· ++ _) written
      · intro attempt client link connected wrote flushed answered
        exact sendPayloadOnce_acked connected wrote flushed answered rfl _
      · have stays : acked.stream = after.stream ∧ acked.config = after.config := ⟨rfl, rfl⟩
        rw [stays.1, stays.2, left, config]
        exact windows
    · cases windows
    · cases windows

/--
Client and server agree end to end.

Whatever the chunks, the base and the compression level, a server reads the batches in order and then a clean close.
The ack that reading and acking writes for a window is a full ack to the client that sent its batch.
-/
theorem batches_arrive (zlib : Zlib) (roundTrips : zlib.RoundTrips) (level base : UInt32)
    (batches : List Batch) (cap : UInt64) (limits : WindowLimits) (chunks : List Chunk)
    (admitted : ∀ sent ∈ Batch.assign base batches, sent.2.Admitted sent.1 cap limits)
    (delivered : (chunks.map Chunk.bytes).flatten = ((Batch.assign base batches).map fun sent =>
        buildWindowPayload zlib level sent.2.events ⟨sent.1⟩).flatten) :
    ((Listener.accept ⟨chunks, .eof, [], []⟩ cap limits).readWindows zlib).windows =
        (Batch.assign base batches).map (fun sent => sent.2.window sent.1) ∧
      ((Listener.accept ⟨chunks, .eof, [], []⟩ cap limits).readWindows zlib).ending = .ok () ∧
      (Listener.accept ⟨chunks, .eof, [], []⟩ cap limits).Acks zlib level (Batch.assign base batches) := by
  obtain ⟨windows, ending, _⟩ :=
    ServerConnection.readWindows_eq zlib (Listener.accept ⟨chunks, .eof, [], []⟩ cap limits)
  have stream : (Listener.accept ⟨chunks, .eof, [], []⟩ cap limits).stream =
      (chunks.map Chunk.bytes).flatten := rfl
  have config : (Listener.accept ⟨chunks, .eof, [], []⟩ cap limits).config =
      ⟨cap, cap, limits, .eof⟩ := rfl
  -- The chunks do not matter any more, only the bytes they make up.
  have read := streamWindows_batches roundTrips level
    (show StreamConfig.batchCap ⟨cap, cap, limits, .eof⟩ = cap from rfl) rfl admitted
  rw [← delivered, ← stream, ← config] at read
  rw [read] at windows ending
  exact ⟨windows, ending, acks_of_streamWindows level rfl read⟩

/-- Two events of forty bytes. -/
def twoEvents : Batch := ⟨List.replicate 2 (List.replicate 40 0x61), by simp, by decide⟩

/-- A batch of one event. -/
def smallBatch : Batch := ⟨[[0x7B]], by simp, by decide⟩

/-- What a client sends for both at level 3: compression shortens the first one only. -/
def sentBytes : Bytes :=
  [0x32, 0x57, 0, 0, 0, 2, 0x32, 0x43, 0, 0, 0, 22, 120, 94, 51, 242, 98, 128, 0, 141, 68, 34, 129, 17,
    72, 7, 35, 41, 58, 0,
    192, 200, 31, 154, 0x32, 0x57, 0, 0, 0, 1, 0x32, 0x4A, 0, 0, 0, 2, 0, 0, 0, 1, 0x7B]

/-- The bytes come in two chunks, cut inside of the batch. -/
def sentChunks : List Chunk := [⟨sentBytes.take 20, by decide, by decide⟩, ⟨sentBytes.drop 20, by decide, by decide⟩]

/-- A compressed window that begins at the largest number arrives, and another one behind it; the first one is acked
with its last number, and its sender takes that for a full ack. -/
theorem batches_arrive_wrapped :
    ((Listener.accept ⟨sentChunks, .eof, [], []⟩ 128 ⟨8, 128⟩).readWindows tableZlib).windows =
        [twoEvents.window 0xFFFFFFFF, smallBatch.window 1] ∧
      ∃ acked ack, (Listener.accept ⟨sentChunks, .eof, [], []⟩ 128 ⟨8, 128⟩).readAndAck tableZlib =
          (.ok (some (twoEvents.window 0xFFFFFFFF)), acked) ∧
        acked.socket.outgoing = encodeAck 1 ∧ classifyAck ack 0xFFFFFFFF 2 = .ok 2 ∧ ack.bytes = encodeAck 1 := by
  have admitted : ∀ sent ∈ Batch.assign 0xFFFFFFFF [twoEvents, smallBatch], sent.2.Admitted sent.1 128 ⟨8, 128⟩ := by
    intro sent member
    rcases List.mem_cons.mp member with rfl | member
    · exact ⟨by decide, by decide, by decide, by decide, by decide⟩
    · rw [List.mem_singleton.mp member]
      exact ⟨by decide, by decide, by decide, by decide, by decide⟩
  obtain ⟨windows, _, acked, ack, returned, outgoing, full, _⟩ := batches_arrive tableZlib tableZlib_roundTrips 3
    0xFFFFFFFF [twoEvents, smallBatch] 128 ⟨8, 128⟩ sentChunks admitted (by decide +kernel)
  have bytes : ack.bytes = encodeAck 1 := by
    have written := (ServerConnection.readAndAck_ok returned).2
    rw [outgoing] at written
    exact List.append_cancel_left written
  exact ⟨windows, acked, ack, returned, outgoing.trans bytes,
    (classifyAck_encodeAck bytes 0xFFFFFFFF 2).mpr rfl, bytes⟩

end FerroProtocols.Lumberjack
