import FerroProtocols.Lib.Machine
import FerroProtocols.Lumberjack.Chunking
import FerroProtocols.Lumberjack.Protocol

/-! The server's side of a connection: a machine whose positions are those of the nested loops of the source. -/

namespace FerroProtocols.Lumberjack

open FrameDecoder

/-- The most bytes one read takes from the socket. -/
def readChunk : Nat := 8 * 1024

/-- What one successful read returns: some bytes, and no more than were asked for. -/
structure Chunk where
  bytes : Bytes
  nonempty : bytes ≠ []
  within : bytes.length ≤ readChunk

/-- What a read finds once everything sent has been taken. -/
inductive Closing where
  -- The peer closed the connection.
  | eof
  -- The transport failed.
  | failed (error : IoError)

/-- The socket below a connection: what its reads will return, and what has been written to it. -/
structure Socket where
  -- The chunks successive reads return.
  incoming : List Chunk
  -- What every read returns after the last chunk.
  closing : Closing
  -- Everything written so far.
  outgoing : Bytes
  -- The failures of coming writes and flushes, in order; beyond the list they succeed.
  writeFaults : List (Option IoError)

namespace Socket

/-- Everything the peer still has to deliver. -/
def undelivered (socket : Socket) : Bytes :=
  (socket.incoming.map Chunk.bytes).flatten

/-- Read once. An empty answer is the end of the stream. -/
def read (socket : Socket) : Except IoError Bytes × Socket :=
  match socket.incoming with
  | chunk :: later => (.ok chunk.bytes, { socket with incoming := later })
  | [] =>
    match socket.closing with
    | .eof => (.ok [], socket)
    | .failed error => (.error error, socket)

/-- Write all of the bytes. -/
def writeAll (socket : Socket) (bytes : Bytes) : Except IoError Unit × Socket :=
  match socket.writeFaults with
  | some error :: later => (.error error, { socket with writeFaults := later })
  | none :: later =>
    (.ok (), { socket with outgoing := socket.outgoing ++ bytes, writeFaults := later })
  | [] => (.ok (), { socket with outgoing := socket.outgoing ++ bytes })

/-- Flush what has been written. -/
def flush (socket : Socket) : Except IoError Unit × Socket :=
  match socket.writeFaults with
  | some error :: later => (.error error, { socket with writeFaults := later })
  | none :: later => (.ok (), { socket with writeFaults := later })
  | [] => (.ok (), socket)

end Socket

/-- One data event of a window. -/
structure JsonEvent where
  -- The sequence number its sender assigned.
  seq : UInt32
  -- The raw JSON.
  payload : Bytes
  deriving DecidableEq, Repr

/-- A complete window. -/
structure Window where
  -- The events in the order they were received.
  events : List JsonEvent
  -- The highest sequence number observed, the target of a full ack.
  lastSeq : UInt32
  deriving DecidableEq, Repr

/-- The aggregate caps on one window. -/
structure WindowLimits where
  maxWindowEvents : UInt64
  maxWindowBytes : UInt64

/-- A single accepted connection. -/
structure ServerConnection where
  socket : Socket
  decoder : FrameDecoder
  maxFramePayload : UInt64
  limits : WindowLimits

/-- An accepted connection, before anything has been read. -/
def Listener.accept (socket : Socket) (maxFramePayload : UInt64) (limits : WindowLimits) :
    ServerConnection :=
  ⟨socket, .withMaxFramePayload maxFramePayload, maxFramePayload, limits⟩

/-- What reading a window has gathered so far. -/
structure WindowState where
  events : List JsonEvent
  -- How many data frames are still expected, once a Window frame has been accepted.
  windowRemaining : Option UInt32
  lastSeq : UInt32
  accumulatedBytes : Nat
  deriving DecidableEq

namespace WindowState

/-- Nothing has been read yet. -/
def start : WindowState := ⟨[], none, 0, 0⟩

/-- The window gathered, for the caller. -/
def window (state : WindowState) : Window := ⟨state.events, state.lastSeq⟩

/-- Record a JSON event, unless no slot or no room is left for it. -/
def recordEvent (limits : WindowLimits) (state : WindowState) (seq : UInt32) (payload : Bytes) :
    Except ProtocolError WindowState :=
  match state.windowRemaining with
  | none => .error (.codec (.unknownFrameType frameTypeJson))
  | some remaining =>
    if remaining = 0 then .error (.codec (.unknownFrameType frameTypeJson))
    else if state.events.length ≥ limits.maxWindowEvents.toNat then
      .error (.windowTooLarge "event count" (state.events.length + 1) limits.maxWindowEvents.toNat)
    else
      -- The sum saturates at the largest word instead of wrapping.
      let nextBytes := min (state.accumulatedBytes + payload.length) u64Max
      if nextBytes > limits.maxWindowBytes.toNat then
        .error (.windowTooLarge "byte total" nextBytes limits.maxWindowBytes.toNat)
      else
        .ok ⟨state.events ++ [⟨seq, payload⟩], some (remaining - 1), seq, nextBytes⟩

/-- Consume the slot of a legacy data frame, which carries no payload here. -/
def consumeSlot (state : WindowState) : Except ProtocolError WindowState :=
  match state.windowRemaining with
  | none => .error (.codec (.unknownFrameType frameTypeDataLegacy))
  | some remaining =>
    if remaining = 0 then .error (.codec (.unknownFrameType frameTypeDataLegacy))
    else .ok { state with windowRemaining := some (remaining - 1) }

end WindowState

/-- Reject a window whose declared count already exceeds the cap on events. -/
def checkDeclaredWindow (count : UInt32) (maxEvents : UInt64) : Except ProtocolError Unit :=
  if count.toNat > maxEvents.toNat then
    .error (.windowTooLarge "event count" count.toNat maxEvents.toNat)
  else .ok ()

/-- Which loop of the reader is running. -/
inductive Position where
  -- Frames of the connection itself.
  | outer
  -- Frames of a batch, in a decoder of their own.
  | inner (dec : FrameDecoder)

/-- The state of one call that reads a window. -/
structure Reader where
  connection : ServerConnection
  state : WindowState
  position : Position

/-- What a call that reads a window returns, with the connection it leaves. -/
abbrev ReadResult := Except ProtocolError (Option Window) × ServerConnection

namespace Reader

/-- Return the window once its last slot is filled, or go on with the connection's frames. -/
def finish (conn : ServerConnection) (state : WindowState) : Transition Reader ReadResult :=
  if state.windowRemaining = some 0 then .halt (.ok (some state.window), conn)
  else .go ⟨conn, state, .outer⟩

/-- Act on a frame of the connection. -/
def takeFrame (conn : ServerConnection) (state : WindowState) :
    Frame → Transition Reader ReadResult
  | .window count =>
    if state.windowRemaining.isSome then
      .halt (.error (.codec (.unknownFrameType frameTypeWindow)), conn)
    else
      match checkDeclaredWindow count conn.limits.maxWindowEvents with
      | .error error => .halt (.error error, conn)
      | .ok () =>
        -- An empty window is returned at once, and its caller decides whether to ack it.
        if count = 0 then .halt (.ok (some ⟨state.events, 0⟩), conn)
        else .go ⟨conn, { state with windowRemaining := some count }, .outer⟩
  | .json seq payload =>
    match state.recordEvent conn.limits seq payload with
    | .error error => .halt (.error error, conn)
    | .ok after => finish conn after
  | .compressed decompressed =>
    -- The batch gets a fresh decoder with the connection's own cap.
    .go ⟨conn, state,
      .inner ((FrameDecoder.withMaxFramePayload conn.maxFramePayload).feed decompressed)⟩
  | .unknown _ _ =>
    match state.consumeSlot with
    | .error error => .halt (.error error, conn)
    | .ok after => finish conn after
  | .ack _ => .halt (.error (.codec (.unknownFrameType frameTypeAck)), conn)

/-- Act on a frame inside a batch, where only data frames may appear. -/
def takeInnerFrame (conn : ServerConnection) (state : WindowState) (batch : FrameDecoder) :
    Frame → Transition Reader ReadResult
  | .json seq payload =>
    match state.recordEvent conn.limits seq payload with
    | .error error => .halt (.error error, conn)
    | .ok after => .go ⟨conn, after, .inner batch⟩
  | .unknown _ _ =>
    match state.consumeSlot with
    | .error error => .halt (.error error, conn)
    | .ok after => .go ⟨conn, after, .inner batch⟩
  | .window _ => .halt (.error (.codec (.unknownFrameType 0)), conn)
  | .compressed _ => .halt (.error (.codec (.unknownFrameType 0)), conn)
  | .ack _ => .halt (.error (.codec (.unknownFrameType 0)), conn)

/-- Read from the socket when the buffered bytes hold no further frame. -/
def receive (conn : ServerConnection) (state : WindowState) :
    Transition Reader ReadResult :=
  match conn.socket.read with
  | (.error error, socket) => .halt (.error (.io error), { conn with socket := socket })
  | (.ok [], socket) =>
    -- The end of the stream is clean only before a Window frame has been seen.
    if state.windowRemaining.isNone ∧ state.events.isEmpty then
      .halt (.ok none, { conn with socket := socket })
    else
      .halt (.error (.io ⟨.unexpectedEof, "lumberjack: peer closed connection mid-window"⟩),
        { conn with socket := socket })
  | (.ok (byte :: bytes), socket) =>
    .go ⟨{ conn with
      socket := socket, decoder := conn.decoder.feed (byte :: bytes) }, state, .outer⟩

/-- One step: take a frame of the batch or of the connection, leave the batch, or read. -/
def step (zlib : Zlib) (reader : Reader) : Transition Reader ReadResult :=
  match reader.position with
  | .inner batch =>
    match batch.nextFrame zlib with
    | (.error error, _) => .halt (.error (.codec error), reader.connection)
    | (.ok (some frame), after) =>
      takeInnerFrame reader.connection reader.state after frame
    -- The batch has run out, and the window may be full.
    | (.ok none, _) => finish reader.connection reader.state
  | .outer =>
    match reader.connection.decoder.nextFrame zlib with
    | (.error error, after) =>
      .halt (.error (.codec error), { reader.connection with decoder := after })
    | (.ok (some frame), after) =>
      takeFrame { reader.connection with decoder := after } reader.state frame
    | (.ok none, after) => receive { reader.connection with decoder := after } reader.state

/-- The frame the next step takes, from the batch being read or from the connection. -/
def upcoming (zlib : Zlib) (reader : Reader) : Option Frame :=
  let called :=
    match reader.position with
    | .inner batch => (batch.nextFrame zlib).1
    | .outer => (reader.connection.decoder.nextFrame zlib).1
  match called with
  | .ok frame => frame
  | .error _ => none

end Reader

/-- What accepting a frame, or none, does to the state of a window. -/
inductive Accepted (limits : WindowLimits) (before : WindowState) :
    Option Frame → WindowState → Prop where
  -- No frame was taken.
  | idle : Accepted limits before none before
  -- A batch was opened, and its frames come later.
  | batch (decompressed : Bytes) : Accepted limits before (some (.compressed decompressed)) before
  -- A window was declared while none was open.
  | opened (count : UInt32) (closed : before.windowRemaining = none)
      (fits : count.toNat ≤ limits.maxWindowEvents.toNat) :
      Accepted limits before (some (.window count)) { before with windowRemaining := some count }
  -- An event was recorded.
  | recorded {after : WindowState} (seq : UInt32) (payload : Bytes)
      (recorded : before.recordEvent limits seq payload = .ok after) :
      Accepted limits before (some (.json seq payload)) after
  -- The slot of a legacy frame was consumed.
  | skipped {after : WindowState} (frameType : UInt8) (raw : Bytes)
      (consumed : before.consumeSlot = .ok after) :
      Accepted limits before (some (.unknown frameType raw)) after

namespace Reader

/-- Everything a step that goes on can have done. -/
inductive Steps (zlib : Zlib) : Reader → Reader → Prop where
  -- A frame of the batch was accepted.
  | fromBatch {conn : ServerConnection} {before after : WindowState}
      {batch rest : FrameDecoder} {frame : Frame}
      (next : batch.nextFrame zlib = (.ok (some frame), rest))
      (accepted : Accepted conn.limits before (some frame) after) :
      Steps zlib ⟨conn, before, .inner batch⟩ ⟨conn, after, .inner rest⟩
  -- The batch holds no further frame, and the window is not complete.
  | leaveBatch {conn : ServerConnection} {state : WindowState} {batch rest : FrameDecoder}
      (next : batch.nextFrame zlib = (.ok none, rest))
      (unfinished : state.windowRemaining ≠ some 0) :
      Steps zlib ⟨conn, state, .inner batch⟩ ⟨conn, state, .outer⟩
  -- A frame of the connection was accepted.
  | fromConnection {conn : ServerConnection} {before after : WindowState}
      {rest : FrameDecoder} {frame : Frame}
      (next : conn.decoder.nextFrame zlib = (.ok (some frame), rest))
      (accepted : Accepted conn.limits before (some frame) after)
      (unfinished : after.windowRemaining ≠ some 0) :
      Steps zlib ⟨conn, before, .outer⟩ ⟨{ conn with decoder := rest }, after, .outer⟩
  -- A batch was opened.
  | enterBatch {conn : ServerConnection} {state : WindowState} {rest : FrameDecoder}
      {decompressed : Bytes}
      (next : conn.decoder.nextFrame zlib = (.ok (some (.compressed decompressed)), rest)) :
      Steps zlib ⟨conn, state, .outer⟩ ⟨{ conn with decoder := rest }, state,
        .inner ((FrameDecoder.withMaxFramePayload conn.maxFramePayload).feed decompressed)⟩
  -- A chunk was read, because the buffered bytes hold no further frame.
  | received {conn : ServerConnection} {state : WindowState} {rest : FrameDecoder}
      {chunk : Chunk} {later : List Chunk}
      (next : conn.decoder.nextFrame zlib = (.ok none, rest))
      (arrives : conn.socket.incoming = chunk :: later) :
      Steps zlib ⟨conn, state, .outer⟩
        ⟨{ conn with
          socket := { conn.socket with incoming := later },
          decoder := rest.feed chunk.bytes }, state, .outer⟩

variable {conn : ServerConnection} {next reader : Reader} {state : WindowState} {frame : Frame} {zlib : Zlib}

private theorem finish_go (steps : finish conn state = .go next) :
    state.windowRemaining ≠ some 0 ∧ next = ⟨conn, state, .outer⟩ := by
  unfold finish at steps
  split at steps
  · cases steps
  · rename_i unfinished
    cases steps
    exact ⟨unfinished, rfl⟩

private theorem takeInnerFrame_go {batch : FrameDecoder}
    (steps : takeInnerFrame conn state batch frame = .go next) :
    ∃ after, Accepted conn.limits state (some frame) after ∧ next = ⟨conn, after, .inner batch⟩ := by
  -- Inside a batch only events and legacy frames are accepted.
  cases frame with
  | json seq payload =>
    simp only [takeInnerFrame] at steps
    cases recorded : state.recordEvent conn.limits seq payload with
    | error error => simp [recorded] at steps
    | ok after =>
      simp only [recorded, Transition.go.injEq] at steps
      exact ⟨after, .recorded seq payload recorded, steps.symm⟩
  | unknown frameType raw =>
    simp only [takeInnerFrame] at steps
    cases consumed : state.consumeSlot with
    | error error => simp [consumed] at steps
    | ok after =>
      simp only [consumed, Transition.go.injEq] at steps
      exact ⟨after, .skipped frameType raw consumed, steps.symm⟩
  | window | compressed | ack => cases steps

private theorem takeFrame_go (steps : takeFrame conn state frame = .go next) :
    (∃ after, Accepted conn.limits state (some frame) after ∧
      after.windowRemaining ≠ some 0 ∧ next = ⟨conn, after, .outer⟩) ∨
    (∃ decompressed, frame = .compressed decompressed ∧ next = ⟨conn, state,
      .inner ((FrameDecoder.withMaxFramePayload conn.maxFramePayload).feed decompressed)⟩) := by
  -- A declaration opens, a data frame fills a slot, and a batch only moves the reader.
  cases frame with
  | window count =>
    simp only [takeFrame] at steps
    split at steps
    · cases steps
    rename_i closed
    simp only [checkDeclaredWindow] at steps
    by_cases large : count.toNat > conn.limits.maxWindowEvents.toNat
    · simp [if_pos large] at steps
    · simp only [if_neg large] at steps
      split at steps
      · cases steps
      rename_i positive
      cases steps
      exact .inl ⟨_, .opened count (by simpa using closed) (by omega), by simpa using positive, rfl⟩
  | json seq payload =>
    simp only [takeFrame] at steps
    cases recorded : state.recordEvent conn.limits seq payload with
    | error error => simp [recorded] at steps
    | ok after =>
      rw [recorded] at steps
      obtain ⟨unfinished, reached⟩ := finish_go steps
      exact .inl ⟨after, .recorded seq payload recorded, unfinished, reached⟩
  | compressed decompressed =>
    cases steps
    exact .inr ⟨decompressed, rfl, rfl⟩
  | unknown frameType raw =>
    simp only [takeFrame] at steps
    cases consumed : state.consumeSlot with
    | error error => simp [consumed] at steps
    | ok after =>
      rw [consumed] at steps
      obtain ⟨unfinished, reached⟩ := finish_go steps
      exact .inl ⟨after, .skipped frameType raw consumed, unfinished, reached⟩
  | ack seq => cases steps

private theorem receive_go (steps : receive conn state = .go next) :
    ∃ chunk later, conn.socket.incoming = chunk :: later ∧ next = ⟨{ conn with
        socket := { conn.socket with incoming := later },
        decoder := conn.decoder.feed chunk.bytes }, state, .outer⟩ := by
  unfold receive Socket.read at steps
  cases arrives : conn.socket.incoming with
  | nil =>
    -- At the end of the stream, and after a failure, the call returns.
    simp only [arrives] at steps
    cases closing : conn.socket.closing with
    | eof =>
      simp only [closing] at steps
      split at steps <;> cases steps
    | failed error => simp [closing] at steps
  | cons chunk later =>
    simp only [arrives] at steps
    rcases chunk with ⟨_ | ⟨byte, bytes⟩, nonempty, within⟩
    · exact absurd rfl nonempty
    · cases steps
      exact ⟨_, later, rfl, rfl⟩

/-- A step that goes on is one of the five. -/
theorem step_go (steps : reader.step zlib = .go next) : Steps zlib reader next := by
  obtain ⟨conn, state, position⟩ := reader
  cases position with
  | inner batch =>
    simp only [step] at steps
    rcases called : batch.nextFrame zlib with ⟨error | _ | frame, rest⟩
    · simp [called] at steps
    · simp only [called] at steps
      obtain ⟨unfinished, rfl⟩ := finish_go steps
      exact .leaveBatch called unfinished
    · simp only [called] at steps
      obtain ⟨after, accepted, rfl⟩ := takeInnerFrame_go steps
      exact .fromBatch called accepted
  | outer =>
    simp only [step] at steps
    rcases called : conn.decoder.nextFrame zlib with ⟨error | _ | frame, rest⟩
    · simp [called] at steps
    · simp only [called] at steps
      obtain ⟨chunk, later, arrives, rfl⟩ := receive_go steps
      exact .received called arrives
    · simp only [called] at steps
      rcases takeFrame_go steps with ⟨after, accepted, unfinished, rfl⟩ | ⟨decompressed, rfl, rfl⟩
      · exact .fromConnection called accepted unfinished
      · exact .enterBatch called

/--
How far a reader is from returning, at most.

Bytes still to be parsed weigh more than any batch one of them can open.
-/
def measure (reader : Reader) : Nat :=
  (reader.connection.decoder.pending + reader.connection.socket.undelivered.length) *
      (reader.connection.decoder.maxFramePayload.toNat + 2) +
    reader.connection.socket.incoming.length +
    match reader.position with
    | .outer => 0
    | .inner batch => batch.pending + 1

/-- A frame taken off the connection makes room for the largest batch and more. -/
theorem pending_weight {dec rest : FrameDecoder}
    (next : dec.nextFrame zlib = (.ok (some frame), rest)) (undelivered : Nat) :
    (rest.pending + undelivered) * (rest.maxFramePayload.toNat + 2) + (dec.maxFramePayload.toNat + 2) ≤
      (dec.pending + undelivered) * (dec.maxFramePayload.toNat + 2) := by
  have shorter := nextFrame_pending_lt next
  obtain ⟨size, _, rfl⟩ := nextFrame_frame next
  rw [advance_maxFramePayload] at *
  generalize dec.maxFramePayload.toNat + 2 = weight
  -- One byte fewer is one weight less.
  calc ((dec.advance size).pending + undelivered) * weight + weight
      = ((dec.advance size).pending + undelivered + 1) * weight := (Nat.succ_mul _ _).symm
    _ ≤ (dec.pending + undelivered) * weight := Nat.mul_le_mul_right weight (by omega)

/-- No step that goes on repeats or raises the measure. -/
theorem measure_lt (steps : reader.step zlib = .go next) : next.measure < reader.measure := by
  cases step_go steps with
  | fromBatch taken accepted =>
    have shorter := nextFrame_pending_lt taken
    simp only [measure]
    omega
  | leaveBatch taken unfinished =>
    simp only [measure]
    omega
  | @fromConnection conn before after rest frame taken accepted unfinished =>
    have room := pending_weight taken conn.socket.undelivered.length
    simp only [measure]
    omega
  | @enterBatch conn state rest decompressed taken =>
    have room := pending_weight taken conn.socket.undelivered.length
    obtain ⟨size, parsed, _⟩ := nextFrame_frame taken
    have fits : decompressed.length ≤ conn.decoder.maxFramePayload.toNat := parseFrame_fits parsed
    have fed : ((FrameDecoder.withMaxFramePayload conn.maxFramePayload).feed
        decompressed).pending = decompressed.length := by
      rw [← pendingBytes_length, feed_pendingBytes]
      simp
    simp only [measure, fed]
    omega
  | @received conn state rest chunk later taken arrives =>
    -- The bytes of the chunk only move from the socket to the decoder.
    have unchanged : rest = conn.decoder := by
      have kept := nextFrame_keeps zlib conn.decoder (by simp [taken])
      rw [taken] at kept
      exact kept
    subst unchanged
    have moved : (conn.decoder.feed chunk.bytes).pending =
        conn.decoder.pending + chunk.bytes.length := by
      rw [← pendingBytes_length, feed_pendingBytes, List.length_append, pendingBytes_length]
    have delivered : conn.socket.undelivered.length =
        chunk.bytes.length + ((later.map Chunk.bytes).flatten).length := by
      simp [Socket.undelivered, arrives]
    have fewer : conn.socket.incoming.length = later.length + 1 := by simp [arrives]
    simp only [measure, moved, delivered, fewer, feed_maxFramePayload]
    simp only [Socket.undelivered, Nat.add_assoc]
    omega

/-- The call that reads a window, as a machine. -/
def machine (zlib : Zlib) : Machine Reader ReadResult where
  step := step zlib
  measure := measure
  decreases := measure_lt

/-- A reader whose next step halts returns that step's result. -/
theorem run_halt {result : ReadResult} (halts : reader.step zlib = .halt result) :
    (machine zlib).run reader = result :=
  Machine.run_halt halts

/-- A reader returns what the reader after its next step returns. -/
theorem run_go (steps : reader.step zlib = .go next) : (machine zlib).run reader = (machine zlib).run next :=
  Machine.run_go steps

end Reader

namespace ServerConnection

/-- Read the next complete window of events. -/
def readWindow (zlib : Zlib) (conn : ServerConnection) : ReadResult :=
  (Reader.machine zlib).run ⟨conn, .start, .outer⟩

/-- Send an ack that references a sequence number. -/
def sendAck (conn : ServerConnection) (seq : UInt32) :
    Except ProtocolError Unit × ServerConnection :=
  match conn.socket.writeAll (encodeAck seq) with
  | (.error error, socket) => (.error (.io error), { conn with socket := socket })
  | (.ok (), socket) =>
    match socket.flush with
    | (.error error, socket) => (.error (.io error), { conn with socket := socket })
    | (.ok (), socket) => (.ok (), { conn with socket := socket })

/-- Read the next window and ack its last sequence number. -/
def readAndAck (zlib : Zlib) (conn : ServerConnection) : ReadResult :=
  match conn.readWindow zlib with
  | (.error error, after) => (.error error, after)
  | (.ok none, after) => (.ok none, after)
  | (.ok (some window), after) =>
    match after.sendAck window.lastSeq with
    | (.error error, acked) => (.error error, acked)
    | (.ok (), acked) => (.ok (some window), acked)

end ServerConnection

end FerroProtocols.Lumberjack
