import FerroProtocols.Lumberjack.Server

/-! Reading windows is a function of the bytes not parsed yet, buffered or undelivered. -/

namespace FerroProtocols.Lumberjack

/-- What a reader is configured with, apart from the bytes. -/
structure StreamConfig where
  -- The cap of the connection's decoder.
  frameCap : UInt64
  -- The cap of the decoders of batches.
  batchCap : UInt64
  limits : WindowLimits
  -- What follows the last byte.
  closing : Closing

/-- What accepting a frame leads to. -/
inductive Progress where
  -- The window goes on.
  | going (state : WindowState)
  -- The window is complete.
  | complete (window : Window)

namespace StreamConfig

/-- The window once its last slot is filled. -/
def settle (state : WindowState) : Progress :=
  if state.windowRemaining = some 0 then .complete state.window else .going state

/-- Accept a frame inside a batch. -/
def acceptInner (config : StreamConfig) (state : WindowState) :
    Frame → Except ProtocolError WindowState
  | .json seq payload => state.recordEvent config.limits seq payload
  | .unknown _ _ => state.consumeSlot
  | .window _ => .error (.codec (.unknownFrameType 0))
  | .compressed _ => .error (.codec (.unknownFrameType 0))
  | .ack _ => .error (.codec (.unknownFrameType 0))

/-- Accept the frames of a batch in order. -/
def acceptBatch (config : StreamConfig) :
    WindowState → List Frame → Except ProtocolError WindowState
  | state, [] => .ok state
  | state, frame :: rest =>
    match config.acceptInner state frame with
    | .error error => .error error
    | .ok after => acceptBatch config after rest

/-- Accept what was parsed of a batch: its whole frames, and then the failure behind them. -/
def acceptDrained (config : StreamConfig) (state : WindowState)
    (drained : Drained UInt8 FrameError Frame) : Except ProtocolError Progress :=
  match config.acceptBatch state drained.items with
  | .error error => .error error
  | .ok after =>
    match drained.failure with
    | some error => .error (.codec error)
    -- What is left of a batch behind its last whole frame is dropped.
    | none => .ok (settle after)

/-- Accept a frame of the stream. -/
def acceptFrame (zlib : Zlib) (config : StreamConfig) (state : WindowState) :
    Frame → Except ProtocolError Progress
  -- A second declaration is refused as long as a window is open.
  | .window count =>
    if state.windowRemaining.isSome then .error (.codec (.unknownFrameType frameTypeWindow))
    else
      match checkDeclaredWindow count config.limits.maxWindowEvents with
      | .error error => .error error
      | .ok () =>
        if count = 0 then .ok (.complete ⟨state.events, 0⟩)
        else .ok (.going { state with windowRemaining := some count })
  | .json seq payload =>
    match state.recordEvent config.limits seq payload with
    | .error error => .error error
    | .ok after => .ok (settle after)
  | .compressed decompressed =>
    config.acceptDrained state ((frameParser zlib config.batchCap).drain decompressed)
  -- A legacy frame takes a slot and adds no event.
  | .unknown _ _ =>
    match state.consumeSlot with
    | .error error => .error error
    | .ok after => .ok (settle after)
  | .ack _ => .error (.codec (.unknownFrameType frameTypeAck))

/-- What a reader returns at the end of the stream. -/
def atEnd (config : StreamConfig) (state : WindowState) : Except ProtocolError (Option Window) :=
  match config.closing with
  | .failed error => .error (.io error)
  | .eof =>
    if state.windowRemaining.isNone ∧ state.events.isEmpty then .ok none
    else .error (.io ⟨.unexpectedEof, "lumberjack: peer closed connection mid-window"⟩)

/-- Read a window off the front of a stream, with the bytes that are left. -/
def readStream (zlib : Zlib) (config : StreamConfig) (state : WindowState) (stream : Bytes) :
    Except ProtocolError (Option Window) × Bytes :=
  match _parsed : parseFrame zlib config.frameCap stream with
  | .needMore => (config.atEnd state, stream)
  | .failed error => (.error (.codec error), stream)
  | .item frame size =>
    match config.acceptFrame zlib state frame with
    | .error error => (.error error, stream.drop size)
    | .ok (.complete window) => (.ok (some window), stream.drop size)
    | .ok (.going after) => readStream zlib config after (stream.drop size)
termination_by stream.length
decreasing_by
  have sized := parseFrame_sized _parsed
  rw [List.length_drop]
  omega

variable {config : StreamConfig} {stream : Bytes} {zlib : Zlib}

/-- Reading a window takes the frame on the front first. -/
theorem readStream_item {frame : Frame}
    {size : Nat} (parsed : parseFrame zlib config.frameCap stream = .item frame size) (state : WindowState) :
    config.readStream zlib state stream = match config.acceptFrame zlib state frame with
      | .error error => (.error error, stream.drop size)
      | .ok (.complete window) => (.ok (some window), stream.drop size)
      | .ok (.going after) => config.readStream zlib after (stream.drop size) := by
  rw [readStream]
  split <;> simp_all

/-- Reading fails where the grammar does. -/
theorem readStream_failed {error : FrameError} (parsed : parseFrame zlib config.frameCap stream = .failed error)
    (state : WindowState) : config.readStream zlib state stream = (.error (.codec error), stream) := by
  rw [readStream]
  split <;> simp_all

/-- Reading stops where no whole frame is left. -/
theorem readStream_needMore (parsed : parseFrame zlib config.frameCap stream = .needMore) (state : WindowState) :
    config.readStream zlib state stream = (config.atEnd state, stream) := by
  rw [readStream]
  split <;> simp_all

end StreamConfig

namespace ServerConnection

/-- The configuration of a connection's reader. -/
def config (conn : ServerConnection) : StreamConfig :=
  ⟨conn.decoder.maxFramePayload, conn.maxFramePayload, conn.limits,
    conn.socket.closing⟩

/-- The bytes a connection has not parsed yet. -/
def stream (conn : ServerConnection) : Bytes :=
  conn.decoder.pendingBytes ++ conn.socket.undelivered

end ServerConnection

namespace Reader

open StreamConfig FrameDecoder StreamParser

/-- What a run returns after a verdict on a frame. -/
def afterVerdict (zlib : Zlib) (conn : ServerConnection) :
    Except ProtocolError Progress → ReadResult
  | .error error => (.error error, conn)
  | .ok (.complete window) => (.ok (some window), conn)
  | .ok (.going after) => (machine zlib).run ⟨conn, after, .outer⟩

variable {conn : ServerConnection} {state : WindowState}

private theorem run_finish {zlib : Zlib} {reader : Reader} (stepped : reader.step zlib = finish conn state) :
    (machine zlib).run reader = afterVerdict zlib conn (.ok (settle state)) := by
  unfold finish at stepped
  unfold settle
  split at stepped
  · rename_i filled
    rw [if_pos filled, run_halt stepped]
    rfl
  · rename_i unfinished
    rw [if_neg unfinished, run_go stepped]
    rfl

/-- Taking a frame of a batch is accepting it. -/
theorem takeInnerFrame_eq (conn : ServerConnection) (state : WindowState) (batch : FrameDecoder) (frame : Frame) :
    takeInnerFrame conn state batch frame = match conn.config.acceptInner state frame with
      | .error error => .halt (.error error, conn)
      | .ok after => .go ⟨conn, after, .inner batch⟩ := by
  -- What may stand in a batch is treated alike, and the rest is refused alike.
  cases frame with
  | json seq payload =>
    cases recorded : state.recordEvent conn.limits seq payload <;>
      simp only [takeInnerFrame, acceptInner, ServerConnection.config, recorded]
  | unknown frameType raw =>
    cases consumed : state.consumeSlot <;>
      simp only [takeInnerFrame, acceptInner, consumed]
  | window | compressed | ack => rfl

private theorem run_inner (zlib : Zlib) (conn : ServerConnection) (state : WindowState) (batch : FrameDecoder) :
    (machine zlib).run ⟨conn, state, .inner batch⟩ =
      afterVerdict zlib conn (conn.config.acceptDrained state
        ((frameParser zlib batch.maxFramePayload).drain batch.pendingBytes)) := by
  -- Every frame taken shortens the batch.
  induction size : batch.pending using Nat.strongRecOn generalizing batch state with
  | _ length ih =>
    have called := batch.nextFrame_eq zlib
    cases verdict : parseFrame zlib batch.maxFramePayload batch.pendingBytes with
    | needMore =>
      rw [verdict] at called
      rw [drain_needMore verdict]
      exact run_finish (by simp only [step, called, FrameDecoder.follow])
    | failed error =>
      rw [verdict] at called
      rw [drain_failed verdict, run_halt (by simp only [step, called]; rfl)]
      rfl
    | item frame width =>
      rw [verdict] at called
      have stepped : step zlib ⟨conn, state, .inner batch⟩ =
          takeInnerFrame conn state (batch.advance width) frame := by
        simp only [step, called, FrameDecoder.follow]
      have taken := drain_item (show (frameParser zlib batch.maxFramePayload).step
        batch.pendingBytes = .item frame width from verdict)
      rw [takeInnerFrame_eq] at stepped
      rw [taken]
      cases accepted : conn.config.acceptInner state frame with
      | error error =>
        simp only [accepted] at stepped
        rw [run_halt stepped]
        simp only [acceptDrained, acceptBatch, accepted, afterVerdict]
      | ok after =>
        simp only [accepted] at stepped
        have shorter : (batch.advance width).pending < length := size ▸ nextFrame_pending_lt called
        rw [run_go stepped, ih _ shorter after (batch.advance width) rfl]
        simp only [acceptDrained, acceptBatch, accepted, advance_maxFramePayload, advance_pendingBytes]

private theorem run_takeFrame {zlib : Zlib} {reader : Reader} {frame : Frame}
    (stepped : reader.step zlib = takeFrame conn state frame) : (machine zlib).run reader =
      afterVerdict zlib conn (conn.config.acceptFrame zlib state frame) := by
  cases frame with
  | window count =>
    simp only [takeFrame] at stepped
    simp only [acceptFrame, ServerConnection.config]
    by_cases declared : state.windowRemaining.isSome = true
    · simp only [if_pos declared] at stepped ⊢
      exact run_halt stepped
    · simp only [if_neg declared] at stepped ⊢
      cases checked : checkDeclaredWindow count conn.limits.maxWindowEvents with
      | error error =>
        simp only [checked] at stepped
        exact run_halt stepped
      | ok _ =>
        simp only [checked] at stepped
        by_cases empty : count = 0
        · simp only [if_pos empty] at stepped ⊢
          exact run_halt stepped
        · simp only [if_neg empty] at stepped ⊢
          exact run_go stepped
  | json seq payload =>
    simp only [takeFrame] at stepped
    simp only [acceptFrame, ServerConnection.config]
    cases recorded : state.recordEvent conn.limits seq payload with
    | error error =>
      simp only [recorded] at stepped
      exact run_halt stepped
    | ok after =>
      simp only [recorded] at stepped
      exact run_finish stepped
  | compressed decompressed =>
    -- The batch's own decoder holds exactly the decompressed bytes.
    rw [run_go stepped, run_inner]
    simp [acceptFrame, ServerConnection.config, feed_maxFramePayload,
      withMaxFramePayload_maxFramePayload, feed_pendingBytes, withMaxFramePayload_pendingBytes]
  | unknown frameType raw =>
    simp only [takeFrame] at stepped
    simp only [acceptFrame]
    cases consumed : state.consumeSlot with
    | error error =>
      simp only [consumed] at stepped
      exact run_halt stepped
    | ok after =>
      simp only [consumed] at stepped
      exact run_finish stepped
  | ack seq => exact run_halt stepped

private theorem stream_advance (conn : ServerConnection) {size : Nat}
    (within : size ≤ conn.decoder.pendingBytes.length) :
    ({ conn with decoder := conn.decoder.advance size } : ServerConnection).stream =
      conn.stream.drop size := by
  simp only [ServerConnection.stream, advance_pendingBytes]
  rw [List.drop_append_of_le_length within]

private theorem stream_received (conn : ServerConnection) {chunk : Chunk} {later : List Chunk}
    (arrives : conn.socket.incoming = chunk :: later) : ({ conn with
        socket := { conn.socket with incoming := later },
        decoder := conn.decoder.feed chunk.bytes } : ServerConnection).stream = conn.stream := by
  simp [ServerConnection.stream, Socket.undelivered, arrives]

private theorem receive_exhausted (state : WindowState) (exhausted : conn.socket.incoming = []) :
    receive conn state = .halt (conn.config.atEnd state, conn) := by
  simp only [receive, Socket.read, exhausted, atEnd, ServerConnection.config]
  cases conn.socket.closing with
  | failed error => rfl
  | eof =>
    dsimp only
    split <;> rfl

/-- Running from the connection's frames reads the stream, whatever has been buffered of it. -/
theorem run_outer (zlib : Zlib) (conn : ServerConnection) (state : WindowState) :
    ((machine zlib).run ⟨conn, state, .outer⟩).1 = (conn.config.readStream zlib state conn.stream).1 ∧
      ((machine zlib).run ⟨conn, state, .outer⟩).2.stream =
        (conn.config.readStream zlib state conn.stream).2 ∧
      ((machine zlib).run ⟨conn, state, .outer⟩).2.config = conn.config := by
  induction size : measure ⟨conn, state, .outer⟩ using Nat.strongRecOn
    generalizing conn state with
  | _ bound ih =>
    have called := conn.decoder.nextFrame_eq zlib
    cases verdict : parseFrame zlib conn.decoder.maxFramePayload
        conn.decoder.pendingBytes with
    | needMore =>
      rw [verdict] at called
      have stepped : step zlib ⟨conn, state, .outer⟩ = receive conn state := by
        simp only [step, called, FrameDecoder.follow]
      cases arrives : conn.socket.incoming with
      | nil =>
        -- Nothing will be delivered any more, so the buffered bytes are the stream.
        rw [receive_exhausted state arrives] at stepped
        have whole : conn.stream = conn.decoder.pendingBytes := by
          simp [ServerConnection.stream, Socket.undelivered, arrives]
        have read : conn.config.readStream zlib state conn.stream =
            (conn.config.atEnd state, conn.stream) :=
          readStream_needMore (by rw [whole]; exact verdict) state
        rw [run_halt stepped, read]
        exact ⟨rfl, rfl, rfl⟩
      | cons chunk later =>
        have received : receive conn state = .go ⟨{ conn with
            socket := { conn.socket with incoming := later },
            decoder := conn.decoder.feed chunk.bytes }, state, .outer⟩ := by
          rcases chunk with ⟨_ | ⟨byte, bytes⟩, nonempty, within⟩
          · exact absurd rfl nonempty
          · simp only [receive, Socket.read, arrives]
        rw [received] at stepped
        have lower := measure_lt stepped
        have later := ih _ (size ▸ lower) _ state rfl
        rw [stream_received conn arrives] at later
        rw [run_go stepped]
        simpa [ServerConnection.config] using later
    | failed error =>
      rw [verdict] at called
      have failed : parseFrame zlib conn.config.frameCap conn.stream = .failed error :=
        step_append_failed (show (frameParser zlib _).step _ = _ from verdict) _
      rw [run_halt (by simp only [step, called]; rfl), readStream_failed failed]
      exact ⟨rfl, rfl, rfl⟩
    | item frame width =>
      rw [verdict] at called
      have taken : parseFrame zlib conn.config.frameCap conn.stream =
          .item frame width :=
        step_append_item (show (frameParser zlib _).step _ = _ from verdict) _
      have stepped : step zlib ⟨conn, state, .outer⟩ =
          takeFrame { conn with decoder := conn.decoder.advance width } state frame := by
        simp only [step, called, FrameDecoder.follow]
      have advanced := stream_advance conn (parseFrame_sized verdict).2
      have lighter := pending_weight called conn.socket.undelivered.length
      rw [run_takeFrame stepped, readStream_item taken]
      simp only [show ServerConnection.config
        { conn with decoder := conn.decoder.advance width } = conn.config from rfl]
      cases accepted : conn.config.acceptFrame zlib state frame with
      | error error => exact ⟨rfl, advanced, rfl⟩
      | ok progress =>
        cases progress with
        | complete window => exact ⟨rfl, advanced, rfl⟩
        | going after =>
          have later := ih _ (by rw [← size]; simp only [measure]; omega)
            { conn with decoder := conn.decoder.advance width } after rfl
          rw [advanced] at later
          exact later

end Reader

namespace ServerConnection

/-- Reading a window reads it off the stream, and leaves the rest of the stream. -/
theorem readWindow_eq (zlib : Zlib) (conn : ServerConnection) : (conn.readWindow zlib).1 =
        (conn.config.readStream zlib .start conn.stream).1 ∧ (conn.readWindow zlib).2.stream =
        (conn.config.readStream zlib .start conn.stream).2 ∧
      (conn.readWindow zlib).2.config = conn.config :=
  Reader.run_outer zlib conn .start

end ServerConnection

end FerroProtocols.Lumberjack
