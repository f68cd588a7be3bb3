import FerroProtocols.Lumberjack.Accounting
import FerroProtocols.Lumberjack.WindowStream

/-! Which streams end in a clean close, when windows are read until none is returned. -/

namespace FerroProtocols.Lumberjack

open StreamConfig

/-- What reading windows until none is returned has brought, and how it ended. -/
structure Session where
  windows : List Window
  -- A clean close, or the error that ended the reading.
  ending : Except ProtocolError Unit
  connection : ServerConnection

/-- What reading a whole stream brings, and the bytes it leaves. -/
structure StreamSession where
  windows : List Window
  ending : Except ProtocolError Unit
  rest : Bytes

/-- The session with a window read before it. -/
def StreamSession.cons (window : Window) (later : StreamSession) : StreamSession :=
  ⟨window :: later.windows, later.ending, later.rest⟩

namespace StreamConfig

variable {zlib : Zlib} {config : StreamConfig} {stream : Bytes}

private theorem readStream_shorter {window : Window} : ∀ (state : WindowState) (stream : Bytes) {rest : Bytes},
    config.readStream zlib state stream = (.ok (some window), rest) → rest.length < stream.length := by
  intro state stream
  induction size : stream.length using Nat.strongRecOn generalizing state stream with
  | _ length ih =>
    intro rest read
    cases verdict : parseFrame zlib config.frameCap stream with
    | needMore =>
      -- The end of a stream never returns a window.
      rw [readStream_needMore verdict] at read
      simp only [atEnd] at read
      split at read
      · simp at read
      · grind
    | failed error =>
      rw [readStream_failed verdict] at read
      simp at read
    | item frame width =>
      have sized := parseFrame_sized verdict
      have dropped : (stream.drop width).length = stream.length - width := List.length_drop
      rw [readStream_item verdict] at read
      cases accepted : config.acceptFrame zlib state frame with
      | error error => simp [accepted] at read
      | ok progress =>
        cases progress with
        | complete found => grind
        | going after =>
          simp only [accepted] at read
          have shorter := ih _ (by omega) after (stream.drop width) rfl read
          omega

/-- Read windows off a stream until none is returned, from a state on. -/
def streamWindows (zlib : Zlib) (config : StreamConfig) (state : WindowState) (stream : Bytes) :
    StreamSession :=
  match _parsed : parseFrame zlib config.frameCap stream with
  | .needMore => ⟨[], (config.atEnd state).map fun _ => (), stream⟩
  | .failed error => ⟨[], .error (.codec error), stream⟩
  | .item frame size =>
    match config.acceptFrame zlib state frame with
    | .error error => ⟨[], .error error, stream.drop size⟩
    | .ok (.complete window) =>
      -- The next call starts with a fresh window.
      (streamWindows zlib config .start (stream.drop size)).cons window
    | .ok (.going after) => streamWindows zlib config after (stream.drop size)
termination_by stream.length
decreasing_by
  all_goals
    have sized := parseFrame_sized _parsed
    rw [List.length_drop]
    omega

/-- Reading a stream takes the frame on the front first. -/
theorem streamWindows_item {frame : Frame}
    {size : Nat} (parsed : parseFrame zlib config.frameCap stream = .item frame size) (state : WindowState) :
    config.streamWindows zlib state stream = match config.acceptFrame zlib state frame with
      | .error error => ⟨[], .error error, stream.drop size⟩
      | .ok (.complete window) => (config.streamWindows zlib .start (stream.drop size)).cons window
      | .ok (.going after) => config.streamWindows zlib after (stream.drop size) := by
  rw [streamWindows]
  split <;> simp_all

private theorem streamWindows_failed
    {error : FrameError} (parsed : parseFrame zlib config.frameCap stream = .failed error) (state : WindowState) :
    config.streamWindows zlib state stream = ⟨[], .error (.codec error), stream⟩ := by
  rw [streamWindows]
  split <;> simp_all

/-- Reading a stream stops where no whole frame is left. -/
theorem streamWindows_needMore (parsed : parseFrame zlib config.frameCap stream = .needMore) (state : WindowState) :
    config.streamWindows zlib state stream = ⟨[], (config.atEnd state).map fun _ => (), stream⟩ := by
  rw [streamWindows]
  split <;> simp_all

/-- The windows of a stream are read one after the other. -/
theorem streamWindows_eq (zlib : Zlib) (config : StreamConfig) (state : WindowState) (stream : Bytes) :
    config.streamWindows zlib state stream = match config.readStream zlib state stream with
      | (.ok (some window), rest) => (config.streamWindows zlib .start rest).cons window
      | (.ok none, rest) => ⟨[], .ok (), rest⟩
      | (.error error, rest) => ⟨[], .error error, rest⟩ := by
  induction size : stream.length using Nat.strongRecOn generalizing state stream with
  | _ length ih =>
    -- Both readers look at the first frame, and go on behind it unless it completes a window.
    cases verdict : parseFrame zlib config.frameCap stream with
    | needMore =>
      rw [streamWindows_needMore verdict, readStream_needMore verdict]
      simp only [atEnd]
      cases config.closing with
      | failed error => rfl
      | eof =>
        dsimp only
        split <;> rfl
    | failed error => rw [streamWindows_failed verdict, readStream_failed verdict]
    | item frame width =>
      have sized := parseFrame_sized verdict
      have dropped : (stream.drop width).length = stream.length - width := List.length_drop
      rw [streamWindows_item verdict, readStream_item verdict]
      cases accepted : config.acceptFrame zlib state frame with
      | error error => rfl
      | ok progress =>
        cases progress with
        | complete window => rfl
        | going after => exact ih _ (by omega) after (stream.drop width) rfl

end StreamConfig

namespace ServerConnection

variable {zlib : Zlib} {conn after : ServerConnection}

private theorem readWindow_shorter {window : Window}
    (returned : conn.readWindow zlib = (.ok (some window), after)) :
    after.stream.length < conn.stream.length := by
  obtain ⟨result, rest, _⟩ := conn.readWindow_eq zlib
  rw [returned] at result rest
  rw [show after.stream = _ from rest]
  exact readStream_shorter .start conn.stream (Prod.ext result.symm rfl)

/-- Read windows until a call returns none. -/
def readWindows (zlib : Zlib) (conn : ServerConnection) : Session :=
  match _returned : conn.readWindow zlib with
  | (.ok (some window), after) =>
    let later := after.readWindows zlib
    ⟨window :: later.windows, later.ending, later.connection⟩
  | (.ok none, after) => ⟨[], .ok (), after⟩
  | (.error error, after) => ⟨[], .error error, after⟩
termination_by conn.stream.length
decreasing_by exact readWindow_shorter _returned

private theorem readWindows_window {window : Window}
    (returned : conn.readWindow zlib = (.ok (some window), after)) :
    conn.readWindows zlib = ⟨window :: (after.readWindows zlib).windows,
      (after.readWindows zlib).ending, (after.readWindows zlib).connection⟩ := by
  rw [readWindows]
  split <;> simp_all

private theorem readWindows_none (returned : conn.readWindow zlib = (.ok none, after)) :
    conn.readWindows zlib = ⟨[], .ok (), after⟩ := by
  rw [readWindows]
  split <;> simp_all

private theorem readWindows_error
    {error : ProtocolError} (returned : conn.readWindow zlib = (.error error, after)) :
    conn.readWindows zlib = ⟨[], .error error, after⟩ := by
  rw [readWindows]
  split <;> simp_all

/-- Reading windows off a connection reads its stream, and leaves what the stream leaves. -/
theorem readWindows_eq (zlib : Zlib) (conn : ServerConnection) : (conn.readWindows zlib).windows =
        (conn.config.streamWindows zlib .start conn.stream).windows ∧ (conn.readWindows zlib).ending =
        (conn.config.streamWindows zlib .start conn.stream).ending ∧
      (conn.readWindows zlib).connection.stream =
        (conn.config.streamWindows zlib .start conn.stream).rest := by
  induction size : conn.stream.length using Nat.strongRecOn generalizing conn with
  | _ length ih =>
    -- Each call reads one window of the stream; the induction is on the bytes it leaves.
    obtain ⟨result, rest, sameConfig⟩ := conn.readWindow_eq zlib
    rw [streamWindows_eq]
    rcases returned : conn.readWindow zlib with ⟨error | _ | window, after⟩
    · rw [returned] at result rest
      have read : conn.config.readStream zlib .start conn.stream =
          (.error error, after.stream) := Prod.ext result.symm rest.symm
      rw [readWindows_error returned, read]
      exact ⟨rfl, rfl, rfl⟩
    · rw [returned] at result rest
      have read : conn.config.readStream zlib .start conn.stream =
          (.ok none, after.stream) := Prod.ext result.symm rest.symm
      rw [readWindows_none returned, read]
      exact ⟨rfl, rfl, rfl⟩
    · have shorter := readWindow_shorter returned
      rw [returned] at result rest sameConfig
      obtain ⟨windows, ending, remains⟩ := ih _ (by omega) after rfl
      rw [show after.config = conn.config from sameConfig] at windows ending remains
      have read : conn.config.readStream zlib .start conn.stream =
          (.ok (some window), after.stream) := Prod.ext result.symm rest.symm
      rw [readWindows_window returned, read]
      exact ⟨congrArg (List.cons window) windows, ending, remains⟩

end ServerConnection

/-- Accepting whole frames off the front of a stream leaves these bytes, and this state. -/
inductive Consumed (zlib : Zlib) (config : StreamConfig) (stream : Bytes) :
    Bytes → WindowState → Prop where
  | nothing : Consumed zlib config stream stream .start
  -- A frame that leaves its window open, or that comes before any window.
  | going {rest : Bytes} {before after : WindowState} {frame : Frame} {size : Nat}
      (earlier : Consumed zlib config stream rest before)
      (parsed : parseFrame zlib config.frameCap rest = .item frame size)
      (accepted : config.acceptFrame zlib before frame = .ok (.going after)) :
      Consumed zlib config stream (rest.drop size) after
  -- A frame that completes its window.
  | complete {rest : Bytes} {before : WindowState} {frame : Frame} {size : Nat} {window : Window}
      (earlier : Consumed zlib config stream rest before)
      (parsed : parseFrame zlib config.frameCap rest = .item frame size)
      (accepted : config.acceptFrame zlib before frame = .ok (.complete window)) :
      Consumed zlib config stream (rest.drop size) .start

/-- Complete windows, and nothing else but empty batches, leave these bytes of a stream. -/
def WindowsLeave (zlib : Zlib) (config : StreamConfig) (stream rest : Bytes) : Prop :=
  ∃ state, Consumed zlib config stream rest state ∧ state.windowRemaining = none

/-- The stream breaks off inside a frame that follows complete windows. -/
def BreaksOffBetweenWindows (zlib : Zlib) (config : StreamConfig) (stream : Bytes) : Prop :=
  ∃ tail, WindowsLeave zlib config stream tail ∧ tail ≠ [] ∧
    parseFrame zlib config.frameCap tail = .needMore

private theorem StreamConfig.acceptInner_open (config : StreamConfig) {before after : WindowState}
    (frame : Frame) (accepted : config.acceptInner before frame = .ok after) : after.windowRemaining ≠ none := by
  cases frame with
  | json seq payload =>
    simp only [acceptInner, WindowState.recordEvent] at accepted
    -- Every way past the guards leaves a counter behind.
    split at accepted
    · cases accepted
    split at accepted
    · cases accepted
    split at accepted
    · cases accepted
    split at accepted <;> cases accepted
    simp
  | unknown frameType raw =>
    simp only [acceptInner, WindowState.consumeSlot] at accepted
    split at accepted
    · cases accepted
    split at accepted <;> cases accepted
    simp
  | window | compressed | ack => cases accepted

variable {config : StreamConfig}

private theorem StreamConfig.acceptBatch_open : ∀ {frames : List Frame}
    {before after : WindowState}, config.acceptBatch before frames = .ok after →
    after = before ∨ after.windowRemaining ≠ none := by
  intro frames
  -- A batch without frames leaves the window alone; any frame in it needs an open one.
  induction frames with
  | nil =>
    intro before after accepted
    cases accepted
    exact .inl rfl
  | cons frame rest ih =>
    intro before after accepted
    simp only [acceptBatch] at accepted
    cases first : config.acceptInner before frame with
    | error error => simp [first] at accepted
    | ok middle =>
      simp only [first] at accepted
      rcases ih accepted with same | isOpen
      · rw [same]
        exact .inr (config.acceptInner_open frame first)
      · exact .inr isOpen

private theorem StreamConfig.acceptFrame_open {zlib : Zlib} {before after : WindowState} {frame : Frame}
    (accepted : config.acceptFrame zlib before frame = .ok (.going after)) :
    after = before ∨ after.windowRemaining ≠ none := by
  have settled : ∀ {state : WindowState}, settle state = .going after → after = state := by
    intro state going
    unfold settle at going
    split at going <;> cases going
    rfl
  -- A frame that is accepted opens a window or fills one of its slots.
  cases frame with
  | window count =>
    simp only [acceptFrame] at accepted
    split at accepted
    · cases accepted
    split at accepted
    · cases accepted
    split at accepted <;> cases accepted
    exact .inr (by simp)
  | json seq payload =>
    simp only [acceptFrame] at accepted
    cases recorded : before.recordEvent config.limits seq payload with
    | error error => simp [recorded] at accepted
    | ok middle =>
      simp only [recorded, Except.ok.injEq] at accepted
      rw [settled accepted]
      exact .inr (config.acceptInner_open (.json seq payload) recorded)
  | compressed decompressed =>
    simp only [acceptFrame, acceptDrained] at accepted
    split at accepted
    · cases accepted
    rename_i middle batch
    split at accepted
    · cases accepted
    · simp only [Except.ok.injEq] at accepted
      rw [settled accepted]
      exact acceptBatch_open batch
  | unknown frameType raw =>
    simp only [acceptFrame] at accepted
    cases consumed : before.consumeSlot with
    | error error => simp [consumed] at accepted
    | ok middle =>
      simp only [consumed, Except.ok.injEq] at accepted
      rw [settled accepted]
      exact .inr (config.acceptInner_open (.unknown frameType raw) consumed)
  | ack seq => cases accepted

namespace Consumed

variable {zlib : Zlib} {config : StreamConfig} {stream : Bytes}

variable {rest : Bytes} {state : WindowState}

private theorem streamWindows_eq (consumed : Consumed zlib config stream rest state) :
    (config.streamWindows zlib .start stream).ending = (config.streamWindows zlib state rest).ending ∧
      (config.streamWindows zlib .start stream).rest = (config.streamWindows zlib state rest).rest := by
  induction consumed with
  | nothing => exact ⟨rfl, rfl⟩
  | going _ parsed accepted ih | complete _ parsed accepted ih =>
    rw [ih.1, ih.2, streamWindows_item parsed, accepted]
    exact ⟨rfl, rfl⟩

private theorem start_of_closed (consumed : Consumed zlib config stream rest state)
    (closed : state.windowRemaining = none) : state = .start := by
  induction consumed with
  | nothing | complete => rfl
  | going earlier parsed accepted ih =>
    rcases acceptFrame_open accepted with rfl | isOpen
    · exact ih closed
    · exact absurd closed isOpen

private theorem of_clean (consumed : Consumed zlib config stream rest state)
    (clean : (config.streamWindows zlib state rest).ending = .ok ()) :
    WindowsLeave zlib config stream (config.streamWindows zlib state rest).rest ∧
      parseFrame zlib config.frameCap (config.streamWindows zlib state rest).rest = .needMore := by
  -- Each accepted frame shortens what is left, until the end of the stream is judged.
  induction size : rest.length using Nat.strongRecOn generalizing rest state with
  | _ length ih =>
    cases verdict : parseFrame zlib config.frameCap rest with
    | needMore =>
      rw [streamWindows_needMore verdict] at clean ⊢
      refine ⟨⟨state, consumed, ?_⟩, verdict⟩
      simp only [StreamConfig.atEnd] at clean
      split at clean
      · cases clean
      · split at clean
        · rename_i closed
          simpa using closed.1
        · cases clean
    | failed error =>
      rw [streamWindows_failed verdict] at clean
      cases clean
    | item frame width =>
      have sized := parseFrame_sized verdict
      have dropped : (rest.drop width).length = rest.length - width := List.length_drop
      rw [streamWindows_item verdict] at clean ⊢
      cases accepted : config.acceptFrame zlib state frame with
      | error error => simp [accepted] at clean
      | ok progress =>
        cases progress with
        | complete window =>
          simp only [accepted] at clean ⊢
          exact ih _ (by omega) (consumed.complete verdict accepted) clean rfl
        | going after =>
          simp only [accepted] at clean ⊢
          exact ih _ (by omega) (consumed.going verdict accepted) clean rfl

end Consumed

namespace Reader

variable {conn after : ServerConnection} {state : WindowState}

private theorem takeFrame_ne_none {frame : Frame} : takeFrame conn state frame ≠ .halt (.ok none, after) := by
  intro halts
  -- A close is reported only when bytes are asked for, and a frame asks for none.
  cases frame with
  | window count =>
    simp only [takeFrame] at halts
    split at halts
    · simp at halts
    cases checked : checkDeclaredWindow count conn.limits.maxWindowEvents with
    | error error => simp [checked] at halts
    | ok _ => grind
  | json seq payload =>
    simp only [takeFrame, finish] at halts
    cases recorded : state.recordEvent conn.limits seq payload with
    | error error => simp [recorded] at halts
    | ok filled => grind
  | compressed decompressed => cases halts
  | unknown frameType raw =>
    simp only [takeFrame, finish] at halts
    cases consumed : state.consumeSlot with
    | error error => simp [consumed] at halts
    | ok filled => grind
  | ack seq => simp [takeFrame] at halts

private theorem step_inner_ne_none {zlib : Zlib} {batch : FrameDecoder} :
    step zlib ⟨conn, state, .inner batch⟩ ≠ .halt (.ok none, after) := by
  intro halts
  simp only [step] at halts
  rcases called : batch.nextFrame zlib with ⟨error | _ | frame, rest⟩
  · simp [called] at halts
  · simp only [called, finish] at halts
    split at halts <;> simp at halts
  · simp only [called, takeInnerFrame_eq] at halts
    cases accepted : conn.config.acceptInner state frame <;> simp [accepted] at halts

private theorem step_none {zlib : Zlib} {reader : Reader}
    (halts : reader.step zlib = .halt (.ok none, after)) : after.socket.incoming = [] := by
  obtain ⟨conn, state, position⟩ := reader
  cases position with
  | inner batch => exact absurd halts step_inner_ne_none
  | outer =>
    simp only [step] at halts
    rcases called : conn.decoder.nextFrame zlib with ⟨error | _ | frame, rest⟩
    · simp [called] at halts
    · simp only [called, receive, Socket.read] at halts
      -- Only the end of the stream is a close; a chunk that arrives is never empty.
      cases arrives : conn.socket.incoming with
      | nil =>
        cases closing : conn.socket.closing with
        | eof =>
          simp only [arrives, closing] at halts
          split at halts
          · grind
          · simp at halts
        | failed error => simp [arrives, closing] at halts
      | cons chunk later =>
        rcases chunk with ⟨_ | ⟨byte, bytes⟩, nonempty, within⟩
        · exact absurd rfl nonempty
        · simp [arrives] at halts
    · simp only [called] at halts
      exact absurd halts takeFrame_ne_none

end Reader

namespace ServerConnection

private theorem readWindows_clean_stream {zlib : Zlib} {conn : ServerConnection}
    (clean : (conn.readWindows zlib).ending = .ok ()) : (conn.readWindows zlib).connection.stream =
      (conn.readWindows zlib).connection.decoder.pendingBytes := by
  induction size : conn.stream.length using Nat.strongRecOn generalizing conn with
  | _ length ih =>
    rcases returned : conn.readWindow zlib with ⟨error | _ | window, after⟩
    · rw [readWindows_error returned] at clean
      cases clean
    · -- The call that reported the close had nothing left to deliver.
      obtain ⟨last, _, halts⟩ := Machine.exists_halt (Reader.machine zlib) ⟨conn, .start, .outer⟩
      have exhausted := Reader.step_none (halts.trans (congrArg Transition.halt returned))
      rw [readWindows_none returned]
      simp [stream, Socket.undelivered, exhausted]
    · have shorter := readWindow_shorter returned
      rw [readWindows_window returned] at clean ⊢
      exact ih _ (by omega) clean rfl

/--
A clean close leaves nothing unconsumed exactly when the stream does not break off between windows.

Otherwise the beginning of a frame stays in the decoder and the close is reported as clean all the same.
-/
theorem clean_close_consumed_iff (zlib : Zlib) (chunks : List Chunk) (cap : UInt64) (limits : WindowLimits) :
    (((Listener.accept ⟨chunks, .eof, [], []⟩ cap limits).readWindows zlib).ending = .ok () →
      ((Listener.accept ⟨chunks, .eof, [], []⟩ cap limits).readWindows zlib).connection.decoder.pendingBytes = [] ∧
      WindowsLeave zlib ⟨cap, cap, limits, .eof⟩ (chunks.map Chunk.bytes).flatten []) ↔
    ¬ BreaksOffBetweenWindows zlib ⟨cap, cap, limits, .eof⟩ (chunks.map Chunk.bytes).flatten := by
  obtain ⟨_, ending, rest⟩ :=
    readWindows_eq zlib (Listener.accept ⟨chunks, .eof, [], []⟩ cap limits)
  have config : (Listener.accept ⟨chunks, .eof, [], []⟩ cap limits).config =
      ⟨cap, cap, limits, .eof⟩ := rfl
  have stream : (Listener.accept ⟨chunks, .eof, [], []⟩ cap limits).stream =
      (chunks.map Chunk.bytes).flatten := rfl
  rw [config, stream] at ending rest
  constructor
  · -- Reading on from the break stops there at once, with the broken frame left over.
    rintro consumed ⟨tail, ⟨state, windows, closed⟩, nonempty, broken⟩
    obtain ⟨endsThere, leavesThere⟩ := windows.streamWindows_eq
    rw [streamWindows_needMore broken] at endsThere leavesThere
    have clean : ((Listener.accept ⟨chunks, .eof, [], []⟩ cap limits).readWindows zlib).ending =
        .ok () := by
      rw [ending, endsThere, windows.start_of_closed closed]
      rfl
    have left := readWindows_clean_stream clean
    rw [rest, leavesThere, (consumed clean).1] at left
    exact nonempty left
  · intro unbroken clean
    rw [ending] at clean
    obtain ⟨windows, stopped⟩ := Consumed.of_clean .nothing clean
    have left := readWindows_clean_stream (ending.trans clean)
    rw [rest] at left
    -- Whatever is left behind complete windows would be the beginning of a frame.
    by_cases nothing : (StreamConfig.streamWindows zlib ⟨cap, cap, limits, .eof⟩ .start
        (chunks.map Chunk.bytes).flatten).rest = []
    · grind
    · exact absurd ⟨_, windows, nothing, stopped⟩ unbroken

/-- A window of one event, and then four bytes of the next Window frame. -/
def brokenOff : Chunk :=
  ⟨[0x32, 0x57, 0, 0, 0, 1] ++ [0x32, 0x4A, 0, 0, 0, 1, 0, 0, 0, 1, 0x7B] ++ [0x32, 0x57, 0, 0],
    by simp, by decide⟩

/-- The broken-off Window frame is dropped, and the close is reported as clean. -/
theorem clean_close_broken_off : ¬ ∀ (chunks : List Chunk) (cap : UInt64) (limits : WindowLimits),
      ((Listener.accept ⟨chunks, .eof, [], []⟩ cap limits).readWindows noZlib).ending = .ok () →
      ((Listener.accept ⟨chunks, .eof, [], []⟩ cap limits).readWindows
        noZlib).connection.decoder.pendingBytes = [] := by
  intro claimed
  have clean : ((Listener.accept ⟨[brokenOff], .eof, [], []⟩ 64 ⟨8, 64⟩).readWindows
      noZlib).ending = .ok () := by decide +kernel
  have left : ((Listener.accept ⟨[brokenOff], .eof, [], []⟩ 64 ⟨8, 64⟩).readWindows
      noZlib).connection.decoder.pendingBytes = [0x32, 0x57, 0, 0] := by decide +kernel
  rw [claimed [brokenOff] 64 ⟨8, 64⟩ clean] at left
  cases left

end ServerConnection

end FerroProtocols.Lumberjack
