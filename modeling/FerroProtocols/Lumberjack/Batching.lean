import FerroProtocols.Lumberjack.EndToEnd
import FerroProtocols.Lumberjack.RoundTrip

/-! A receiver cannot tell how data frames were put into batches. -/

namespace FerroProtocols.Lumberjack

open StreamConfig

/-- A frame with data: a JSON event or a legacy frame. -/
def Frame.isData : Frame → Bool
  | .json _ _ => true
  | .unknown _ _ => true
  | _ => false

/-- The bytes of one data frame, which can be decoded under a cap. -/
structure DataBytes (zlib : Zlib) (cap : UInt64) where
  bytes : Bytes
  frame : Frame
  decodes : parseFrame zlib cap bytes = .item frame bytes.length
  isData : frame.isData = true

/-- The bytes of data frames, one behind the other. -/
def dataBytes {zlib : Zlib} {cap : UInt64} (data : List (DataBytes zlib cap)) : Bytes := data.flatMap DataBytes.bytes

/-- Some data frames that are sent together: as they are, or as one batch that fits the cap. -/
inductive DataRun (zlib : Zlib) (cap : UInt64) where
  | inline (data : List (DataBytes zlib cap)) (nonempty : data ≠ [])
  | batch (data : List (DataBytes zlib cap)) (nonempty : data ≠ []) (level : UInt32) (encoded : Bytes)
      (stored : encodeCompressed zlib level (dataBytes data) = .ok encoded)
      (small : (dataBytes data).length ≤ cap.toNat) (compressed : encoded.length ≤ 6 + cap.toNat)

namespace DataRun

variable {zlib : Zlib} {cap : UInt64}

/-- The data frames of a run. -/
def data : DataRun zlib cap → List (DataBytes zlib cap)
  | .inline data _ => data
  | .batch data _ _ _ _ _ _ => data

/-- The bytes that are sent for a run. -/
def wire : DataRun zlib cap → Bytes
  | .inline data _ => dataBytes data
  | .batch _ _ _ encoded _ _ _ => encoded

private theorem data_ne_nil (run : DataRun zlib cap) : run.data ≠ [] := by
  cases run with
  | inline _ nonempty | batch _ nonempty => exact nonempty

end DataRun

/-- The frame of some bytes is read whatever follows them. -/
theorem DataBytes.parseFrame_append {zlib : Zlib} {cap : UInt64} (item : DataBytes zlib cap) (back : Bytes) :
    parseFrame zlib cap (item.bytes ++ back) = .item item.frame item.bytes.length :=
  StreamParser.step_append_item (show (frameParser zlib cap).step item.bytes = _ from item.decodes) back

/-- The bytes of data frames are drained into the frames. -/
theorem drain_dataBytes {zlib : Zlib} {cap : UInt64} (data : List (DataBytes zlib cap)) :
    (frameParser zlib cap).drain (dataBytes data) = ⟨data.map DataBytes.frame, none, []⟩ := by
  have pieces :=
    @StreamParser.drain_pieces _ _ _ (frameParser zlib cap) (data.map fun item => (item.bytes, item.frame)) (by
    intro piece member back
    obtain ⟨item, _, rfl⟩ := List.mem_map.mp member
    exact item.parseFrame_append back) []
  have nothing : (frameParser zlib cap).step [] = .needMore := rfl
  rw [StreamParser.drain_needMore nothing] at pieces
  simpa [dataBytes, List.flatMap_map, Function.comp_def] using pieces

namespace StreamConfig

variable {zlib : Zlib} {config : StreamConfig} {state : WindowState}

private theorem acceptBatch_append (first second : List Frame) : config.acceptBatch state (first ++ second) =
    match config.acceptBatch state first with
    | .error error => .error error
    | .ok after => config.acceptBatch after second := by
  induction first generalizing state with
  | nil => rfl
  | cons frame rest ih =>
    simp only [List.cons_append, acceptBatch]
    cases config.acceptInner state frame with
    | error error => rfl
    | ok after => exact ih

private theorem acceptBatch_congr {other : StreamConfig} (same : config.limits = other.limits)
    (frames : List Frame) :
    config.acceptBatch state frames = other.acceptBatch state frames := by
  have inner (state : WindowState) (frame : Frame) : config.acceptInner state frame =
      other.acceptInner state frame := by
    cases frame with
    | json seq payload => rw [acceptInner, acceptInner, same]
    | _ => rfl
  induction frames generalizing state with
  | nil => rfl
  | cons frame rest ih =>
    rw [acceptBatch, acceptBatch, inner]
    split
    · rfl
    · exact ih

/-- A data frame is accepted alike from the connection and from a batch, up to the look whether the window is
complete. -/
theorem acceptFrame_data {frame : Frame} (isData : frame.isData = true) : config.acceptFrame zlib state frame =
    match config.acceptInner state frame with
    | .error error => .error error
    | .ok after => .ok (settle after) := by
  cases frame with
  | json | unknown => rfl
  | window | compressed | ack => cases isData

/-- A data frame takes one open slot, or the window is too large. -/
theorem acceptInner_data {frame : Frame} (isData : frame.isData = true) {remaining : UInt32}
    (isOpen : state.windowRemaining = some remaining) (slot : remaining ≠ 0) :
    (∃ after, config.acceptInner state frame = .ok after ∧ after.windowRemaining = some (remaining - 1)) ∨
      ∃ kind requested limit, config.acceptInner state frame = .error (.windowTooLarge kind requested limit) := by
  cases frame with
  | json seq payload =>
    simp only [acceptInner, WindowState.recordEvent, isOpen, if_neg slot]
    split
    · exact .inr ⟨_, _, _, rfl⟩
    split
    · exact .inr ⟨_, _, _, rfl⟩
    · exact .inl ⟨_, rfl, rfl⟩
  | unknown frameType raw =>
    simp only [acceptInner, WindowState.consumeSlot, isOpen, if_neg slot]
    exact .inl ⟨_, rfl, rfl⟩
  | window | compressed | ack => cases isData

private theorem acceptBatch_data {frames : List Frame} (allData : ∀ frame ∈ frames, frame.isData = true)
    {remaining : UInt32}
    (isOpen : state.windowRemaining = some remaining) (slots : frames.length ≤ remaining.toNat) :
    (∃ after left, config.acceptBatch state frames = .ok after ∧ after.windowRemaining = some left ∧
      left.toNat = remaining.toNat - frames.length) ∨
      ∃ kind requested limit, config.acceptBatch state frames = .error (.windowTooLarge kind requested limit) := by
  induction frames generalizing state remaining with
  | nil => exact .inl ⟨state, remaining, rfl, isOpen, rfl⟩
  | cons frame rest ih =>
    simp only [List.length_cons] at slots
    have slot : remaining ≠ 0 := by
      intro zero
      rw [zero] at slots
      simp at slots
    have lower := toNat_sub_one slot
    simp only [acceptBatch]
    rcases @acceptInner_data config state frame (allData frame List.mem_cons_self) remaining isOpen slot with
      ⟨after, accepted, fewer⟩ | ⟨kind, requested, limit, refused⟩
    · rw [accepted]
      rcases ih (fun other member => allData other (List.mem_cons_of_mem frame member)) fewer (by omega) with
        ⟨last, left, done, isOpen, count⟩ | failed
      · refine .inl ⟨last, left, done, isOpen, ?_⟩
        rw [List.length_cons]
        omega
      · exact .inr failed
    · rw [refused]
      exact .inr ⟨kind, requested, limit, rfl⟩

/-- How reading goes on after data frames. -/
def goOn (zlib : Zlib) (config : StreamConfig) (tail : Bytes) :
    Except ProtocolError WindowState → Except ProtocolError (Option Window)
  | .error error => .error error
  | .ok after =>
    if after.windowRemaining = some 0 then .ok (some after.window) else (config.readStream zlib after tail).1

private theorem readStream_inline (data : List (DataBytes zlib config.frameCap)) {remaining : UInt32}
    (isOpen : state.windowRemaining = some remaining) (slot : remaining ≠ 0) (slots : data.length ≤ remaining.toNat)
    (tail : Bytes) : (config.readStream zlib state (dataBytes data ++ tail)).1 =
      config.goOn zlib tail (config.acceptBatch state (data.map DataBytes.frame)) := by
  induction data generalizing state remaining with
  | nil =>
    have unfilled : state.windowRemaining ≠ some 0 := by
      rw [isOpen]
      exact fun zero => slot (Option.some.inj zero)
    rw [List.map_nil, acceptBatch, goOn, if_neg unfilled]
    rfl
  | cons item rest ih =>
    simp only [List.length_cons] at slots
    have parsed := item.parseFrame_append (dataBytes rest ++ tail)
    have lower := toNat_sub_one slot
    rw [show dataBytes (item :: rest) ++ tail = item.bytes ++ (dataBytes rest ++ tail) by simp [dataBytes],
      readStream_item parsed, List.drop_left, acceptFrame_data item.isData, List.map_cons, acceptBatch]
    rcases @acceptInner_data config state item.frame item.isData remaining isOpen slot with
      ⟨after, accepted, fewer⟩ | ⟨kind, requested, limit, refused⟩
    · rw [accepted]
      by_cases last : remaining - 1 = 0
      · -- The last slot is filled, so there are no further frames.
        have none : rest = [] := by
          rw [last] at lower
          exact List.eq_nil_of_length_eq_zero (by
            have zero : (0 : UInt32).toNat = 0 := rfl
            omega)
        rw [last] at fewer
        simp [settle, fewer, none, acceptBatch, goOn]
      · have unfilled : after.windowRemaining ≠ some 0 := by
          rw [fewer]
          exact fun zero => last (Option.some.inj zero)
        simp only [settle, if_neg unfilled]
        exact ih fewer last (by omega)
    · rw [refused]
      rfl

private theorem readStream_batch (roundTrips : zlib.RoundTrips) (sameCap : config.batchCap = config.frameCap)
    {data : List (DataBytes zlib config.frameCap)} {level : UInt32} {encoded : Bytes}
    (stored : encodeCompressed zlib level (dataBytes data) = .ok encoded)
    (small : (dataBytes data).length ≤ config.frameCap.toNat)
    (compressed : encoded.length ≤ 6 + config.frameCap.toNat)
    (tail : Bytes) : (config.readStream zlib state (encoded ++ tail)).1 =
      config.goOn zlib tail (config.acceptBatch state (data.map DataBytes.frame)) := by
  have parsed := parseFrame_encodeCompressed stored roundTrips small compressed tail
  rw [readStream_item parsed, List.drop_left]
  simp only [acceptFrame, sameCap, drain_dataBytes, acceptDrained]
  cases config.acceptBatch state (data.map DataBytes.frame) with
  | error error => rfl
  | ok after =>
    by_cases filled : after.windowRemaining = some 0
    · simp [settle, goOn, filled]
    · simp [settle, goOn, filled]

/-- A run is read as its frames, whether they are sent one by one or as a batch. -/
private theorem readStream_run (roundTrips : zlib.RoundTrips) (sameCap : config.batchCap = config.frameCap)
    (run : DataRun zlib config.frameCap) {remaining : UInt32} (isOpen : state.windowRemaining = some remaining)
    (slot : remaining ≠ 0) (slots : run.data.length ≤ remaining.toNat) (tail : Bytes) :
    (config.readStream zlib state (run.wire ++ tail)).1 =
      config.goOn zlib tail (config.acceptBatch state (run.data.map DataBytes.frame)) := by
  cases run with
  | inline data nonempty => exact readStream_inline data isOpen slot slots tail
  | batch data nonempty level encoded stored small compressed =>
    exact readStream_batch roundTrips sameCap stored small compressed tail

/-- So are runs one behind the other. -/
private theorem readStream_runs (roundTrips : zlib.RoundTrips) (sameCap : config.batchCap = config.frameCap)
    (runs : List (DataRun zlib config.frameCap)) {remaining : UInt32}
    (isOpen : state.windowRemaining = some remaining)
    (slot : remaining ≠ 0) (slots : (runs.flatMap DataRun.data).length ≤ remaining.toNat) (tail : Bytes) :
    (config.readStream zlib state (runs.flatMap DataRun.wire ++ tail)).1 =
      config.goOn zlib tail (config.acceptBatch state ((runs.flatMap DataRun.data).map DataBytes.frame)) := by
  induction runs generalizing state remaining with
  | nil => exact readStream_inline [] isOpen slot slots tail
  | cons run rest ih =>
    rw [List.flatMap_cons, List.length_append] at slots
    rw [List.flatMap_cons, List.flatMap_cons, List.append_assoc, List.map_append, acceptBatch_append,
      readStream_run roundTrips sameCap run isOpen slot (by omega)]
    have allData : ∀ frame ∈ run.data.map DataBytes.frame, frame.isData = true := by
      intro frame member
      obtain ⟨item, _, rfl⟩ := List.mem_map.mp member
      exact item.isData
    rcases @acceptBatch_data config state _ allData remaining isOpen (by rw [List.length_map]; omega) with
      ⟨after, left, accepted, leftOpen, count⟩ | ⟨kind, requested, limit, refused⟩
    · rw [accepted]
      rw [List.length_map] at count
      by_cases filled : left = 0
      · -- All slots are filled, so there are no further runs: each of them would have a frame.
        have none : rest = [] := by
          cases rest with
          | nil => rfl
          | cons other later =>
            have some : 0 < other.data.length := List.length_pos_iff.mpr other.data_ne_nil
            have zero : (0 : UInt32).toNat = 0 := rfl
            rw [filled, zero] at count
            rw [List.flatMap_cons, List.length_append] at slots
            omega
        rw [filled] at leftOpen
        simp [none, acceptBatch, goOn, leftOpen]
      · have unfilled : after.windowRemaining ≠ some 0 := by
          rw [leftOpen]
          exact fun zero => filled (Option.some.inj zero)
        simp only [goOn, if_neg unfilled]
        exact ih leftOpen filled (by omega)
    · rw [refused]
      rfl

end StreamConfig

section Runs

variable {zlib : Zlib} {cap : UInt64} {limits : WindowLimits}

/-- What reading a window of data frames returns. -/
def windowResult (config : StreamConfig) (count : UInt32) (frames : List Frame) :
    Except ProtocolError (Option Window) :=
  match checkDeclaredWindow count config.limits.maxWindowEvents with
  | .error error => .error error
  | .ok () =>
    match config.acceptBatch ⟨[], some count, 0, 0⟩ frames with
    | .error error => .error error
    | .ok after => .ok (some after.window)

private theorem windowResult_cases (config : StreamConfig) {count : UInt32} {frames : List Frame}
    (allData : ∀ frame ∈ frames, frame.isData = true) (counted : frames.length = count.toNat) :
    (∃ window, windowResult config count frames = .ok (some window)) ∨
      ∃ kind requested limit, windowResult config count frames = .error (.windowTooLarge kind requested limit) := by
  unfold windowResult checkDeclaredWindow
  split
  · rename_i error refused
    split at refused
    · cases refused
      exact .inr ⟨_, _, _, rfl⟩
    · cases refused
  · rcases @acceptBatch_data config ⟨[], some count, 0, 0⟩ frames allData count rfl (Nat.le_of_eq counted) with
      ⟨after, _, accepted, _, _⟩ | ⟨kind, requested, limit, refused⟩
    · rw [accepted]
      exact .inl ⟨_, rfl⟩
    · rw [refused]
      exact .inr ⟨kind, requested, limit, rfl⟩

/-- A window and the runs behind it are read as the data frames of the runs. -/
theorem readStream_window (roundTrips : zlib.RoundTrips) {config : StreamConfig}
    (sameCap : config.batchCap = config.frameCap)
    {count : UInt32} (positive : count ≠ 0) (runs : List (DataRun zlib config.frameCap))
    (counted : (runs.flatMap DataRun.data).length = count.toNat) (tail : Bytes) :
    (config.readStream zlib .start (encodeWindow count ++ (runs.flatMap DataRun.wire ++ tail))).1 =
      windowResult config count ((runs.flatMap DataRun.data).map DataBytes.frame) := by
  rw [readStream_item (parseFrame_encodeWindow zlib config.frameCap count _), drop_encodeWindow]
  simp only [acceptFrame, windowResult, show WindowState.start.windowRemaining = none from rfl, Option.isSome_none,
    Bool.false_eq_true, if_false]
  cases checkDeclaredWindow count config.limits.maxWindowEvents with
  | error error => rfl
  | ok accepted =>
    simp only [if_neg positive]
    rw [show ({ WindowState.start with windowRemaining := some count } : WindowState) =
      ⟨[], some count, 0, 0⟩ from rfl,
      readStream_runs roundTrips sameCap runs rfl positive (Nat.le_of_eq counted)]
    have allData : ∀ frame ∈ (runs.flatMap DataRun.data).map DataBytes.frame, frame.isData = true := by
      intro frame member
      obtain ⟨item, _, rfl⟩ := List.mem_map.mp member
      exact item.isData
    -- After the last frame the window is complete, and nothing more is read.
    rcases @acceptBatch_data config ⟨[], some count, 0, 0⟩ _ allData count rfl (by
        rw [List.length_map]
        exact Nat.le_of_eq counted) with ⟨after, left, accepted, leftOpen, none⟩ | ⟨kind, requested, limit, refused⟩
    · rw [accepted]
      rw [List.length_map, counted, Nat.sub_self] at none
      rw [show left = 0 from UInt32.toNat_inj.mp none] at leftOpen
      simp [goOn, leftOpen]
    · rw [refused]
      rfl

/-- For data frames that fill a window there is one result, a window or the error that it is too large, which
reading returns however the frames are cut into runs, each sent as it is or as a batch, and however the bytes
are cut into chunks. -/
theorem batching_invisible (roundTrips : zlib.RoundTrips) {count : UInt32} (positive : 1 ≤ count)
    {data : List (DataBytes zlib cap)} (counted : data.length = count.toNat) :
    ∃ result : Except ProtocolError (Option Window), ((∃ window, result = .ok (some window)) ∨
        ∃ kind requested limit, result = .error (.windowTooLarge kind requested limit)) ∧
      ∀ (runs : List (DataRun zlib cap)) (chunks : List Chunk) (closing : Closing)
        (faults : List (Option IoError)) (tail : Bytes),
        runs.flatMap DataRun.data = data →
        (chunks.map Chunk.bytes).flatten = encodeWindow count ++ (runs.flatMap DataRun.wire ++ tail) →
        ((Listener.accept ⟨chunks, closing, [], faults⟩ cap limits).readWindow zlib).1 = result := by
  have nonzero : count ≠ 0 := by
    intro zero
    rw [zero] at positive
    exact absurd positive (by decide)
  have allData : ∀ frame ∈ data.map DataBytes.frame, frame.isData = true := by
    intro frame member
    obtain ⟨item, _, rfl⟩ := List.mem_map.mp member
    exact item.isData
  refine ⟨windowResult ⟨cap, cap, limits, .eof⟩ count (data.map DataBytes.frame),
    windowResult_cases _ allData (by rw [List.length_map, counted]), ?_⟩
  intro runs chunks closing faults tail cut delivered
  rw [(ServerConnection.readWindow_eq zlib _).1,
    show (Listener.accept ⟨chunks, closing, [], faults⟩ cap limits).stream =
    (chunks.map Chunk.bytes).flatten from rfl, delivered]
  have read :=
    @readStream_window zlib roundTrips ⟨cap, cap, limits, closing⟩ rfl count nonzero runs (by rw [cut, counted]) tail
  -- What comes after the last byte does not matter.
  rw [cut, windowResult, @acceptBatch_congr ⟨cap, cap, limits, closing⟩ _ ⟨cap, cap, limits, .eof⟩ rfl] at read
  exact read

/-- A JSON event of one byte. -/
def smallData : DataBytes tableZlib 64 := ⟨encodeJsonFrame 2 [0x7B], .json 2 [0x7B], by decide, rfl⟩

/-- A legacy frame without pairs. -/
def legacyData : DataBytes tableZlib 64 := ⟨legacyLayout 3 [], .unknown 0x44 (legacyLayout 3 []), by decide, rfl⟩

/-- A batch of both, and the first one in a batch with the second one as it is, are read alike. -/
theorem batching_invisible_mixed :
    ((ServerConnection.fed (encodeWindow 2 ++ [0x32, 0x43, 0, 0, 0, 24, 120, 94, 51, 242, 98, 96, 96,
      96, 2, 98, 198, 106, 35,
        23, 32, 197, 12, 196, 12, 0, 19, 211, 1, 116]) (by decide) (by decide)).readWindow tableZlib).1 =
      ((ServerConnection.fed (encodeWindow 2 ++ [0x32, 0x43, 0, 0, 0, 17, 120, 94, 51, 242, 98, 96, 96,
        96, 2, 98, 198, 106,
        0, 5, 158, 0, 251] ++ legacyData.bytes) (by decide) (by decide)).readWindow tableZlib).1 := by
  obtain ⟨result, _, same⟩ := @batching_invisible tableZlib 64 ⟨8, 64⟩ tableZlib_roundTrips 2 (by decide)
    [smallData, legacyData] rfl
  rw [ServerConnection.fed, ServerConnection.fed,
    same [.batch [smallData, legacyData] (by simp) 3 _ rfl (by decide) (by decide)] _ .eof [] [] rfl (by decide),
    same [.batch [smallData] (by simp) 3 _ rfl (by decide) (by decide),
      .inline [legacyData] (by simp)] _ .eof [] [] rfl
      (by decide)]

end Runs

end FerroProtocols.Lumberjack
