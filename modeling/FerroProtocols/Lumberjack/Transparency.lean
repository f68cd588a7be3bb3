import FerroProtocols.Lumberjack.Batching

/-! What compression changes for the receiver of a window. -/

namespace FerroProtocols.Lumberjack

open BigEndian StreamConfig

section Frames

variable {zlib : Zlib} {cap : UInt64}

/-- An event within the cap, as bytes that can be decoded. -/
def JsonEvent.dataBytes (zlib : Zlib) (cap : UInt64) (event : JsonEvent) (word : event.payload.length < 2 ^ 32)
    (within : event.payload.length ≤ cap.toNat) : DataBytes zlib cap where
  bytes := encodeJsonFrame event.seq event.payload
  frame := event.frame
  decodes := by
    have read := parseFrame_encodeJsonFrame zlib event.seq word within []
    rw [List.append_nil] at read
    rw [read, length_encodeJsonFrame]
    rfl
  isData := rfl

private theorem exists_dataBytes {events : List JsonEvent}
    (small : ∀ event ∈ events, event.payload.length < 2 ^ 32 ∧ event.payload.length ≤ cap.toNat) :
    ∃ data : List (DataBytes zlib cap), dataBytes data = encodeEvents events ∧
      data.map DataBytes.frame = events.map JsonEvent.frame := by
  induction events with
  | nil => exact ⟨[], rfl, rfl⟩
  | cons event rest ih =>
    obtain ⟨word, within⟩ := small event List.mem_cons_self
    obtain ⟨data, bytes, frames⟩ := ih fun other member => small other (List.mem_cons_of_mem event member)
    refine ⟨event.dataBytes zlib cap word within :: data, ?_, ?_⟩
    · rw [dataBytes, List.flatMap_cons]
      exact congrArg (encodeJsonFrame event.seq event.payload ++ ·) bytes
    · rw [List.map_cons, List.map_cons, frames]
      rfl

private theorem parseFrame_encodeJsonFrame_large {event : JsonEvent} (word : event.payload.length < 2 ^ 32)
    (large : cap.toNat < event.payload.length) (back : Bytes) :
    parseFrame zlib cap (encodeJsonFrame event.seq event.payload ++ back) =
      .failed (.payloadTooLarge event.payload.length cap.toNat) := by
  have layout : encodeJsonFrame event.seq event.payload ++ back = protocolVersion :: frameTypeJson ::
      (toBytes event.seq ++ (toBytes (u32OfLength event.payload.length) ++ (event.payload ++ back))) := by
    simp [encodeJsonFrame]
  have seqRead := wordAt_header protocolVersion frameTypeJson event.seq
    (toBytes (u32OfLength event.payload.length) ++ (event.payload ++ back))
  have lenRead := wordAt_header_word protocolVersion frameTypeJson event.seq (u32OfLength event.payload.length)
    (event.payload ++ back)
  rw [layout, parseFrame_json]
  simp [parseJson, seqRead, lenRead, toNat_u32OfLength word, large]

private theorem parseFrame_encodeCompressed_large (roundTrips : zlib.RoundTrips) {level : UInt32}
    {inner encoded : Bytes}
    (stored : encodeCompressed zlib level inner = .ok encoded) (addressable : inner.length < 2 ^ 63)
    (large : cap.toNat < inner.length) (back : Bytes) :
    ∃ error, parseFrame zlib cap (encoded ++ back) = .failed error := by
  obtain ⟨compressed, compressing, _, failed, _⟩ := parseFrame_encoded stored back
  -- One byte past the cap is read, which is more than is allowed.
  have bound : min (cap.toNat + 1) u64Max = cap.toNat + 1 := by
    apply Nat.min_eq_left
    unfold u64Max
    omega
  refine failed (.decompressedTooLarge cap.toNat) ?_
  simp only [decompressCapped, bound, roundTrips level inner compressed compressing]
  rw [if_pos]
  rw [List.length_take]
  omega

end Frames

namespace StreamConfig

variable {zlib : Zlib} {config : StreamConfig}

private theorem small_of_readStream {events : List JsonEvent} {state : WindowState} {remaining : UInt32}
    {window : Window}
    (words : ∀ event ∈ events, event.payload.length < 2 ^ 32) (isOpen : state.windowRemaining = some remaining)
    (slots : events.length = remaining.toNat) {tail : Bytes}
    (accepted : (config.readStream zlib state (encodeEvents events ++ tail)).1 = .ok (some window)) :
    ∀ event ∈ events, event.payload.length ≤ config.frameCap.toNat := by
  induction events generalizing state remaining with
  | nil => exact fun event impossible => (by cases impossible)
  | cons event rest ih =>
    have word := words event List.mem_cons_self
    have front : encodeEvents (event :: rest) ++ tail =
        encodeJsonFrame event.seq event.payload ++ (encodeEvents rest ++ tail) := by
      simp [encodeEvents]
    rw [front] at accepted
    -- An event above the cap ends the reading.
    have within : event.payload.length ≤ config.frameCap.toNat := by
      by_contra large
      rw [readStream_failed (parseFrame_encodeJsonFrame_large word (Nat.lt_of_not_le large) _)] at accepted
      cases accepted
    simp only [List.length_cons] at slots
    have slot : remaining ≠ 0 := by
      intro zero
      rw [zero] at slots
      simp at slots
    have lower := toNat_sub_one slot
    have parsed := parseFrame_encodeJsonFrame zlib event.seq word within (encodeEvents rest ++ tail)
    rw [readStream_item parsed, List.drop_left' (length_encodeJsonFrame event.seq event.payload),
      acceptFrame_data (show (Frame.json event.seq event.payload).isData = true from rfl)] at accepted
    intro other member
    rcases List.mem_cons.mp member with rfl | later
    · exact within
    rcases @acceptInner_data config state (.json event.seq event.payload) rfl remaining isOpen slot with
      ⟨after, taken, fewer⟩ | ⟨kind, requested, limit, refused⟩
    · rw [taken] at accepted
      -- Another event is to come, so a slot is open for it.
      have unfilled : after.windowRemaining ≠ some 0 := by
        rw [fewer]
        intro zero
        have none : (remaining - 1).toNat = 0 := by rw [Option.some.inj zero]; rfl
        have some := List.length_pos_of_mem later
        omega
      simp only [settle, if_neg unfilled] at accepted
      exact ih (fun other member => words other (List.mem_cons_of_mem event member)) fewer
        (by omega) accepted other later
    · rw [refused] at accepted
      cases accepted

end StreamConfig

section Payloads

variable {zlib : Zlib} {cap : UInt64} {limits : WindowLimits} {batch : Batch} {base level : UInt32}

private theorem buildWindowPayload_zero (zlib : Zlib) (events : List Bytes) (base : Sequence) :
    buildWindowPayload zlib 0 events base = encodeWindow (u32OfLength events.length) ++ dataFrames base events := rfl

/-- Compression at a level makes bytes shorter, with the header of a frame in front of them. -/
def Zlib.Shortens (zlib : Zlib) (level : UInt32) (inner : Bytes) : Prop :=
  0 < level ∧ ∃ encoded, encodeCompressed zlib level inner = .ok encoded ∧ encoded.length < inner.length

private theorem buildWindowPayload_cases (zlib : Zlib) (level : UInt32) (events : List Bytes) (base : Sequence) :
    ¬ zlib.Shortens level (dataFrames base events) ∧
        buildWindowPayload zlib level events base = buildWindowPayload zlib 0 events base ∨
      zlib.Shortens level (dataFrames base events) ∧
        ∃ encoded, encodeCompressed zlib level (dataFrames base events) = .ok encoded ∧
          encoded.length < (dataFrames base events).length ∧
          buildWindowPayload zlib level events base = encodeWindow (u32OfLength events.length) ++ encoded := by
  rw [buildWindowPayload_zero]
  unfold buildWindowPayload
  dsimp only
  split
  · rename_i positive
    split
    · rename_i encoded stored
      split
      · rename_i shorter
        exact .inr ⟨⟨positive, encoded, stored, shorter⟩, encoded, stored, shorter, rfl⟩
      · rename_i longer
        refine .inl ⟨fun ⟨_, other, again, shorter⟩ => longer ?_, rfl⟩
        cases stored.symm.trans again
        exact shorter
    · rename_i error failed
      exact .inl ⟨fun ⟨_, other, stored, _⟩ => (by cases failed.symm.trans stored), rfl⟩
  · rename_i none
    exact .inl ⟨fun shortens => none shortens.1, rfl⟩

private theorem Batch.u32OfLength_events (batch : Batch) : u32OfLength batch.events.length = batch.count := by
  rw [u32OfLength, Nat.min_eq_left batch.counted]
  rfl

private theorem Batch.count_ne_zero (batch : Batch) : batch.count ≠ 0 := by
  intro zero
  have none := batch.toNat_count
  rw [zero] at none
  exact batch.nonempty (List.length_eq_zero_iff.mp none.symm)

private theorem StreamConfig.readStream_header {config : StreamConfig} {body : Bytes} {window : Window}
    (accepted : (config.readStream zlib .start (encodeWindow batch.count ++ body)).1 = .ok (some window)) :
    (config.readStream zlib batch.opened body).1 = .ok (some window) := by
  rw [readStream_item (parseFrame_encodeWindow zlib config.frameCap batch.count _), drop_encodeWindow] at accepted
  simp only [acceptFrame, show WindowState.start.windowRemaining = none from rfl, Option.isSome_none,
    Bool.false_eq_true,
    if_false, if_neg batch.count_ne_zero] at accepted
  cases declared : checkDeclaredWindow batch.count config.limits.maxWindowEvents with
  | error error =>
    rw [declared] at accepted
    cases accepted
  | ok fits =>
    rw [declared] at accepted
    exact accepted

private theorem exists_dataBytes_of_accepted {config : StreamConfig}
    (words : ∀ event ∈ batch.events, event.length < 2 ^ 32)
    {tail : Bytes} {window : Window} (accepted : (config.readStream zlib .start
      (buildWindowPayload zlib 0 batch.events ⟨base⟩ ++ tail)).1 = .ok (some window)) :
    ∃ data : List (DataBytes zlib config.frameCap), dataBytes data = dataFrames ⟨base⟩ batch.events ∧ data ≠ [] ∧
      data.length = batch.count.toNat := by
  have payloads := map_payload_numberFrom base 0 batch.events
  have length : (numberFrom base 0 batch.events).length = batch.count.toNat := by
    rw [batch.toNat_count, ← payloads, List.length_map, payloads]
  have eventWords : ∀ event ∈ numberFrom base 0 batch.events, event.payload.length < 2 ^ 32 := by
    intro event member
    apply words
    rw [← payloads]
    exact List.mem_map_of_mem member
  rw [buildWindowPayload_zero, dataFrames_eq base batch.events batch.counted, batch.u32OfLength_events,
    List.append_assoc] at accepted
  have within := small_of_readStream eventWords rfl length (readStream_header accepted)
  obtain ⟨data, bytes, frames⟩ := @exists_dataBytes zlib config.frameCap _ fun event member =>
    ⟨eventWords event member, within event member⟩
  have counted : data.length = batch.count.toNat := by
    have same := congrArg List.length frames
    rw [List.length_map, List.length_map, length] at same
    exact same
  refine ⟨data, ?_, ?_, counted⟩
  · rw [bytes, dataFrames_eq base batch.events batch.counted]
  · intro empty
    rw [empty, List.length_nil] at counted
    exact batch.count_ne_zero (UInt32.toNat_inj.mp counted.symm)

/-- A server that accepts a window without compression accepts it with compression, as the same window, exactly if
all its data frames together are within the cap whenever compression shortens them. -/
theorem compression_transparent_iff (roundTrips : zlib.RoundTrips)
    (words : ∀ event ∈ batch.events, event.length < 2 ^ 32)
    (addressable : (dataFrames ⟨base⟩ batch.events).length < 2 ^ 63) {plain packed : List Chunk}
    {plainTail packedTail : Bytes}
    {closing : Closing} {faults : List (Option IoError)} {window : Window}
    (plainSent : (plain.map Chunk.bytes).flatten = buildWindowPayload zlib 0 batch.events ⟨base⟩ ++ plainTail)
    (packedSent : (packed.map Chunk.bytes).flatten = buildWindowPayload zlib level batch.events ⟨base⟩ ++ packedTail)
    (accepted : ((Listener.accept ⟨plain, closing, [], faults⟩ cap limits).readWindow zlib).1 = .ok (some window)) :
    ((Listener.accept ⟨packed, closing, [], faults⟩ cap limits).readWindow zlib).1 = .ok (some window) ↔
      (zlib.Shortens level (dataFrames ⟨base⟩ batch.events) →
        (dataFrames ⟨base⟩ batch.events).length ≤ cap.toNat) := by
  rw [(ServerConnection.readWindow_eq zlib _).1] at accepted ⊢
  have plainStream : (Listener.accept ⟨plain, closing, [], faults⟩ cap limits).stream =
    (plain.map Chunk.bytes).flatten := rfl
  have packedStream : (Listener.accept ⟨packed, closing, [], faults⟩ cap limits).stream =
    (packed.map Chunk.bytes).flatten := rfl
  have plainConfig : (Listener.accept ⟨plain, closing, [], faults⟩ cap limits).config =
    ⟨cap, cap, limits, closing⟩ := rfl
  have packedConfig : (Listener.accept ⟨packed, closing, [], faults⟩ cap limits).config =
    ⟨cap, cap, limits, closing⟩ := rfl
  rw [plainStream, plainSent, plainConfig] at accepted
  rw [packedStream, packedSent, packedConfig]
  obtain ⟨data, bytes, nonempty, counted⟩ := exists_dataBytes_of_accepted words accepted
  -- However the body is sent in runs, it is read as the same data frames.
  have read (run : DataRun zlib cap) (tail : Bytes) (same : run.data = data) :
      ((⟨cap, cap, limits, closing⟩ : StreamConfig).readStream zlib .start
        (encodeWindow batch.count ++ (run.wire ++ tail))).1 =
        windowResult ⟨cap, cap, limits, closing⟩ batch.count (data.map DataBytes.frame) := by
    have whole :=
      @readStream_window zlib roundTrips ⟨cap, cap, limits, closing⟩ rfl batch.count batch.count_ne_zero [run]
      (by rw [List.flatMap_singleton, same, counted]) tail
    rw [List.flatMap_singleton, List.flatMap_singleton, same] at whole
    exact whole
  have inline (tail : Bytes) := read (.inline data nonempty) tail rfl
  rw [show (DataRun.inline data nonempty).wire = dataBytes data from rfl, bytes] at inline
  have plainPayload (tail : Bytes) : buildWindowPayload zlib 0 batch.events ⟨base⟩ ++ tail =
      encodeWindow batch.count ++ (dataFrames ⟨base⟩ batch.events ++ tail) := by
    rw [buildWindowPayload_zero, batch.u32OfLength_events, List.append_assoc]
  rw [plainPayload, inline] at accepted
  rcases buildWindowPayload_cases zlib level batch.events ⟨base⟩ with
    ⟨long, same⟩ | ⟨shortens, encoded, stored, shorter, payload⟩
  · rw [same, plainPayload, inline]
    exact ⟨fun _ shortens => absurd shortens long, fun _ => accepted⟩
  rw [payload, batch.u32OfLength_events, List.append_assoc]
  by_cases inner : (dataFrames ⟨base⟩ batch.events).length ≤ cap.toNat
  · have batched :=
      read (.batch data nonempty level encoded (by rw [bytes]; exact stored) (by rw [bytes]; exact inner)
      (by omega)) packedTail rfl
    rw [show (DataRun.batch data nonempty level encoded _ _ _).wire = encoded from rfl] at batched
    rw [batched]
    exact ⟨fun _ _ => inner, fun _ => accepted⟩
  · -- The batch is refused as a whole, and it is not the body that was accepted.
    constructor
    · intro read
      obtain ⟨error, refused⟩ :=
        parseFrame_encodeCompressed_large roundTrips stored addressable (Nat.lt_of_not_le inner) packedTail
      have failed := readStream_header read
      rw [readStream_failed refused] at failed
      cases failed
    · exact fun within => absurd (within shortens) inner

/-- What a client sends for two events of forty bytes without compression. -/
def plainChunk : Chunk := ⟨buildWindowPayload tableZlib 0 twoEvents.events ⟨0xFFFFFFFF⟩, by decide, by decide⟩

/-- What it sends for them at level 3. -/
def packedChunk : Chunk := ⟨sentBytes.take 34, by decide, by decide⟩

/-- With a cap for both data frames together, the events arrive with compression as they do without it. -/
theorem compression_transparent_iff_token :
    ((Listener.accept ⟨[packedChunk], .eof, [], []⟩ 100 ⟨8, 128⟩).readWindow tableZlib).1 =
      .ok (some (twoEvents.window 0xFFFFFFFF)) :=
  (@compression_transparent_iff tableZlib 100 ⟨8, 128⟩ twoEvents 0xFFFFFFFF 3 tableZlib_roundTrips
    (by decide) (by decide)
    [plainChunk] [packedChunk] [] [] .eof [] _ (by decide) (by decide +kernel) (by decide +kernel)).mpr fun _ =>
      by decide

/-- With a cap one less they arrive without compression and are refused with it. -/
theorem compressed_batch_refused : packedChunk.bytes = buildWindowPayload tableZlib 3 twoEvents.events ⟨0xFFFFFFFF⟩ ∧
      ((Listener.accept ⟨[plainChunk], .eof, [], []⟩ 99 ⟨8, 128⟩).readWindow tableZlib).1 =
        .ok (some (twoEvents.window 0xFFFFFFFF)) ∧
      ((Listener.accept ⟨[packedChunk], .eof, [], []⟩ 99 ⟨8, 128⟩).readWindow tableZlib).1 =
        .error (.codec (.decompressedTooLarge 99)) := by
  refine ⟨?_, ?_, ?_⟩ <;> decide +kernel

end Payloads

end FerroProtocols.Lumberjack
