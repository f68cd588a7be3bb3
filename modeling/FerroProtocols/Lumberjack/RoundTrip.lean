import FerroProtocols.Lumberjack.Chunking
import FerroProtocols.Lumberjack.Encoding

/-! Frames of all kinds, written one behind the other, are decoded as they were sent. -/

namespace FerroProtocols.Lumberjack

open BigEndian

/-- A text behind its length. -/
def lengthPrefixed (text : Bytes) : Bytes := toBytes (u32OfLength text.length) ++ text

/-- The pairs of a legacy frame. -/
def pairsLayout (pairs : List (Bytes × Bytes)) : Bytes :=
  pairs.flatMap fun pair => lengthPrefixed pair.1 ++ lengthPrefixed pair.2

/-- The bytes of a legacy frame: its header, a sequence number, the number of pairs and the pairs. -/
def legacyLayout (seq : UInt32) (pairs : List (Bytes × Bytes)) : Bytes :=
  protocolVersion :: frameTypeDataLegacy ::
    (toBytes seq ++ (toBytes (u32OfLength pairs.length) ++ pairsLayout pairs))

/-- A frame that is sent. -/
inductive SentFrame where
  | window (count : UInt32)
  | ack (seq : UInt32)
  | json (seq : UInt32) (payload : Bytes)
  | compressed (level : UInt32) (inner : Bytes)
  | legacy (seq : UInt32) (pairs : List (Bytes × Bytes))

namespace SentFrame

/-- The bytes of a frame. -/
def encode (zlib : Zlib) : SentFrame → Except FrameError Bytes
  | .window count => .ok (encodeWindow count)
  | .ack seq => .ok (encodeAck seq)
  | .json seq payload => .ok (encodeJsonFrame seq payload)
  | .compressed level inner => encodeCompressed zlib level inner
  | .legacy seq pairs => .ok (legacyLayout seq pairs)

/-- The frame that is received. -/
def received : SentFrame → Frame
  | .window count => .window count
  | .ack seq => .ack seq
  | .json seq payload => .json seq payload
  | .compressed _ inner => .compressed inner
  | .legacy seq pairs => .unknown frameTypeDataLegacy (legacyLayout seq pairs)

/-- All lengths are within the cap and within what their fields can hold. -/
def Within (zlib : Zlib) (cap : UInt64) : SentFrame → Prop
  | .window _ => True
  | .ack _ => True
  | .json _ payload => payload.length ≤ min cap.toNat u32Max
  | .compressed level inner => inner.length ≤ cap.toNat ∧
      ∀ compressed, zlib.compress level inner = .ok compressed → compressed.length ≤ cap.toNat
  | .legacy _ pairs => pairs.length ≤ u32Max ∧
      ∀ pair ∈ pairs, pair.1.length ≤ min cap.toNat u32Max ∧ pair.2.length ≤ min cap.toNat u32Max

end SentFrame

section Legacy

variable {cap : UInt64} {pairs : List (Bytes × Bytes)}

private theorem toNat_u32OfLength_of_le {length : Nat} (word : length ≤ u32Max) :
    (u32OfLength length).toNat = length := by
  apply toNat_u32OfLength
  unfold u32Max at word
  omega

private theorem wordAt_lengthPrefixed (front text back : Bytes) :
    wordAt (front ++ (lengthPrefixed text ++ back)) front.length = some (u32OfLength text.length) := by
  have behind := wordAt_append_right front (lengthPrefixed text ++ back) 0
  rw [lengthPrefixed, List.append_assoc, wordAt_toBytes, Nat.add_zero] at behind
  rw [lengthPrefixed, List.append_assoc]
  exact behind

private theorem length_lengthPrefixed (text : Bytes) : (lengthPrefixed text).length = 4 + text.length := by
  rw [lengthPrefixed, List.length_append, toBytes_length]

private theorem parseFrame_legacy (zlib : Zlib) (limit : UInt64) (rest : Bytes) :
    parseFrame zlib limit (protocolVersion :: frameTypeDataLegacy :: rest) =
      parseLegacy limit (protocolVersion :: frameTypeDataLegacy :: rest) := rfl

variable
  (within : ∀ pair ∈ pairs, pair.1.length ≤ min cap.toNat u32Max ∧ pair.2.length ≤ min cap.toNat u32Max)

include within

private theorem pairsEnd_pairsLayout (front back : Bytes) :
    pairsEnd cap (front ++ (pairsLayout pairs ++ back)) pairs.length front.length =
      .ok (some (front.length + (pairsLayout pairs).length)) := by
  -- Each pair moves what stands in front of the cursor, and leaves fewer pairs behind it.
  induction pairs generalizing front with
  | nil => rfl
  | cons pair rest ih =>
    obtain ⟨key, value⟩ := within pair List.mem_cons_self
    have later := ih (fun other member => within other (List.mem_cons_of_mem pair member))
      (front ++ (lengthPrefixed pair.1 ++ lengthPrefixed pair.2))
    have layout : front ++ (pairsLayout (pair :: rest) ++ back) =
        front ++ (lengthPrefixed pair.1 ++ (lengthPrefixed pair.2 ++ (pairsLayout rest ++ back))) := by
      simp [pairsLayout, List.flatMap_cons]
    have keyRead := wordAt_lengthPrefixed front pair.1 (lengthPrefixed pair.2 ++ (pairsLayout rest ++ back))
    have valueRead := wordAt_lengthPrefixed (front ++ lengthPrefixed pair.1) pair.2 (pairsLayout rest ++ back)
    rw [List.append_assoc, List.length_append, length_lengthPrefixed] at valueRead
    have keyLength : (u32OfLength pair.1.length).toNat = pair.1.length := toNat_u32OfLength_of_le (by omega)
    have valueLength : (u32OfLength pair.2.length).toNat = pair.2.length := toNat_u32OfLength_of_le (by omega)
    rw [List.length_append, List.length_append, length_lengthPrefixed, length_lengthPrefixed, List.append_assoc,
      List.append_assoc] at later
    rw [layout, List.length_cons, pairsEnd]
    simp only [keyRead, valueRead, keyLength, valueLength, if_neg (show ¬ pair.1.length > cap.toNat by omega),
      if_neg (show ¬ pair.2.length > cap.toNat by omega)]
    rw [show front.length + (4 + pair.1.length) + (4 + pair.2.length) =
      front.length + (4 + pair.1.length + (4 + pair.2.length)) by omega, later]
    simp only [pairsLayout, List.flatMap_cons, List.length_append, length_lengthPrefixed, Except.ok.injEq,
      Option.some.injEq]
    omega

private theorem parseFrame_of_counted (zlib : Zlib) {count : UInt32} (counted : count.toNat = pairs.length)
    {seq : UInt32}
    {frame : Bytes} (laid : frame =
      protocolVersion :: frameTypeDataLegacy :: (toBytes seq ++ (toBytes count ++ pairsLayout pairs)))
    (back : Bytes) : parseFrame zlib cap (frame ++ back) = .item
    (.unknown frameTypeDataLegacy frame) frame.length := by
  have header : frame ++ back = protocolVersion :: frameTypeDataLegacy ::
      (toBytes seq ++ (toBytes count ++ (pairsLayout pairs ++ back))) := by
    simp [laid]
  have countRead := wordAt_header_word protocolVersion frameTypeDataLegacy seq count (pairsLayout pairs ++ back)
  rw [← header] at countRead
  -- Ten bytes stand before the pairs.
  have walked :=
    pairsEnd_pairsLayout within (protocolVersion :: frameTypeDataLegacy :: (toBytes seq ++ toBytes count)) back
  have ten : (protocolVersion :: frameTypeDataLegacy :: (toBytes seq ++ toBytes count)).length = 10 := rfl
  have layout : (protocolVersion :: frameTypeDataLegacy :: (toBytes seq ++ toBytes count)) ++
    (pairsLayout pairs ++ back) =
      frame ++ back := by
    simp [laid]
  have size : 10 + (pairsLayout pairs).length = frame.length := by
    simp only [laid, List.length_cons, List.length_append, toBytes_length]
    omega
  rw [layout, ten, size] at walked
  have selected : parseFrame zlib cap (frame ++ back) = parseLegacy cap (frame ++ back) := by
    rw [header, parseFrame_legacy]
  rw [selected]
  simp [parseLegacy, countRead, counted, walked]

private theorem parseFrame_legacyLayout (zlib : Zlib) (counted : pairs.length ≤ u32Max) (seq : UInt32)
    (back : Bytes) :
    parseFrame zlib cap (legacyLayout seq pairs ++ back) =
      .item (.unknown frameTypeDataLegacy (legacyLayout seq pairs)) (legacyLayout seq pairs).length :=
  parseFrame_of_counted within zlib (toNat_u32OfLength_of_le counted) rfl back

end Legacy

section RoundTrip

private theorem parseFrame_encodeAck (zlib : Zlib) (cap : UInt64) (seq : UInt32) (back : Bytes) :
    parseFrame zlib cap (encodeAck seq ++ back) = .item (.ack seq) 6 := by
  have selected : parseFrame zlib cap (encodeAck seq ++ back) = parseWord .ack (encodeAck seq ++ back) := rfl
  have read := wordAt_header protocolVersion frameTypeAck seq back
  rw [selected, parseWord, show encodeAck seq ++ back =
    protocolVersion :: frameTypeAck :: (toBytes seq ++ back) from rfl,
    read]

private theorem SentFrame.parseFrame_encode {zlib : Zlib} (roundTrips : zlib.RoundTrips) {cap : UInt64}
    {frame : SentFrame}
    {encoded : Bytes} (within : frame.Within zlib cap) (sent : frame.encode zlib = .ok encoded) (back : Bytes) :
    parseFrame zlib cap (encoded ++ back) = .item frame.received encoded.length := by
  cases frame with
  | window count =>
    cases sent
    exact parseFrame_encodeWindow zlib cap count back
  | ack seq =>
    cases sent
    exact parseFrame_encodeAck zlib cap seq back
  | json seq payload =>
    cases sent
    have fits : payload.length ≤ min cap.toNat u32Max := within
    have word : payload.length < 2 ^ 32 := by
      unfold u32Max at fits
      omega
    rw [length_encodeJsonFrame]
    exact parseFrame_encodeJsonFrame zlib seq word (by omega) back
  | compressed level inner =>
    obtain ⟨small, fits⟩ := within
    obtain ⟨compressed, done, size, _⟩ := @parseFrame_encoded cap _ _ _ _ sent back
    have stored := fits compressed done
    exact parseFrame_encodeCompressed sent roundTrips small (by omega) back
  | legacy seq pairs =>
    cases sent
    exact parseFrame_legacyLayout within.2 zlib within.1 seq back

/-- Frames that are sent one behind the other are decoded as they were sent, in every chunking, and nothing is
left. -/
theorem codec_round_trip {zlib : Zlib} (roundTrips : zlib.RoundTrips) (cap : UInt64) {frames : List SentFrame}
    {encodings : List Bytes} (within : ∀ frame ∈ frames, frame.Within zlib cap)
    (sent : List.Forall₂ (fun frame encoded => SentFrame.encode zlib frame = .ok encoded) frames encodings)
    {chunks : List Bytes} (cut : chunks.flatten = encodings.flatten) :
    (FrameDecoder.deliver zlib (.withMaxFramePayload cap) chunks).observed =
      ⟨frames.map SentFrame.received, none, []⟩ := by
  rw [FrameDecoder.deliver_observed, cut]
  clear cut
  -- Each frame is a whole item, whatever follows it.
  induction sent with
  | nil => exact StreamParser.drain_needMore rfl
  | @cons frame encoded frames encodings here _ ih =>
    have takes : (frameParser zlib cap).step (encoded ++ encodings.flatten) = .item frame.received encoded.length :=
      frame.parseFrame_encode roundTrips (within frame List.mem_cons_self) here encodings.flatten
    rw [List.flatten_cons, StreamParser.drain_item takes, List.drop_left,
      ih fun other member => within other (List.mem_cons_of_mem frame member)]
    rfl

/-- A window, a legacy frame with a pair, and a batch. -/
def mixedFrames : List SentFrame :=
  [.window 1, .legacy 7 [([0x6B], [0x76, 0x77])], .compressed 3 (encodeJsonFrame 2 [0x7B])]

/-- They are read back although they are cut within a header. -/
theorem codec_round_trip_mixed : (FrameDecoder.deliver tableZlib (.withMaxFramePayload 20)
      [[0x32, 0x57, 0, 0, 0, 1, 0x32],
        [0x44, 0, 0, 0, 7, 0, 0, 0, 1, 0, 0, 0, 1, 0x6B, 0, 0, 0, 2, 0x76, 0x77, 0x32, 0x43, 0, 0, 0,
          17, 120, 94, 51, 242, 98,
          96, 96, 96, 2, 98, 198, 106, 0, 5, 158, 0, 251]]).observed =
      ⟨[.window 1, .unknown 0x44 (legacyLayout 7 [([0x6B], [0x76, 0x77])]), .compressed (encodeJsonFrame 2 [0x7B])],
        none, []⟩ := by
  have within : ∀ frame ∈ mixedFrames, frame.Within tableZlib 20 := by
    intro frame member
    simp only [mixedFrames, List.mem_cons, List.not_mem_nil, or_false] at member
    rcases member with rfl | rfl | rfl
    · trivial
    · exact ⟨by decide, by decide⟩
    · refine ⟨by decide, fun compressed stored => ?_⟩
      cases stored
      decide
  exact codec_round_trip tableZlib_roundTrips 20 within (.cons rfl (.cons rfl (.cons rfl .nil))) (by decide)

end RoundTrip

end FerroProtocols.Lumberjack
