import FerroProtocols.Lumberjack.Grammar

/-! The streaming decoder follows the frame grammar on its pending bytes, however they were fed. -/

namespace FerroProtocols.Lumberjack

open BigEndian

namespace FrameDecoder

/-- The fed bytes that no frame has consumed. -/
def pendingBytes (dec : FrameDecoder) : Bytes :=
  dec.buf.drop dec.readPos

variable (dec : FrameDecoder)

/-- The count of pending bytes is right. -/
@[simp] theorem pendingBytes_length : dec.pendingBytes.length = dec.pending := by
  simp [pendingBytes, pending]

/-- A new decoder has nothing pending. -/
@[simp] theorem withMaxFramePayload_pendingBytes (limit : UInt64) :
    (withMaxFramePayload limit).pendingBytes = [] := rfl

/-- A decoder has the cap it is made with. -/
@[simp] theorem withMaxFramePayload_maxFramePayload (limit : UInt64) :
    (withMaxFramePayload limit).maxFramePayload = limit := rfl

/-- Feeding appends to the pending bytes, with or without a compaction. -/
@[simp] theorem feed_pendingBytes (bytes : Bytes) :
    (dec.feed bytes).pendingBytes = dec.pendingBytes ++ bytes := by
  have within := dec.consumed
  unfold feed
  split
  · -- Compaction drops exactly the consumed bytes and moves the read position to the front.
    simp [pendingBytes]
  · exact List.drop_append_of_le_length within

/-- Feeding keeps the cap. -/
@[simp] theorem feed_maxFramePayload (bytes : Bytes) :
    (dec.feed bytes).maxFramePayload = dec.maxFramePayload := by
  unfold feed
  split <;> rfl

/-- Advancing keeps the cap. -/
@[simp] theorem advance_maxFramePayload (size : Nat) :
    (dec.advance size).maxFramePayload = dec.maxFramePayload := rfl

/-- Advancing consumes bytes from the front of the pending ones. -/
@[simp] theorem advance_pendingBytes (size : Nat) :
    (dec.advance size).pendingBytes = dec.pendingBytes.drop size := by
  -- A size past the end would leave nothing pending on either side.
  have within := dec.consumed
  simp only [advance, pendingBytes, List.drop_drop]
  by_cases past : dec.readPos + size ≤ dec.buf.length
  · rw [Nat.min_eq_left past]
  · rw [Nat.min_eq_right (by omega), List.drop_length, List.drop_of_length_le (by omega)]

/-- Advancing lowers the count by what is consumed, and never below zero. -/
theorem advance_pending (size : Nat) :
    (dec.advance size).pending = dec.pending - size := by
  rw [← pendingBytes_length, advance_pendingBytes, List.length_drop, pendingBytes_length]

/-- The word read past the read position is the word of the pending bytes there. -/
@[simp] theorem readAt_eq (offset : Nat) :
    dec.readAt offset = BigEndian.wordAt dec.pendingBytes offset := by
  have pendingWord : BigEndian.wordAt dec.pendingBytes offset =
      BigEndian.wordAt dec.buf (dec.readPos + offset) := by
    simp [BigEndian.wordAt, pendingBytes]
  simp only [readAt, pendingWord]
  split
  · rename_i short
    exact (wordAt_eq_none_iff.mpr short).symm
  · rfl

private theorem wordAt_of_some {dec : FrameDecoder} {offset : Nat} {word : UInt32}
    (pendingWord : BigEndian.wordAt dec.pendingBytes offset = some word) : dec.wordAt offset = word := by
  simp [wordAt, pendingWord]

private theorem exists_pendingWord (offset : Nat) (enough : offset + 4 ≤ dec.pending) :
    ∃ word, BigEndian.wordAt dec.pendingBytes offset = some word :=
  exists_wordAt (by rw [pendingBytes_length]; exact enough)

private theorem pendingWord_none (offset : Nat) (short : dec.pending < offset + 4) :
    BigEndian.wordAt dec.pendingBytes offset = none :=
  wordAt_eq_none_iff.mpr (by rw [pendingBytes_length]; exact short)

/-- A slice past the read position is a slice of the pending bytes. -/
theorem slice_pendingBytes (offset length : Nat) :
    dec.slice offset length = (dec.pendingBytes.drop offset).take length := by
  simp [slice, pendingBytes, List.drop_drop]

/-- What a decoding call does when the grammar has given its verdict on the pending bytes. -/
def follow (dec : FrameDecoder) :
    ParseStep FrameError Frame → Except FrameError (Option Frame) × FrameDecoder
  -- Without a frame the decoder is left exactly as it was.
  | .needMore => (.ok none, dec)
  | .failed error => (.error error, dec)
  | .item frame size => (.ok (some frame), dec.advance size)

private theorem tryDecodeWord_eq (make : UInt32 → Frame) :
    ((.ok (dec.tryDecodeWord make).1, (dec.tryDecodeWord make).2) :
        Except FrameError (Option Frame) × FrameDecoder) = dec.follow (parseWord make dec.pendingBytes) := by
  unfold tryDecodeWord parseWord
  by_cases short : dec.pending < 6
  · rw [if_pos short, dec.pendingWord_none 2 short]
    rfl
  · obtain ⟨word, read⟩ := dec.exists_pendingWord 2 (by omega)
    rw [if_neg short, read, wordAt_of_some read]
    rfl

private theorem tryDecodeJson_eq : dec.tryDecodeJson =
      dec.follow (parseJson dec.maxFramePayload dec.pendingBytes) := by
  unfold tryDecodeJson parseJson
  by_cases short : dec.pending < 10
  · -- Below ten bytes the length word is missing, whether or not the sequence number is.
    rw [if_pos short, dec.pendingWord_none 6 short]
    cases BigEndian.wordAt dec.pendingBytes 2 <;> rfl
  · obtain ⟨seq, seqRead⟩ := dec.exists_pendingWord 2 (by omega)
    obtain ⟨len, lenRead⟩ := dec.exists_pendingWord 6 (by omega)
    rw [if_neg short, seqRead, lenRead, wordAt_of_some seqRead, wordAt_of_some lenRead]
    simp only [slice_pendingBytes, pendingBytes_length]
    by_cases large : len.toNat > dec.maxFramePayload.toNat
    · simp [large, follow]
    · by_cases arriving : dec.pending < 10 + len.toNat
      · simp [large, arriving, follow]
      · simp [large, arriving, follow]

private theorem tryDecodeCompressed_eq (zlib : Zlib) (dec : FrameDecoder) : dec.tryDecodeCompressed zlib =
      dec.follow (parseCompressed zlib dec.maxFramePayload dec.pendingBytes) := by
  unfold tryDecodeCompressed parseCompressed
  by_cases short : dec.pending < 6
  · rw [if_pos short, dec.pendingWord_none 2 short]
    rfl
  · obtain ⟨len, lenRead⟩ := dec.exists_pendingWord 2 (by omega)
    rw [if_neg short, lenRead, wordAt_of_some lenRead]
    simp only [slice_pendingBytes, pendingBytes_length]
    by_cases large : len.toNat > dec.maxFramePayload.toNat
    · simp [large, follow]
    · by_cases arriving : dec.pending < 6 + len.toNat
      · simp [large, arriving, follow]
      · simp only [if_neg large, if_neg arriving]
        -- Only the library's answer is left to tell the two verdicts apart.
        cases decompressCapped zlib ((dec.pendingBytes.drop 6).take len.toNat)
            dec.maxFramePayload with
        | error error => rfl
        | ok decompressed => rfl

private theorem walkPairs_eq : ∀ pairs cursor, dec.walkPairs pairs cursor =
      pairsEnd dec.maxFramePayload dec.pendingBytes pairs cursor := by
  intro pairs
  induction pairs with
  | zero => intro cursor; rfl
  | succ pairs ih =>
    intro cursor
    simp only [walkPairs, pairsEnd]
    by_cases shortKey : dec.pending < cursor + 4
    · rw [if_pos shortKey, dec.pendingWord_none cursor shortKey]
    · obtain ⟨keyLen, keyRead⟩ :=
        dec.exists_pendingWord cursor (by omega)
      rw [if_neg shortKey, keyRead, wordAt_of_some keyRead]
      by_cases largeKey : keyLen.toNat > dec.maxFramePayload.toNat
      · simp [largeKey]
      · simp only [if_neg largeKey]
        -- The value's length follows the key, at an offset only the key's length fixes.
        generalize cursor + (4 + keyLen.toNat) = middle
        by_cases shortValue : dec.pending < middle + 4
        · rw [if_pos shortValue, dec.pendingWord_none middle shortValue]
        · obtain ⟨valLen, valueRead⟩ :=
            dec.exists_pendingWord middle (by omega)
          rw [if_neg shortValue, valueRead, wordAt_of_some valueRead]
          simp only [ih]

private theorem tryDecodeUnknownWithSeqCount_eq :
    dec.tryDecodeUnknownWithSeqCount frameTypeDataLegacy =
      dec.follow (parseLegacy dec.maxFramePayload dec.pendingBytes) := by
  unfold tryDecodeUnknownWithSeqCount parseLegacy
  -- The header has ten bytes: version, type, sequence number and number of pairs.
  by_cases short : dec.pending < 10
  · rw [if_pos short, dec.pendingWord_none 6 short]
    rfl
  · obtain ⟨pairCount, countRead⟩ :=
      dec.exists_pendingWord 6 (by omega)
    rw [if_neg short, countRead, wordAt_of_some countRead]
    simp only [walkPairs_eq, slice_pendingBytes, pendingBytes_length, List.drop_zero]
    cases pairsEnd dec.maxFramePayload dec.pendingBytes pairCount.toNat 10 with
    | error error => rfl
    | ok stop =>
      cases stop with
      | none => rfl
      | some cursor =>
        by_cases incomplete : dec.pending < cursor
        · simp [incomplete, follow]
        · simp [incomplete, follow]

private theorem pendingBytes_header (enough : 2 ≤ dec.pending) :
    ∃ rest, dec.pendingBytes = dec.byteAt 0 :: dec.byteAt 1 :: rest := by
  rw [← dec.pendingBytes_length] at enough
  have first : dec.byteAt 0 = dec.pendingBytes.getD 0 0 := by
    simp [byteAt, pendingBytes, List.getD_eq_getElem?_getD]
  have second : dec.byteAt 1 = dec.pendingBytes.getD 1 0 := by
    simp [byteAt, pendingBytes, List.getD_eq_getElem?_getD]
  rw [first, second]
  generalize dec.pendingBytes = region at enough ⊢
  rcases region with _ | ⟨version, _ | ⟨frameType, rest⟩⟩
  · exact absurd enough (by simp)
  · exact absurd enough (by simp)
  · exact ⟨rest, rfl⟩

/-- Decoding any frame follows the grammar on the pending bytes. -/
theorem nextFrame_eq (zlib : Zlib) (dec : FrameDecoder) : dec.nextFrame zlib =
      dec.follow (parseFrame zlib dec.maxFramePayload dec.pendingBytes) := by
  unfold nextFrame
  by_cases short : dec.pending < 2
  · -- Fewer than two pending bytes do not hold a header.
    have length := dec.pendingBytes_length
    rw [if_pos short]
    rcases shape : dec.pendingBytes with _ | ⟨version, _ | ⟨frameType, rest⟩⟩
    · rfl
    · rfl
    · rw [shape] at length
      simp only [List.length_cons] at length
      omega
  · -- Otherwise both sides look at the same two header bytes.
    obtain ⟨rest, header⟩ := dec.pendingBytes_header (by omega)
    have parsed : parseFrame zlib dec.maxFramePayload dec.pendingBytes =
        if dec.byteAt 0 ≠ protocolVersion then .failed (.unsupportedVersion (dec.byteAt 0))
        else if dec.byteAt 1 = frameTypeWindow then parseWord .window dec.pendingBytes
        else if dec.byteAt 1 = frameTypeAck then parseWord .ack dec.pendingBytes
        else if dec.byteAt 1 = frameTypeJson then
          parseJson dec.maxFramePayload dec.pendingBytes
        else if dec.byteAt 1 = frameTypeCompressed then
          parseCompressed zlib dec.maxFramePayload dec.pendingBytes
        else if dec.byteAt 1 = frameTypeDataLegacy then
          parseLegacy dec.maxFramePayload dec.pendingBytes
        else .failed (.unknownFrameType (dec.byteAt 1)) := by
      rw [header]
      rfl
    rw [parsed, if_neg short]
    dsimp only
    split
    · rfl
    split
    · exact dec.tryDecodeWord_eq .window
    split
    · exact dec.tryDecodeWord_eq .ack
    split
    · exact dec.tryDecodeJson_eq
    split
    · exact dec.tryDecodeCompressed_eq zlib
    split
    · exact dec.tryDecodeUnknownWithSeqCount_eq
    · rfl

/-- A returned frame was on the front of the pending bytes and has been consumed. -/
theorem nextFrame_frame {zlib : Zlib} {dec after : FrameDecoder} {frame : Frame}
    (next : dec.nextFrame zlib = (.ok (some frame), after)) :
    ∃ size, parseFrame zlib dec.maxFramePayload dec.pendingBytes = .item frame size ∧
      after = dec.advance size := by
  rw [nextFrame_eq] at next
  cases verdict : parseFrame zlib dec.maxFramePayload dec.pendingBytes with
  | needMore | failed => simp [verdict, follow] at next
  | item parsed size =>
    simp only [verdict, follow, Prod.mk.injEq, Except.ok.injEq, Option.some.injEq] at next
    exact ⟨size, by rw [next.1], next.2.symm⟩

/-- Every returned frame shortens the pending region. -/
theorem nextFrame_pending_lt {zlib : Zlib} {dec after : FrameDecoder} {frame : Frame}
    (next : dec.nextFrame zlib = (.ok (some frame), after)) : after.pending < dec.pending := by
  obtain ⟨size, parsed, rfl⟩ := nextFrame_frame next
  have sized := parseFrame_sized parsed
  rw [pendingBytes_length] at sized
  rw [advance_pending]
  omega

end FrameDecoder

end FerroProtocols.Lumberjack
