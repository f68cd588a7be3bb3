import FerroProtocols.Lib.BigEndian

/-! The Lumberjack v2 frame codec. The decoder keeps a buffer and a read position into it; lengths and
positions are natural numbers, and the caps a caller configures are 64-bit words. -/

namespace FerroProtocols.Lumberjack

/-- A string of bytes, as it appears on the wire. -/
abbrev Bytes := List UInt8

/-- The Lumberjack v2 protocol version byte, the digit two. -/
def protocolVersion : UInt8 := 0x32

/-- Wire byte of the Window frame, the letter W. -/
def frameTypeWindow : UInt8 := 0x57

/-- Wire byte of the JSON data frame, the letter J. -/
def frameTypeJson : UInt8 := 0x4A

/-- Wire byte of the Compressed frame, the letter C. -/
def frameTypeCompressed : UInt8 := 0x43

/-- Wire byte of the Ack frame, the letter A. -/
def frameTypeAck : UInt8 := 0x41

/-- Wire byte of the legacy data frame, the letter D. -/
def frameTypeDataLegacy : UInt8 := 0x44

/-- Errors met while encoding or decoding a frame. -/
inductive FrameError where
  -- The first wire byte is not the protocol version.
  | unsupportedVersion (version : UInt8)
  -- The second wire byte is not a known frame type.
  | unknownFrameType (frameType : UInt8)
  -- A length field declares more than the decoder's cap.
  | payloadTooLarge (requested limit : Nat)
  -- The zlib content of a Compressed frame is invalid.
  | decompression (message : String)
  -- The decompressed content of a Compressed frame exceeds the decoder's cap.
  | decompressedTooLarge (limit : Nat)
  -- The compressor failed while encoding.
  | compression (message : String)
  deriving DecidableEq, Repr

/-- A fully decoded frame. -/
inductive Frame where
  -- The number of data frames the sender promises before it expects an Ack.
  | window (count : UInt32)
  -- One JSON event with the sequence number its sender assigned.
  | json (seq : UInt32) (payload : Bytes)
  -- The decompressed inner frames of a batch.
  | compressed (decompressed : Bytes)
  -- The highest sequence number the receiver has processed.
  | ack (seq : UInt32)
  -- A version-two frame the codec does not interpret, with all of its raw bytes.
  | unknown (frameType : UInt8) (raw : Bytes)
  deriving DecidableEq, Repr

/--
The zlib library the codec calls.

Compression is a write of the whole input followed by finish.
Decompression reads at most the given number of output bytes, to the end of the stream or to that bound.
-/
structure Zlib where
  -- Compress at a level, or report the message of the I/O error.
  compress : UInt32 → Bytes → Except String Bytes
  -- Decompress up to a number of bytes, or report the message of the I/O error.
  readToEnd : Bytes → Nat → Except String Bytes

/-- What the codec relies on: reading back what was compressed gives the input, up to the bound. -/
def Zlib.RoundTrips (zlib : Zlib) : Prop :=
  ∀ level input compressed, zlib.compress level input = .ok compressed →
    ∀ bound, zlib.readToEnd compressed bound = .ok (input.take bound)

/-- A zlib library that always fails, for streams without batches. -/
def noZlib : Zlib := ⟨fun _ _ => .error "none", fun _ _ => .error "none"⟩

/-- The largest 32-bit word. -/
def u32Max : Nat := 2 ^ 32 - 1

/-- The largest 64-bit word. -/
def u64Max : Nat := 2 ^ 64 - 1

/-- A length as a 32-bit word, saturating at the largest one. -/
def u32OfLength (length : Nat) : UInt32 :=
  -- `u32::try_from(length).unwrap_or(u32::MAX)`.
  UInt32.ofNat (min length u32Max)

/-- Encode a Window frame. -/
def encodeWindow (count : UInt32) : Bytes :=
  protocolVersion :: frameTypeWindow :: BigEndian.toBytes count

/-- Encode an Ack frame. -/
def encodeAck (seq : UInt32) : Bytes :=
  protocolVersion :: frameTypeAck :: BigEndian.toBytes seq

/-- Encode a JSON frame, writing the payload verbatim. -/
def encodeJsonFrame (seq : UInt32) (payload : Bytes) : Bytes :=
  protocolVersion :: frameTypeJson ::
    (BigEndian.toBytes seq ++ (BigEndian.toBytes (u32OfLength payload.length) ++ payload))

/-- Encode a Compressed frame around inner frames that are already encoded. -/
def encodeCompressed (zlib : Zlib) (level : UInt32) (innerFrames : Bytes) :
    Except FrameError Bytes :=
  match zlib.compress level innerFrames with
  | .error message => .error (.compression message)
  | .ok compressed =>
    -- The length field has 32 bits, so longer output is refused rather than truncated.
    if compressed.length ≤ u32Max then
      .ok (protocolVersion :: frameTypeCompressed ::
        (BigEndian.toBytes (UInt32.ofNat compressed.length) ++ compressed))
    else .error (.payloadTooLarge compressed.length u32Max)

/-- Decompress, refusing output longer than the limit. -/
def decompressCapped (zlib : Zlib) (compressed : Bytes) (limit : UInt64) :
    Except FrameError Bytes :=
  -- One byte past the limit is read, so that reaching the limit and passing it are told apart.
  let takePlusOne := min (limit.toNat + 1) u64Max
  match zlib.readToEnd compressed takePlusOne with
  | .error message => .error (.decompression message)
  | .ok out =>
    if out.length > limit.toNat then .error (.decompressedTooLarge limit.toNat) else .ok out

/--
The streaming decoder.

Bytes before the read position are consumed and wait for the next compaction.
-/
structure FrameDecoder where
  -- Every byte fed and not yet compacted away.
  buf : Bytes
  -- How much of the buffer has been consumed.
  readPos : Nat
  -- The most bytes one frame's payload, or the inner content of a batch, may occupy.
  maxFramePayload : UInt64
  -- The read position never leaves the buffer.
  consumed : readPos ≤ buf.length

namespace FrameDecoder

/-- A decoder with a custom cap on each frame. -/
def withMaxFramePayload (maxFramePayload : UInt64) : FrameDecoder :=
  ⟨[], 0, maxFramePayload, Nat.le_refl 0⟩

/-- Append bytes, compacting first when at least half of the buffer has been consumed. -/
def feed (dec : FrameDecoder) (bytes : Bytes) : FrameDecoder :=
  if 0 < dec.readPos ∧ dec.readPos ≥ dec.buf.length / 2 then
    ⟨dec.buf.drop dec.readPos ++ bytes, 0, dec.maxFramePayload, Nat.zero_le _⟩
  else
    ⟨dec.buf ++ bytes, dec.readPos, dec.maxFramePayload, by
      have := dec.consumed
      simp only [List.length_append]
      omega⟩

/-- How many fed bytes remain unconsumed. -/
def pending (dec : FrameDecoder) : Nat :=
  dec.buf.length - dec.readPos

/-- The byte at an offset past the read position. -/
def byteAt (dec : FrameDecoder) (offset : Nat) : UInt8 :=
  -- Indexing is only reached with the byte pending, so the default is never used.
  dec.buf.getD (dec.readPos + offset) 0

/-- The four bytes at an offset past the read position, when they are there. -/
def readAt (dec : FrameDecoder) (offset : Nat) : Option UInt32 :=
  let start := dec.readPos + offset
  if dec.buf.length < start + 4 then none else BigEndian.wordAt dec.buf start

/-- The word a bound check has just shown to be there. -/
def wordAt (dec : FrameDecoder) (offset : Nat) : UInt32 :=
  -- The source unwraps here, and every caller has checked the bound, so the default is never used.
  (dec.readAt offset).getD 0

/-- The bytes of the pending region from an offset on, as many as are asked for. -/
def slice (dec : FrameDecoder) (offset length : Nat) : Bytes :=
  (dec.buf.drop (dec.readPos + offset)).take length

/-- Consume bytes that are pending. -/
def advance (dec : FrameDecoder) (size : Nat) : FrameDecoder :=
  -- Every caller has checked that the bytes are pending, so the bound is never met.
  ⟨dec.buf, min (dec.readPos + size) dec.buf.length, dec.maxFramePayload,
    Nat.min_le_right _ _⟩

/-- Decode a frame that is its header and one word, six bytes in all. -/
def tryDecodeWord (dec : FrameDecoder) (make : UInt32 → Frame) :
    Option Frame × FrameDecoder :=
  if dec.pending < 6 then (none, dec)
  else (some (make (dec.wordAt 2)), dec.advance 6)

/-- Decode a Window frame, whose word is its count. -/
def tryDecodeWindow (dec : FrameDecoder) : Option Frame × FrameDecoder :=
  dec.tryDecodeWord .window

/-- Decode an Ack frame, whose word is its sequence number. -/
def tryDecodeAck (dec : FrameDecoder) : Option Frame × FrameDecoder :=
  dec.tryDecodeWord .ack

/-- Decode a JSON frame: a sequence number, a length and that many bytes of payload. -/
def tryDecodeJson (dec : FrameDecoder) : Except FrameError (Option Frame) × FrameDecoder :=
  if dec.pending < 10 then (.ok none, dec)
  else
    let seq := dec.wordAt 2
    let len := (dec.wordAt 6).toNat
    if len > dec.maxFramePayload.toNat then
      (.error (.payloadTooLarge len dec.maxFramePayload.toNat), dec)
    else if dec.pending < 10 + len then (.ok none, dec)
    else
      let payload := dec.slice 10 len
      (.ok (some (.json seq payload)), dec.advance (10 + len))

/-- Decode a Compressed frame: a length and that many bytes of zlib data. -/
def tryDecodeCompressed (zlib : Zlib) (dec : FrameDecoder) :
    Except FrameError (Option Frame) × FrameDecoder :=
  if dec.pending < 6 then (.ok none, dec)
  else
    let len := (dec.wordAt 2).toNat
    if len > dec.maxFramePayload.toNat then
      (.error (.payloadTooLarge len dec.maxFramePayload.toNat), dec)
    else if dec.pending < 6 + len then (.ok none, dec)
    else
      match decompressCapped zlib (dec.slice 6 len) dec.maxFramePayload with
      | .error error => (.error error, dec)
      | .ok decompressed => (.ok (some (.compressed decompressed)), dec.advance (6 + len))

/--
Walk the key and value lengths of a legacy frame without copying, from a cursor past its header.

The answer is the cursor behind the last pair, or nothing while a length has not arrived.
-/
def walkPairs (dec : FrameDecoder) : Nat → Nat → Except FrameError (Option Nat)
  | 0, cursor => .ok (some cursor)
  | pairs + 1, cursor =>
    if dec.pending < cursor + 4 then .ok none
    else
      let keyLen := (dec.wordAt cursor).toNat
      if keyLen > dec.maxFramePayload.toNat then
        .error (.payloadTooLarge keyLen dec.maxFramePayload.toNat)
      else
        let cursor := cursor + (4 + keyLen)
        if dec.pending < cursor + 4 then .ok none
        else
          let valLen := (dec.wordAt cursor).toNat
          if valLen > dec.maxFramePayload.toNat then
            .error (.payloadTooLarge valLen dec.maxFramePayload.toNat)
          else walkPairs dec pairs (cursor + (4 + valLen))

/-- Scan past a legacy frame, whose length only its own pairs reveal, and surface its raw bytes. -/
def tryDecodeUnknownWithSeqCount (dec : FrameDecoder) (typeByte : UInt8) :
    Except FrameError (Option Frame) × FrameDecoder :=
  if dec.pending < 10 then (.ok none, dec)
  else
    let pairCount := (dec.wordAt 6).toNat
    match dec.walkPairs pairCount 10 with
    | .error error => (.error error, dec)
    | .ok none => (.ok none, dec)
    | .ok (some cursor) =>
      if dec.pending < cursor then (.ok none, dec)
      else
        let raw := dec.slice 0 cursor
        (.ok (some (.unknown typeByte raw)), dec.advance cursor)

/-- Try to decode one frame from the pending bytes. -/
def nextFrame (zlib : Zlib) (dec : FrameDecoder) :
    Except FrameError (Option Frame) × FrameDecoder :=
  if dec.pending < 2 then (.ok none, dec)
  else
    let version := dec.byteAt 0
    if version ≠ protocolVersion then (.error (.unsupportedVersion version), dec)
    else
      let frameType := dec.byteAt 1
      if frameType = frameTypeWindow then
        (.ok dec.tryDecodeWindow.1, dec.tryDecodeWindow.2)
      else if frameType = frameTypeAck then (.ok dec.tryDecodeAck.1, dec.tryDecodeAck.2)
      else if frameType = frameTypeJson then dec.tryDecodeJson
      else if frameType = frameTypeCompressed then dec.tryDecodeCompressed zlib
      else if frameType = frameTypeDataLegacy then
        dec.tryDecodeUnknownWithSeqCount frameTypeDataLegacy
      else (.error (.unknownFrameType frameType), dec)

end FrameDecoder

end FerroProtocols.Lumberjack
