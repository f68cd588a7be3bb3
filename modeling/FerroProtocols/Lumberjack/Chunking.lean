import FerroProtocols.Lumberjack.Decoder

/-! Cutting a byte stream into chunks does not change what the decoder hands out. -/

namespace FerroProtocols.Lumberjack

open StreamParser

/-- The frames a decoder has handed out, how it stopped, and the decoder it left behind. -/
structure Delivery where
  -- Every frame in the order it was returned.
  frames : List Frame
  -- The error the last call returned, or nothing when it returned no frame.
  failure : Option FrameError
  -- The decoder after the last call.
  decoder : FrameDecoder

/-- What a caller can tell about a delivery: its frames, its outcome and its unconsumed bytes. -/
def Delivery.observed (delivery : Delivery) : Drained UInt8 FrameError Frame :=
  ⟨delivery.frames, delivery.failure, delivery.decoder.pendingBytes⟩

namespace FrameDecoder

/-- Call the decoder until it returns no frame or an error. -/
def drain (zlib : Zlib) (dec : FrameDecoder) : Delivery :=
  match _called : dec.nextFrame zlib with
  | (.ok none, after) => ⟨[], none, after⟩
  | (.error error, after) => ⟨[], some error, after⟩
  | (.ok (some frame), after) =>
    let later := after.drain zlib
    ⟨frame :: later.frames, later.failure, later.decoder⟩
termination_by dec.pending
decreasing_by exact nextFrame_pending_lt _called

/-- Feed one more chunk and drain the decoder again, whatever it stopped at before. -/
def deliverChunk (zlib : Zlib) (sofar : Delivery) (chunk : Bytes) : Delivery :=
  let round := (sofar.decoder.feed chunk).drain zlib
  ⟨sofar.frames ++ round.frames, round.failure, round.decoder⟩

/-- Feed chunks one after the other, draining the decoder after each. -/
def deliver (zlib : Zlib) (dec : FrameDecoder) (chunks : List Bytes) : Delivery :=
  chunks.foldl (deliverChunk zlib) ⟨[], none, dec⟩

private theorem readPos_le_append (dec : FrameDecoder) (bytes : Bytes) :
    dec.readPos ≤ (dec.buf ++ bytes).length := by
  have within := dec.consumed
  rw [List.length_append]
  omega

/-- Feeding without ever compacting the buffer, to compare the actual feed with. -/
def feedUncompacted (dec : FrameDecoder) (bytes : Bytes) : FrameDecoder :=
  ⟨dec.buf ++ bytes, dec.readPos, dec.maxFramePayload, dec.readPos_le_append bytes⟩

private theorem drain_eq (zlib : Zlib) (dec : FrameDecoder) : dec.drain zlib =
      match parseFrame zlib dec.maxFramePayload dec.pendingBytes with
      | .needMore => ⟨[], none, dec⟩
      | .failed error => ⟨[], some error, dec⟩
      | .item frame size =>
        ⟨frame :: ((dec.advance size).drain zlib).frames,
          ((dec.advance size).drain zlib).failure,
          ((dec.advance size).drain zlib).decoder⟩ := by
  have followed := dec.nextFrame_eq zlib
  rw [drain]
  cases verdict : parseFrame zlib dec.maxFramePayload dec.pendingBytes <;>
    split <;> simp_all [follow]

private theorem drain_observed (zlib : Zlib) (dec : FrameDecoder) : (dec.drain zlib).observed =
        (frameParser zlib dec.maxFramePayload).drain dec.pendingBytes ∧
      (dec.drain zlib).decoder.maxFramePayload = dec.maxFramePayload := by
  -- Every frame shortens the pending region, so the recursion is on its length.
  induction size : dec.pending using Nat.strongRecOn generalizing dec with
  | _ length ih =>
    rw [drain_eq]
    cases verdict : parseFrame zlib dec.maxFramePayload dec.pendingBytes with
    | needMore => exact ⟨(drain_needMore verdict).symm, rfl⟩
    | failed error => exact ⟨(drain_failed verdict).symm, rfl⟩
    | item frame width =>
      have sized := parseFrame_sized verdict
      have shorter : (dec.advance width).pending < length := by
        rw [advance_pending]
        rw [pendingBytes_length] at sized
        omega
      obtain ⟨observed, sameCap⟩ := ih _ shorter (dec.advance width) rfl
      rw [advance_maxFramePayload, advance_pendingBytes] at observed
      have taken := drain_item (show (frameParser zlib dec.maxFramePayload).step
        dec.pendingBytes = .item frame width from verdict)
      rw [taken, ← observed]
      exact ⟨rfl, sameCap⟩

private theorem deliverChunk_observed {zlib : Zlib} {sofar : Delivery} {input : Bytes}
    (accounted : sofar.observed = (frameParser zlib sofar.decoder.maxFramePayload).drain input) (chunk : Bytes) :
    (deliverChunk zlib sofar chunk).observed = (frameParser zlib sofar.decoder.maxFramePayload).drain
    (input ++ chunk) ∧
      (deliverChunk zlib sofar chunk).decoder.maxFramePayload = sofar.decoder.maxFramePayload := by
  obtain ⟨observed, sameCap⟩ := drain_observed zlib (sofar.decoder.feed chunk)
  rw [feed_maxFramePayload] at observed sameCap
  rw [feed_pendingBytes] at observed
  -- What was left over is looked at again with the chunk behind it.
  have leftover : ((frameParser zlib sofar.decoder.maxFramePayload).drain input).rest =
      sofar.decoder.pendingBytes := by rw [← accounted]; rfl
  have returned : ((frameParser zlib sofar.decoder.maxFramePayload).drain input).items =
      sofar.frames := by rw [← accounted]; rfl
  rw [drain_append, leftover, returned, ← observed]
  exact ⟨rfl, sameCap⟩

private theorem foldl_deliverChunk_observed {zlib : Zlib} (chunks : List Bytes) : ∀ {sofar input},
    sofar.observed = (frameParser zlib sofar.decoder.maxFramePayload).drain input →
    (chunks.foldl (deliverChunk zlib) sofar).observed =
      (frameParser zlib sofar.decoder.maxFramePayload).drain (input ++ chunks.flatten) := by
  induction chunks with
  | nil =>
    intro sofar input accounted
    simpa using accounted
  | cons chunk rest ih =>
    intro sofar input accounted
    obtain ⟨next, sameCap⟩ := deliverChunk_observed accounted chunk
    rw [← sameCap] at next
    rw [List.foldl_cons, ih next, sameCap, List.flatten_cons, List.append_assoc]

/-- A fresh decoder delivers what its grammar drains from the whole input. -/
theorem deliver_observed (zlib : Zlib) (limit : UInt64) (chunks : List Bytes) :
    (deliver zlib (withMaxFramePayload limit) chunks).observed = (frameParser zlib limit).drain chunks.flatten := by
  -- Nothing has been fed yet, and of an empty input the grammar asks for more.
  have fresh : Delivery.observed ⟨[], none, withMaxFramePayload limit⟩ =
      (frameParser zlib limit).drain [] := (drain_needMore rfl).symm
  exact foldl_deliverChunk_observed chunks fresh

private theorem deliver_congr (zlib : Zlib) {left right : FrameDecoder}
    (sameBytes : left.pendingBytes = right.pendingBytes)
    (sameCap : left.maxFramePayload = right.maxFramePayload) (chunks : List Bytes) :
    (deliver zlib left chunks).observed = (deliver zlib right chunks).observed := by
  cases chunks with
  | nil => simp [deliver, Delivery.observed, sameBytes]
  | cons chunk rest =>
    -- One round of draining forgets how the two buffers were laid out.
    obtain ⟨leftSeen, leftCap⟩ := drain_observed zlib (left.feed chunk)
    obtain ⟨rightSeen, rightCap⟩ := drain_observed zlib (right.feed chunk)
    rw [feed_maxFramePayload] at leftSeen leftCap rightSeen rightCap
    rw [feed_pendingBytes] at leftSeen rightSeen
    have leftStart : (deliverChunk zlib ⟨[], none, left⟩ chunk).observed =
        ((left.feed chunk).drain zlib).observed := rfl
    have rightStart : (deliverChunk zlib ⟨[], none, right⟩ chunk).observed =
        ((right.feed chunk).drain zlib).observed := rfl
    rw [leftSeen, ← leftCap] at leftStart
    rw [rightSeen, ← rightCap] at rightStart
    simp only [deliver, List.foldl_cons]
    rw [foldl_deliverChunk_observed rest leftStart, foldl_deliverChunk_observed rest rightStart]
    simp [deliverChunk, leftCap, rightCap, sameCap, sameBytes]

private theorem feedUncompacted_pendingBytes (dec : FrameDecoder) (bytes : Bytes) :
    (dec.feedUncompacted bytes).pendingBytes = dec.pendingBytes ++ bytes :=
  List.drop_append_of_le_length dec.consumed

/-- A call that returns no frame leaves the decoder as it was. -/
theorem nextFrame_keeps (zlib : Zlib) (dec : FrameDecoder)
    (frameless : ∀ frame, (dec.nextFrame zlib).1 ≠ .ok (some frame)) : (dec.nextFrame zlib).2 = dec := by
  rw [nextFrame_eq] at frameless ⊢
  cases verdict : parseFrame zlib dec.maxFramePayload dec.pendingBytes with
  | needMore | failed => rfl
  | item frame size => exact absurd (by rw [verdict]; rfl) (frameless frame)

/--
The decoder is independent of chunking.

However a stream is cut, the frames, the outcome and the unconsumed bytes are those of one feed and one drain.
Compaction cannot be observed by anything fed later, and a call without a frame consumes nothing.
-/
theorem deliver_chunking_independent (zlib : Zlib) (limit : UInt64) :
    (∀ (stream : Bytes) (chunks : List Bytes), chunks.flatten = stream →
      (deliver zlib (withMaxFramePayload limit) chunks).observed =
        (((withMaxFramePayload limit).feed stream).drain zlib).observed) ∧
    (∀ (dec : FrameDecoder) (bytes : Bytes) (later : List Bytes),
      (deliver zlib (dec.feed bytes) later).observed =
        (deliver zlib (dec.feedUncompacted bytes) later).observed) ∧ (∀ dec : FrameDecoder,
      (∀ frame, (dec.nextFrame zlib).1 ≠ .ok (some frame)) → (dec.nextFrame zlib).2 = dec) := by
  refine ⟨?_, ?_, nextFrame_keeps zlib⟩
  · rintro stream chunks rfl
    -- Both sides are the grammar drained over the whole stream.
    obtain ⟨whole, _⟩ := drain_observed zlib ((withMaxFramePayload limit).feed chunks.flatten)
    simp only [feed_maxFramePayload, feed_pendingBytes, withMaxFramePayload_maxFramePayload,
      withMaxFramePayload_pendingBytes, List.nil_append] at whole
    rw [deliver_observed, whole]
  · intro dec bytes later
    have sameBytes : (dec.feed bytes).pendingBytes =
        (dec.feedUncompacted bytes).pendingBytes := by
      rw [feed_pendingBytes, feedUncompacted_pendingBytes]
    exact deliver_congr zlib sameBytes (feed_maxFramePayload dec bytes) later

/-- An ack frame cut inside its sequence number is delivered like the ack fed in one piece. -/
theorem deliver_cut_ack : (deliver ⟨fun _ _ => .error "", fun _ _ => .error ""⟩ (withMaxFramePayload 0)
        [[0x32, 0x41, 0], [0, 0, 7, 0x32]]).observed = ⟨[.ack 7], none, [0x32]⟩ := by
  have cut := (deliver_chunking_independent ⟨fun _ _ => .error "", fun _ _ => .error ""⟩ 0).1
    [0x32, 0x41, 0, 0, 0, 7, 0x32] [[0x32, 0x41, 0], [0, 0, 7, 0x32]] rfl
  rw [cut]
  decide +kernel

end FrameDecoder

end FerroProtocols.Lumberjack
