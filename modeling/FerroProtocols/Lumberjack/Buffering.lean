import FerroProtocols.Lumberjack.Chunking

/-! How many bytes a peer can make the decoder hold, and how many one frame is built from. -/

namespace FerroProtocols.Lumberjack

open BigEndian

/-- The lengths a legacy frame has declared so far, out of as many length fields from a cursor on. -/
def arrivedLengths (bytes : Bytes) : Nat → Nat → List Nat
  | 0, _ => []
  | fields + 1, cursor =>
    match wordAt bytes cursor with
    -- Nothing behind a missing length can be located.
    | none => []
    | some len => len.toNat :: arrivedLengths bytes fields (cursor + (4 + len.toNat))

/--
The bytes start a legacy frame of which at least ten bytes more than the cap have arrived.

Each length it has declared so far is within the cap, and the whole frame is longer than ten bytes and the cap.
-/
def OversizedLegacy (limit : UInt64) (bytes : Bytes) : Prop :=
  bytes.take 2 = [protocolVersion, frameTypeDataLegacy] ∧
  10 + limit.toNat ≤ bytes.length ∧
  (∀ len ∈ arrivedLengths bytes (2 * ((wordAt bytes 6).getD 0).toNat) 10, len ≤ limit.toNat) ∧
  10 + limit.toNat < 10 + 8 * ((wordAt bytes 6).getD 0).toNat +
    (arrivedLengths bytes (2 * ((wordAt bytes 6).getD 0).toNat) 10).sum

/-- A verdict within the bound: few enough bytes are held, or taken by the frame. -/
def ParseStep.Within (limit : UInt64) (bytes : Bytes) : ParseStep FrameError Frame → Prop
  | .needMore => bytes.length < 10 + limit.toNat
  | .failed _ => True
  | .item _ size => size ≤ 10 + limit.toNat

private theorem parseWord_within (limit : UInt64) (make : UInt32 → Frame) (bytes : Bytes) :
    ParseStep.Within limit bytes (parseWord make bytes) := by
  unfold parseWord
  cases word : wordAt bytes 2 with
  | none =>
    have short := wordAt_eq_none_iff.mp word
    simp only [ParseStep.Within]
    omega
  | some value =>
    simp only [ParseStep.Within]
    omega

private theorem parseJson_within (limit : UInt64) (bytes : Bytes) :
    ParseStep.Within limit bytes (parseJson limit bytes) := by
  unfold parseJson
  split
  · rename_i seq len _ _
    by_cases large : len.toNat > limit.toNat
    · simp [large, ParseStep.Within]
    · by_cases arriving : bytes.length < 10 + len.toNat
      · simp only [if_neg large, if_pos arriving, ParseStep.Within]
        omega
      · simp only [if_neg large, if_neg arriving, ParseStep.Within]
        omega
  · -- One of the two words is missing, so fewer than ten bytes are there.
    rename_i missing
    have short : bytes.length < 10 := by
      by_contra enough
      obtain ⟨seq, seqRead⟩ := exists_wordAt (show 2 + 4 ≤ bytes.length by omega)
      obtain ⟨len, lenRead⟩ := exists_wordAt (show 6 + 4 ≤ bytes.length by omega)
      exact missing seq len seqRead lenRead
    simp only [ParseStep.Within]
    omega

private theorem parseCompressed_within (zlib : Zlib) (limit : UInt64) (bytes : Bytes) :
    ParseStep.Within limit bytes (parseCompressed zlib limit bytes) := by
  unfold parseCompressed
  -- Bytes are waited for only up to a length that the limit admits.
  cases word : wordAt bytes 2 with
  | none =>
    have short := wordAt_eq_none_iff.mp word
    simp only [ParseStep.Within]
    omega
  | some len =>
    by_cases large : len.toNat > limit.toNat
    · simp [large, ParseStep.Within]
    · by_cases arriving : bytes.length < 6 + len.toNat
      · simp only [if_neg large, if_pos arriving, ParseStep.Within]
        omega
      · simp only [if_neg large, if_neg arriving]
        cases decompressCapped zlib ((bytes.drop 6).take len.toNat) limit with
        | error error => trivial
        | ok decompressed =>
          simp only [ParseStep.Within]
          omega

/--
What the pair walk finds, said through the lengths that have arrived.

It fails exactly at a length above the cap; otherwise it knows the frame's end, or that the end has not arrived.
-/
theorem pairsEnd_lengths (limit : UInt64) (bytes : Bytes) :
    ∀ pairs cursor, match pairsEnd limit bytes pairs cursor with
    | .error _ => ∃ len ∈ arrivedLengths bytes (2 * pairs) cursor, limit.toNat < len
    | .ok none => (∀ len ∈ arrivedLengths bytes (2 * pairs) cursor, len ≤ limit.toNat) ∧
        bytes.length < cursor + 8 * pairs + (arrivedLengths bytes (2 * pairs) cursor).sum
    | .ok (some stop) => (∀ len ∈ arrivedLengths bytes (2 * pairs) cursor, len ≤ limit.toNat) ∧
        stop = cursor + 8 * pairs + (arrivedLengths bytes (2 * pairs) cursor).sum := by
  intro pairs
  induction pairs with
  | zero =>
    intro cursor
    simp [pairsEnd, arrivedLengths]
  | succ pairs ih =>
    intro cursor
    simp only [pairsEnd, Nat.mul_succ, arrivedLengths]
    cases keyWord : wordAt bytes cursor with
    | none =>
      -- Fewer than four bytes are behind the cursor, and the pair needs eight.
      have short := wordAt_eq_none_iff.mp keyWord
      refine ⟨by simp, ?_⟩
      simp only [List.sum_nil]
      omega
    | some keyLen =>
      by_cases largeKey : keyLen.toNat > limit.toNat
      · simp only [if_pos largeKey]
        exact ⟨keyLen.toNat, by simp, largeKey⟩
      · simp only [if_neg largeKey]
        cases valueWord : wordAt bytes (cursor + (4 + keyLen.toNat)) with
        | none =>
          have short := wordAt_eq_none_iff.mp valueWord
          refine ⟨by simpa using largeKey, ?_⟩
          simp only [List.sum_cons, List.sum_nil]
          omega
        | some valLen =>
          by_cases largeValue : valLen.toNat > limit.toNat
          · simp only [if_pos largeValue]
            exact ⟨valLen.toNat, by simp, largeValue⟩
          · simp only [if_neg largeValue]
            have later := ih (cursor + (4 + keyLen.toNat) + (4 + valLen.toNat))
            cases walked : pairsEnd limit bytes pairs
                (cursor + (4 + keyLen.toNat) + (4 + valLen.toNat)) with
            | error error =>
              rw [walked] at later
              obtain ⟨len, member, large⟩ := later
              exact ⟨len, by simp [member], large⟩
            | ok stop =>
              rw [walked] at later
              -- The pair's own two lengths are added in front of those of the later pairs.
              cases stop with
              | none =>
                obtain ⟨small, unfinished⟩ := later
                refine ⟨?_, ?_⟩
                · simp only [List.mem_cons, forall_eq_or_imp]
                  exact ⟨by omega, by omega, small⟩
                · simp only [List.sum_cons]
                  omega
              | some last =>
                obtain ⟨small, reached⟩ := later
                refine ⟨?_, ?_⟩
                · simp only [List.mem_cons, forall_eq_or_imp]
                  exact ⟨by omega, by omega, small⟩
                · simp only [List.sum_cons]
                  omega

private theorem parseLegacy_within_iff (limit : UInt64) {bytes : Bytes}
    (header : bytes.take 2 = [protocolVersion, frameTypeDataLegacy]) :
    ParseStep.Within limit bytes (parseLegacy limit bytes) ↔ ¬ OversizedLegacy limit bytes := by
  unfold parseLegacy OversizedLegacy
  cases countWord : wordAt bytes 6 with
  | none =>
    -- Without a pair count fewer than ten bytes are there, which no cap forbids.
    have short := wordAt_eq_none_iff.mp countWord
    simp only [ParseStep.Within]
    exact iff_of_true (by omega) (fun oversized => by omega)
  | some pairCount =>
    have found := pairsEnd_lengths limit bytes pairCount.toNat 10
    simp only [Option.getD_some]
    cases walked : pairsEnd limit bytes pairCount.toNat 10 with
    | error error =>
      rw [walked] at found
      obtain ⟨len, member, large⟩ := found
      refine iff_of_true trivial ?_
      rintro ⟨_, _, small, _⟩
      exact absurd (small len member) (by omega)
    | ok stop =>
      rw [walked] at found
      cases stop with
      | none =>
        obtain ⟨small, unfinished⟩ := found
        simp only [ParseStep.Within]
        -- A frame whose end has not arrived is longer than everything that has.
        constructor
        · rintro held ⟨_, arrived, _⟩
          omega
        · intro fits
          by_contra held
          exact fits ⟨header, by omega, small, by omega⟩
      | some last =>
        obtain ⟨small, reached⟩ := found
        by_cases incomplete : bytes.length < last
        · simp only [if_pos incomplete, ParseStep.Within]
          constructor
          · rintro held ⟨_, arrived, _⟩
            omega
          · intro fits
            by_contra held
            exact fits ⟨header, by omega, small, by omega⟩
        · simp only [if_neg incomplete, ParseStep.Within]
          constructor
          · rintro taken ⟨_, _, _, long⟩
            omega
          · intro fits
            by_contra taken
            exact fits ⟨header, by omega, small, by omega⟩

private theorem parseFrame_within_iff (zlib : Zlib) (limit : UInt64) (bytes : Bytes) :
    ParseStep.Within limit bytes (parseFrame zlib limit bytes) ↔ ¬ OversizedLegacy limit bytes := by
  rcases bytes with _ | ⟨version, _ | ⟨frameType, rest⟩⟩
  · -- Neither of the two shortest inputs has a header at all.
    refine iff_of_true ?_ (fun oversized => absurd oversized.1 (by simp))
    simp only [parseFrame, ParseStep.Within, List.length_nil]
    omega
  · refine iff_of_true ?_ (fun oversized => absurd oversized.1 (by simp))
    simp only [parseFrame, ParseStep.Within, List.length_cons, List.length_nil]
    omega
  · by_cases legacy : version = protocolVersion ∧ frameType = frameTypeDataLegacy
    · obtain ⟨rfl, rfl⟩ := legacy
      exact parseLegacy_within_iff limit rfl
    · -- No other frame can be oversized, and each of the other parsers is within the bound.
      refine iff_of_true ?_ ?_
      · simp only [parseFrame]
        split
        · trivial
        rename_i versionTwo
        split
        · exact parseWord_within limit .window _
        split
        · exact parseWord_within limit .ack _
        split
        · exact parseJson_within limit _
        split
        · exact parseCompressed_within zlib limit _
        split
        · rename_i typeLegacy
          exact absurd ⟨not_not.mp versionTwo, typeLegacy⟩ legacy
        · trivial
      · rintro ⟨header, _⟩
        simp only [List.take_succ_cons, List.take_zero, List.cons.injEq, and_true] at header
        exact legacy header

/-- One use of a decoder: bytes arrive, or a frame is asked for. -/
inductive Use where
  | feed (bytes : Bytes)
  | nextFrame

namespace FrameDecoder

/-- The decoders on which a run asks for a frame, each as it was before the call. -/
def callsIn (zlib : Zlib) : FrameDecoder → List Use → List FrameDecoder
  | _, [] => []
  | dec, .feed bytes :: later => callsIn zlib (dec.feed bytes) later
  | dec, .nextFrame :: later =>
    dec :: callsIn zlib (dec.nextFrame zlib).2 later

/--
A call that keeps the buffer within one capped frame.

Without a frame fewer bytes stay pending than the largest capped frame has, and a returned frame took no more.
-/
def CallBounded (zlib : Zlib) (limit : UInt64) (dec : FrameDecoder) : Prop :=
  match dec.nextFrame zlib with
  | (.ok none, after) => after.pending < 10 + limit.toNat
  | (.ok (some _), after) => dec.pending - after.pending ≤ 10 + limit.toNat
  | (.error _, _) => True

instance (zlib : Zlib) (limit : UInt64) (dec : FrameDecoder) :
    Decidable (dec.CallBounded zlib limit) :=
  match called : dec.nextFrame zlib with
  | (.ok none, after) =>
    decidable_of_iff (after.pending < 10 + limit.toNat) (by rw [CallBounded, called])
  | (.ok (some _), after) =>
    decidable_of_iff (dec.pending - after.pending ≤ 10 + limit.toNat)
      (by rw [CallBounded, called])
  | (.error _, _) => isTrue (by rw [CallBounded, called]; trivial)

private theorem callBounded_iff (zlib : Zlib) (dec : FrameDecoder) :
    dec.CallBounded zlib dec.maxFramePayload ↔
      ¬ OversizedLegacy dec.maxFramePayload dec.pendingBytes := by
  rw [← parseFrame_within_iff zlib]
  unfold CallBounded
  rw [nextFrame_eq]
  cases verdict : parseFrame zlib dec.maxFramePayload dec.pendingBytes with
  | needMore => simp only [follow, ParseStep.Within, pendingBytes_length]
  | failed error => simp only [follow, ParseStep.Within]
  | item frame size =>
    -- The bytes a frame took are those by which the pending region shrank.
    have sized := (parseFrame_sized verdict).2
    rw [pendingBytes_length] at sized
    simp only [follow, ParseStep.Within, advance_pending]
    omega

private theorem nextFrame_maxFramePayload (zlib : Zlib) (dec : FrameDecoder) :
    (dec.nextFrame zlib).2.maxFramePayload = dec.maxFramePayload := by
  rw [nextFrame_eq]
  cases parseFrame zlib dec.maxFramePayload dec.pendingBytes <;> rfl

private theorem callsIn_maxFramePayload {zlib : Zlib} (uses : List Use) : ∀ {start dec : FrameDecoder},
    dec ∈ callsIn zlib start uses → dec.maxFramePayload = start.maxFramePayload := by
  -- No use of a decoder changes its limit.
  induction uses with
  | nil =>
    intro start dec called
    simp [callsIn] at called
  | cons use later ih =>
    intro start dec called
    cases use with
    | feed bytes => rw [ih called, feed_maxFramePayload]
    | nextFrame =>
      simp only [callsIn, List.mem_cons] at called
      rcases called with rfl | called
      · rfl
      · rw [ih called, nextFrame_maxFramePayload]

/--
Over any run of a fresh decoder, every call is bounded exactly when no call meets an oversized legacy frame.
-/
theorem callsIn_bounded_iff (zlib : Zlib) (limit : UInt64) (uses : List Use) :
    (∀ dec ∈ callsIn zlib (withMaxFramePayload limit) uses, dec.CallBounded zlib limit) ↔
      ∀ dec ∈ callsIn zlib (withMaxFramePayload limit) uses, ¬ OversizedLegacy limit dec.pendingBytes := by
  refine forall₂_congr fun dec called => ?_
  have sameCap := callsIn_maxFramePayload uses called
  rw [withMaxFramePayload_maxFramePayload] at sameCap
  subst sameCap
  exact callBounded_iff zlib dec

/-- A legacy frame of two pairs, each key and value of four bytes, passes a cap of four. -/
theorem callsIn_legacy_unbounded :
    ¬ ∀ dec ∈ callsIn ⟨fun _ _ => .error "", fun _ _ => .error ""⟩ (withMaxFramePayload 4)
        [.feed ([0x32, 0x44, 0, 0, 0, 1, 0, 0, 0, 2] ++
          (List.replicate 4 [0, 0, 0, 4, 0x61, 0x62, 0x63, 0x64]).flatten), .nextFrame],
      dec.CallBounded ⟨fun _ _ => .error "", fun _ _ => .error ""⟩ 4 := by
  decide +kernel

end FrameDecoder

end FerroProtocols.Lumberjack
