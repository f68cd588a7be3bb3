import FerroProtocols.Lib.StreamParser
import FerroProtocols.Lumberjack.Frame

/-! The frame grammar, read off the front of a byte string without any decoder state. -/

namespace FerroProtocols.Lumberjack

open BigEndian

/-- A frame that is its header and one word. -/
def parseWord (make : UInt32 → Frame) (bytes : Bytes) : ParseStep FrameError Frame :=
  match wordAt bytes 2 with
  | none => .needMore
  | some word => .item (make word) 6

/-- A sequence number, a length and that many bytes. -/
def parseJson (limit : UInt64) (bytes : Bytes) : ParseStep FrameError Frame :=
  match wordAt bytes 2, wordAt bytes 6 with
  | some seq, some len =>
    if len.toNat > limit.toNat then .failed (.payloadTooLarge len.toNat limit.toNat)
    else if bytes.length < 10 + len.toNat then .needMore
    else .item (.json seq ((bytes.drop 10).take len.toNat)) (10 + len.toNat)
  | _, _ => .needMore

/-- A length and that many bytes of zlib data. -/
def parseCompressed (zlib : Zlib) (limit : UInt64) (bytes : Bytes) : ParseStep FrameError Frame :=
  match wordAt bytes 2 with
  | none => .needMore
  | some len =>
    if len.toNat > limit.toNat then .failed (.payloadTooLarge len.toNat limit.toNat)
    else if bytes.length < 6 + len.toNat then .needMore
    else
      match decompressCapped zlib ((bytes.drop 6).take len.toNat) limit with
      | .error error => .failed error
      | .ok decompressed => .item (.compressed decompressed) (6 + len.toNat)

/-- The cursor behind the pairs of a legacy frame, or nothing while a length has not arrived. -/
def pairsEnd (limit : UInt64) (bytes : Bytes) : Nat → Nat → Except FrameError (Option Nat)
  | 0, cursor => .ok (some cursor)
  | pairs + 1, cursor =>
    -- A length that has arrived is checked even while the text behind it has not.
    match wordAt bytes cursor with
    | none => .ok none
    | some keyLen =>
      if keyLen.toNat > limit.toNat then
        .error (.payloadTooLarge keyLen.toNat limit.toNat)
      else
        match wordAt bytes (cursor + (4 + keyLen.toNat)) with
        | none => .ok none
        | some valLen =>
          if valLen.toNat > limit.toNat then
            .error (.payloadTooLarge valLen.toNat limit.toNat)
          else pairsEnd limit bytes pairs (cursor + (4 + keyLen.toNat) + (4 + valLen.toNat))

/-- A sequence number, a pair count and that many length-prefixed keys and values. -/
def parseLegacy (limit : UInt64) (bytes : Bytes) : ParseStep FrameError Frame :=
  match wordAt bytes 6 with
  | none => .needMore
  | some pairCount =>
    match pairsEnd limit bytes pairCount.toNat 10 with
    | .error error => .failed error
    | .ok none => .needMore
    | .ok (some cursor) =>
      if bytes.length < cursor then .needMore
      else .item (.unknown frameTypeDataLegacy (bytes.take cursor)) cursor

/-- The frame on the front of a byte string. -/
def parseFrame (zlib : Zlib) (limit : UInt64) (bytes : Bytes) : ParseStep FrameError Frame :=
  match bytes with
  | version :: frameType :: _ =>
    if version ≠ protocolVersion then .failed (.unsupportedVersion version)
    else if frameType = frameTypeWindow then parseWord .window bytes
    else if frameType = frameTypeAck then parseWord .ack bytes
    else if frameType = frameTypeJson then parseJson limit bytes
    else if frameType = frameTypeCompressed then parseCompressed zlib limit bytes
    else if frameType = frameTypeDataLegacy then parseLegacy limit bytes
    else .failed (.unknownFrameType frameType)
  | _ => .needMore

/-- The header of a Window frame selects its parser. -/
theorem parseFrame_window (zlib : Zlib) (limit : UInt64) (rest : Bytes) :
    parseFrame zlib limit (protocolVersion :: frameTypeWindow :: rest) =
      parseWord .window (protocolVersion :: frameTypeWindow :: rest) := rfl

/-- The header of a JSON frame selects its parser. -/
theorem parseFrame_json (zlib : Zlib) (limit : UInt64) (rest : Bytes) :
    parseFrame zlib limit (protocolVersion :: frameTypeJson :: rest) =
      parseJson limit (protocolVersion :: frameTypeJson :: rest) := rfl

/-- The header of a Compressed frame selects its parser. -/
theorem parseFrame_compressed (zlib : Zlib) (limit : UInt64) (rest : Bytes) :
    parseFrame zlib limit (protocolVersion :: frameTypeCompressed :: rest) =
      parseCompressed zlib limit (protocolVersion :: frameTypeCompressed :: rest) := rfl

variable {make : UInt32 → Frame} {front bytes : Bytes} {limit : UInt64} {zlib : Zlib} {frame : Frame} {size : Nat}

private theorem parseWord_append (back : Bytes) (decided : parseWord make front ≠ .needMore) :
    parseWord make (front ++ back) = parseWord make front := by
  -- The verdict was a frame, so its word had arrived.
  unfold parseWord at decided ⊢
  cases word : wordAt front 2 with
  | none => simp [word] at decided
  | some value => simp [wordAt_append word back]

private theorem slice_append {start length : Nat} (back : Bytes) (arrived : start + length ≤ front.length) :
    ((front ++ back).drop start).take length = (front.drop start).take length := by
  grind

private theorem parseJson_append (back : Bytes) (decided : parseJson limit front ≠ .needMore) :
    parseJson limit (front ++ back) = parseJson limit front := by
  unfold parseJson at decided ⊢
  cases seqWord : wordAt front 2 with
  | none => simp [seqWord] at decided
  | some seq =>
    cases lenWord : wordAt front 6 with
    | none => simp [seqWord, lenWord] at decided
    | some len =>
      simp only [seqWord, lenWord] at decided
      simp only [wordAt_append seqWord back, wordAt_append lenWord back]
      -- An oversized length is refused at once, and otherwise the payload has arrived.
      by_cases large : len.toNat > limit.toNat
      · simp [large]
      · by_cases short : front.length < 10 + len.toNat
        · simp [large, short] at decided
        · have longer : ¬ (front ++ back).length < 10 + len.toNat := by
            grind
          simp only [large, short, longer, if_false]
          rw [slice_append back (by omega)]

private theorem parseCompressed_append (back : Bytes) (decided : parseCompressed zlib limit front ≠ .needMore) :
    parseCompressed zlib limit (front ++ back) = parseCompressed zlib limit front := by
  unfold parseCompressed at decided ⊢
  cases lenWord : wordAt front 2 with
  | none => simp [lenWord] at decided
  | some len =>
    simp only [lenWord] at decided
    simp only [wordAt_append lenWord back]
    by_cases large : len.toNat > limit.toNat
    · simp [large]
    · by_cases short : front.length < 6 + len.toNat
      · simp [large, short] at decided
      · have longer : ¬ (front ++ back).length < 6 + len.toNat := by
          grind
        -- The zlib data is the same slice, so the library answers the same.
        simp only [large, short, longer, if_false]
        rw [slice_append back (by omega)]

private theorem pairsEnd_append (back : Bytes) :
    ∀ {pairs cursor : Nat}, pairsEnd limit front pairs cursor ≠ .ok none →
      pairsEnd limit (front ++ back) pairs cursor = pairsEnd limit front pairs cursor := by
  -- The walk reads two words a pair, and each of them had arrived.
  intro pairs
  induction pairs with
  | zero => intros; rfl
  | succ pairs ih =>
    intro cursor decided
    simp only [pairsEnd] at decided ⊢
    cases keyWord : wordAt front cursor with
    | none => simp [keyWord] at decided
    | some keyLen =>
      simp only [keyWord] at decided
      simp only [wordAt_append keyWord back]
      by_cases largeKey : keyLen.toNat > limit.toNat
      · simp [largeKey]
      · simp only [largeKey, if_false] at decided ⊢
        cases valueWord : wordAt front (cursor + (4 + keyLen.toNat)) with
        | none => simp [valueWord] at decided
        | some valLen =>
          simp only [valueWord] at decided
          simp only [wordAt_append valueWord back]
          by_cases largeValue : valLen.toNat > limit.toNat
          · simp [largeValue]
          · simp only [largeValue, if_false] at decided ⊢
            exact ih decided

private theorem pairsEnd_ge : ∀ {pairs cursor stop : Nat}, pairsEnd limit bytes pairs cursor = .ok (some stop) →
      cursor ≤ stop := by
  intro pairs
  -- Each pair moves the cursor by eight bytes at least.
  induction pairs with
  | zero =>
    intro cursor stop walked
    simp only [pairsEnd, Except.ok.injEq, Option.some.injEq] at walked
    omega
  | succ pairs ih =>
    intro cursor stop walked
    simp only [pairsEnd] at walked
    split at walked
    · cases walked
    · split at walked
      · cases walked
      · split at walked
        · cases walked
        · split at walked
          · cases walked
          · have := ih walked
            omega

private theorem parseLegacy_append (back : Bytes) (decided : parseLegacy limit front ≠ .needMore) :
    parseLegacy limit (front ++ back) = parseLegacy limit front := by
  unfold parseLegacy at decided ⊢
  cases countWord : wordAt front 6 with
  | none => simp [countWord] at decided
  | some pairCount =>
    simp only [countWord] at decided
    simp only [wordAt_append countWord back]
    cases walked : pairsEnd limit front pairCount.toNat 10 with
    | error error => rw [pairsEnd_append back (by simp [walked]), walked]
    | ok stop =>
      cases stop with
      | none => simp [walked] at decided
      | some cursor =>
        rw [pairsEnd_append back (by simp [walked]), walked]
        simp only [walked] at decided
        -- The raw bytes of the frame precede everything that is appended.
        by_cases short : front.length < cursor
        · simp [short] at decided
        · have longer : ¬ (front ++ back).length < cursor := by
            grind
          simp only [short, longer, if_false]
          rw [List.take_append_of_le_length (by omega)]

/-- Any decided frame is decided the same whatever follows it. -/
theorem parseFrame_append (front back : Bytes) (decided : parseFrame zlib limit front ≠ .needMore) :
    parseFrame zlib limit (front ++ back) = parseFrame zlib limit front := by
  rcases front with _ | ⟨version, _ | ⟨frameType, rest⟩⟩
  · exact absurd rfl decided
  · exact absurd rfl decided
  · -- Both header bytes are in the front, so both sides take the same arm.
    show parseFrame zlib limit (version :: frameType :: (rest ++ back)) = _
    simp only [parseFrame] at decided ⊢
    by_cases versionBad : version ≠ protocolVersion
    · simp [versionBad]
    · simp only [versionBad, if_false] at decided ⊢
      -- The five frame types are tried in the order the codec tries them.
      by_cases window : frameType = frameTypeWindow
      · simp only [if_pos window] at decided ⊢
        exact parseWord_append back decided
      by_cases ack : frameType = frameTypeAck
      · simp only [if_neg window, if_pos ack] at decided ⊢
        exact parseWord_append back decided
      by_cases json : frameType = frameTypeJson
      · simp only [if_neg window, if_neg ack, if_pos json] at decided ⊢
        exact parseJson_append back decided
      by_cases compressed : frameType = frameTypeCompressed
      · simp only [if_neg window, if_neg ack, if_neg json, if_pos compressed] at decided ⊢
        exact parseCompressed_append back decided
      by_cases legacy : frameType = frameTypeDataLegacy
      · simp only [if_neg window, if_neg ack, if_neg json, if_neg compressed, if_pos legacy]
          at decided ⊢
        exact parseLegacy_append back decided
      · grind

private theorem parseWord_sized
    (parsed : parseWord make bytes = .item frame size) : 0 < size ∧ size ≤ bytes.length := by
  unfold parseWord at parsed
  cases word : wordAt bytes 2 with
  | none => simp [word] at parsed
  | some value =>
    have within := wordAt_within word
    simp only [word, ParseStep.item.injEq] at parsed
    omega

private theorem parseJson_sized
    (parsed : parseJson limit bytes = .item frame size) : 0 < size ∧ size ≤ bytes.length := by
  unfold parseJson at parsed
  split at parsed
  · split at parsed
    · cases parsed
    · split at parsed
      · cases parsed
      · grind
  · cases parsed

private theorem parseCompressed_sized (parsed : parseCompressed zlib limit bytes = .item frame size) :
    0 < size ∧ size ≤ bytes.length := by
  -- The last check is that the whole payload has arrived.
  unfold parseCompressed at parsed
  split at parsed
  · cases parsed
  · split at parsed
    · cases parsed
    · split at parsed
      · cases parsed
      · rename_i arrived
        split at parsed
        · cases parsed
        · grind

private theorem parseLegacy_sized
    (parsed : parseLegacy limit bytes = .item frame size) : 0 < size ∧ size ≤ bytes.length := by
  unfold parseLegacy at parsed
  split at parsed
  · cases parsed
  · split at parsed
    · cases parsed
    · cases parsed
    · rename_i walked
      have := pairsEnd_ge walked
      split at parsed
      · cases parsed
      · grind

private theorem parseWord_take
    (parsed : parseWord make bytes = .item frame size) : parseWord make (bytes.take size) = .item frame size := by
  unfold parseWord at parsed ⊢
  cases word : wordAt bytes 2 with
  | none => simp [word] at parsed
  | some value =>
    rw [word] at parsed
    cases parsed
    rw [wordAt_take word (by omega)]

private theorem parseJson_take
    (parsed : parseJson limit bytes = .item frame size) : parseJson limit (bytes.take size) = .item frame size := by
  have within := (parseJson_sized parsed).2
  -- All that is asked is that the words and the payload have arrived: then the rest of the bytes changes nothing.
  have decided : parseJson limit (bytes.take size) ≠ .needMore := by
    unfold parseJson at parsed ⊢
    split at parsed
    · rename_i seq len seqWord lenWord
      split at parsed
      · cases parsed
      rename_i fits
      split at parsed
      · cases parsed
      cases parsed
      rw [wordAt_take seqWord (by omega), wordAt_take lenWord (by omega)]
      have arrived : ¬ (bytes.take (10 + len.toNat)).length < 10 + len.toNat := by grind
      simp only [if_neg fits, if_neg arrived]
      simp
    · cases parsed
  have same := parseJson_append (bytes.drop size) decided
  rw [List.take_append_drop] at same
  rw [← same, parsed]

private theorem parseCompressed_take (parsed : parseCompressed zlib limit bytes = .item frame size) :
    parseCompressed zlib limit (bytes.take size) = .item frame size := by
  have within := (parseCompressed_sized parsed).2
  have decided : parseCompressed zlib limit (bytes.take size) ≠ .needMore := by
    unfold parseCompressed at parsed ⊢
    split at parsed
    · cases parsed
    rename_i len lenWord
    split at parsed
    · cases parsed
    rename_i fits
    split at parsed
    · cases parsed
    split at parsed
    · cases parsed
    cases parsed
    rw [wordAt_take lenWord (by omega)]
    have arrived : ¬ (bytes.take (6 + len.toNat)).length < 6 + len.toNat := by grind
    simp only [if_neg fits, if_neg arrived]
    split <;> simp
  have same := parseCompressed_append (bytes.drop size) decided
  rw [List.take_append_drop] at same
  rw [← same, parsed]

private theorem pairsEnd_take : ∀ {pairs cursor stop : Nat},
    pairsEnd limit bytes pairs cursor = .ok (some stop) → stop ≤ size →
      pairsEnd limit (bytes.take size) pairs cursor = .ok (some stop) := by
  intro pairs
  induction pairs with
  | zero =>
    intro cursor stop walked _
    exact walked
  | succ pairs ih =>
    intro cursor stop walked within
    simp only [pairsEnd] at walked ⊢
    split at walked
    · cases walked
    rename_i keyLen keyWord
    split at walked
    · cases walked
    rename_i fitsKey
    split at walked
    · cases walked
    rename_i valLen valueWord
    split at walked
    · cases walked
    rename_i fitsValue
    -- Both lengths lie before the end of the walk.
    have reached := pairsEnd_ge walked
    rw [wordAt_take keyWord (by omega)]
    simp only [if_neg fitsKey]
    rw [wordAt_take valueWord (by omega)]
    simp only [if_neg fitsValue]
    exact ih walked within

private theorem parseLegacy_take
    (parsed : parseLegacy limit bytes = .item frame size) :
    parseLegacy limit (bytes.take size) = .item frame size := by
  have within := (parseLegacy_sized parsed).2
  unfold parseLegacy at parsed ⊢
  split at parsed
  · cases parsed
  rename_i pairCount countWord
  split at parsed
  · cases parsed
  · cases parsed
  rename_i walked
  have reached := pairsEnd_ge walked
  split at parsed
  · cases parsed
  cases parsed
  rw [wordAt_take countWord (by omega)]
  have arrived : ¬ (bytes.take size).length < size := by grind
  simp only [pairsEnd_take walked (Nat.le_refl size), if_neg arrived, List.take_take, Nat.min_self]

private theorem parseFrame_item (parsed : parseFrame zlib limit bytes = .item frame size) :
    parseWord .window bytes = .item frame size ∨ parseWord .ack bytes = .item frame size ∨
      parseJson limit bytes = .item frame size ∨ parseCompressed zlib limit bytes = .item frame size ∨
      parseLegacy limit bytes = .item frame size := by
  -- One branch per type of frame, in the order of the source.
  unfold parseFrame at parsed
  split at parsed
  · split at parsed
    · cases parsed
    split at parsed
    · exact .inl parsed
    split at parsed
    · exact .inr (.inl parsed)
    split at parsed
    · grind
    split at parsed
    · grind
    split at parsed
    · grind
    · cases parsed
  · cases parsed

/-- Every frame occupies at least one byte, and none that has not arrived. -/
theorem parseFrame_sized (parsed : parseFrame zlib limit bytes = .item frame size) :
    0 < size ∧ size ≤ bytes.length := by
  rcases parseFrame_item parsed with window | ack | json | compressed | legacy
  · exact parseWord_sized window
  · exact parseWord_sized ack
  · exact parseJson_sized json
  · exact parseCompressed_sized compressed
  · exact parseLegacy_sized legacy

/-- Parsers that choose alike read the same frame if their branches do. -/
private theorem item_of_ite {choice : Prop} [Decidable choice] {first second one other : ParseStep FrameError Frame}
    (left : first = .item frame size → one = .item frame size)
    (right : second = .item frame size → other = .item frame size)
    (parsed : (if choice then first else second) = .item frame size) :
    (if choice then one else other) = .item frame size := by
  split at parsed <;> rename_i chosen
  · exact (if_pos chosen).trans (left parsed)
  · exact (if_neg chosen).trans (right parsed)

/-- Any frame is read from the bytes it occupies. -/
theorem parseFrame_take (parsed : parseFrame zlib limit bytes = .item frame size) :
    parseFrame zlib limit (bytes.take size) = .item frame size := by
  -- The parser of the frame's kind reads those bytes alone.
  have kind : parseWord .window (bytes.take size) = .item frame size ∨
    parseWord .ack (bytes.take size) = .item frame size ∨
      parseJson limit (bytes.take size) = .item frame size ∨
      parseCompressed zlib limit (bytes.take size) = .item frame size ∨
      parseLegacy limit (bytes.take size) = .item frame size := by
    rcases parseFrame_item parsed with window | ack | json | compressed | legacy
    · exact .inl (parseWord_take window)
    · exact .inr (.inl (parseWord_take ack))
    · exact .inr (.inr (.inl (parseJson_take json)))
    · exact .inr (.inr (.inr (.inl (parseCompressed_take compressed))))
    · exact .inr (.inr (.inr (.inr (parseLegacy_take legacy))))
  have positive := (parseFrame_sized parsed).1
  rcases bytes with _ | ⟨version, _ | ⟨frameType, rest⟩⟩
  · cases parsed
  · cases parsed
  rcases size with _ | _ | more
  · omega
  · -- No frame is a single byte.
    rcases kind with impossible | impossible | impossible | impossible | impossible <;> cases impossible
  · show parseFrame zlib limit (version :: frameType :: rest.take more) = _
    simp only [parseFrame] at parsed ⊢
    refine item_of_ite (fun failed => by cases failed) (fun parsed => ?_) parsed
    refine item_of_ite parseWord_take (fun parsed => ?_) parsed
    refine item_of_ite parseWord_take (fun parsed => ?_) parsed
    refine item_of_ite parseJson_take (fun parsed => ?_) parsed
    refine item_of_ite parseCompressed_take (fun parsed => ?_) parsed
    exact item_of_ite parseLegacy_take (fun failed => by cases failed) parsed

/-- The bounds the contents of a frame are within when it is parsed under a cap. -/
def Frame.Fits (limit : UInt64) : Frame → Prop
  -- The length field has 32 bits and has been compared with the cap.
  | .json _ payload => payload.length < 2 ^ 32 ∧ payload.length ≤ limit.toNat
  | .compressed decompressed => decompressed.length ≤ limit.toNat
  | .window _ => True
  | .ack _ => True
  | .unknown _ _ => True

private theorem parseJson_fits (parsed : parseJson limit bytes = .item frame size) : frame.Fits limit := by
  -- The length was checked against the limit, and no more bytes are taken.
  unfold parseJson at parsed
  split at parsed
  · rename_i seq len _ _
    split at parsed
    · cases parsed
    · rename_i small
      split at parsed
      · cases parsed
      · simp only [ParseStep.item.injEq] at parsed
        obtain ⟨rfl, _⟩ := parsed
        have word := len.toNat_lt
        have taken := List.length_take_le len.toNat (bytes.drop 10)
        exact ⟨by omega, by omega⟩
  · cases parsed

private theorem parseCompressed_fits (parsed : parseCompressed zlib limit bytes = .item frame size) :
    frame.Fits limit := by
  unfold parseCompressed at parsed
  split at parsed
  · cases parsed
  split at parsed
  · cases parsed
  split at parsed
  · cases parsed
  split at parsed
  · cases parsed
  · rename_i decompressed capped
    simp only [ParseStep.item.injEq] at parsed
    obtain ⟨rfl, _⟩ := parsed
    -- The library's output was compared with the cap before it was returned.
    simp only [decompressCapped] at capped
    split at capped
    · cases capped
    split at capped
    · cases capped
    · rename_i small
      cases capped
      exact Nat.le_of_not_lt small

/-- Every parsed frame is within the bounds of the cap it was parsed under. -/
theorem parseFrame_fits (parsed : parseFrame zlib limit bytes = .item frame size) : frame.Fits limit := by
  have wordFits : ∀ make : UInt32 → Frame, (∀ word, (make word).Fits limit) →
      parseWord make bytes = .item frame size → frame.Fits limit := by
    intro make fits read
    unfold parseWord at read
    split at read
    · cases read
    · grind
  rcases parseFrame_item parsed with window | ack | json | compressed | legacy
  · exact wordFits .window (fun _ => trivial) window
  · exact wordFits .ack (fun _ => trivial) ack
  · exact parseJson_fits json
  · exact parseCompressed_fits compressed
  · -- A legacy frame is kept as raw bytes, of which nothing is promised here.
    unfold parseLegacy at legacy
    split at legacy
    · cases legacy
    split at legacy
    · cases legacy
    · cases legacy
    split at legacy
    · cases legacy
    · cases legacy
      trivial

/-- The frame grammar as an incremental parser. -/
def frameParser (zlib : Zlib) (limit : UInt64) : StreamParser UInt8 FrameError Frame where
  step := parseFrame zlib limit
  stable := parseFrame_append
  sized := parseFrame_sized

end FerroProtocols.Lumberjack
