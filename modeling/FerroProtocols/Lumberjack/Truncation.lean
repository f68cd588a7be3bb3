import FerroProtocols.Lumberjack.Batching
import FerroProtocols.Lumberjack.Buffering

/-! What a batch may hold that contributes to an accepted window. -/

namespace FerroProtocols.Lumberjack

/-- A call that reads a window takes a batch off the connection. -/
def ServerConnection.Consumes (zlib : Zlib) (conn : ServerConnection) (content : Bytes) : Prop :=
  ∃ reader, (Reader.machine zlib).Reaches ⟨conn, .start, .outer⟩ reader ∧ reader.position = .outer ∧
    reader.upcoming zlib = some (.compressed content)

namespace StreamConfig

private theorem isData_of_acceptBatch {config : StreamConfig} {frames : List Frame} {state after : WindowState}
    (accepted : config.acceptBatch state frames = .ok after) : ∀ frame ∈ frames, frame.isData = true := by
  induction frames generalizing state with
  | nil => exact fun frame impossible => (by cases impossible)
  | cons frame rest ih =>
    rw [acceptBatch] at accepted
    cases inner : config.acceptInner state frame with
    | error error =>
      rw [inner] at accepted
      cases accepted
    | ok next =>
      rw [inner] at accepted
      intro other member
      rcases List.mem_cons.mp member with rfl | later
      · cases other with
        | json | unknown => rfl
        | window | compressed | ack => cases inner
      · exact ih accepted other later

private theorem clean_of_acceptDrained {config : StreamConfig} {state : WindowState}
    {drained : Drained UInt8 FrameError Frame}
    {progress : Progress} (accepted : config.acceptDrained state drained = .ok progress) :
    drained.failure = none ∧ ∀ frame ∈ drained.items, frame.isData = true := by
  unfold acceptDrained at accepted
  split at accepted
  · cases accepted
  rename_i after batch
  split at accepted
  · cases accepted
  rename_i clean
  exact ⟨clean, isData_of_acceptBatch batch⟩

end StreamConfig

private theorem exists_dataBytes_of_drain {zlib : Zlib} {cap : UInt64} {content : Bytes}
    (allData : ∀ frame ∈ ((frameParser zlib cap).drain content).items, frame.isData = true) :
    ∃ data : List (DataBytes zlib cap), content = dataBytes data ++ ((frameParser zlib cap).drain content).rest := by
  obtain ⟨pieces, cut, items, each⟩ := @StreamParser.exists_pieces _ _ _ (frameParser zlib cap)
    (fun parsed => parseFrame_take parsed) content
  rw [items] at allData
  -- Each piece is the bytes of its frame.
  obtain ⟨data, bytes⟩ : ∃ data : List (DataBytes zlib cap), dataBytes data = pieces.flatMap Prod.fst := by
    clear cut items
    induction pieces with
    | nil => exact ⟨[], rfl⟩
    | cons piece later ih =>
      obtain ⟨data, bytes⟩ := ih (fun frame member => allData frame (List.mem_cons_of_mem _ member))
        fun other member => each other (List.mem_cons_of_mem _ member)
      refine ⟨⟨piece.1, piece.2, each piece List.mem_cons_self, allData piece.2 List.mem_cons_self⟩ :: data, ?_⟩
      rw [List.flatMap_cons, ← bytes]
      rfl
  exact ⟨data, by rw [bytes]; exact cut⟩

/-- The reader that takes a batch off the connection and comes to a window has accepted the batch. -/
theorem ServerConnection.Consumes.accepted {zlib : Zlib} {conn : ServerConnection} {content : Bytes}
    {window : Window}
    (consumed : conn.Consumes zlib content) (returned : (conn.readWindow zlib).1 = .ok (some window)) :
    ∃ state progress, conn.config.acceptDrained state ((frameParser zlib conn.maxFramePayload).drain content) =
      .ok progress := by
  obtain ⟨⟨current, state, position⟩, reached, outer, upcoming⟩ := consumed
  have here : position = .outer := outer
  subst here
  -- The call goes on from here, with the configuration it started with.
  have same := reached.run_eq
  have read := Reader.run_outer zlib current state
  rw [← same] at read
  have config : current.config = conn.config := by
    rw [← read.2.2]
    exact (ServerConnection.readWindow_eq zlib conn).2.2
  -- The batch is the frame on the front of what is left of the stream.
  have called := current.decoder.nextFrame_eq zlib
  cases verdict : parseFrame zlib current.decoder.maxFramePayload current.decoder.pendingBytes with
  | needMore | failed => simp [Reader.upcoming, called, verdict, FrameDecoder.follow] at upcoming
  | item frame size =>
    simp only [Reader.upcoming, called, verdict, FrameDecoder.follow, Option.some.injEq] at upcoming
    subst upcoming
    have taken : parseFrame zlib current.config.frameCap current.stream = .item (.compressed content) size :=
      StreamParser.step_append_item (show (frameParser zlib _).step _ = _ from verdict) _
    have result := read.1
    rw [StreamConfig.readStream_item taken] at result
    cases drained : current.config.acceptFrame zlib state (.compressed content) with
    | error error =>
      rw [drained] at result
      rw [readWindow, result] at returned
      cases returned
    | ok progress =>
      rw [config] at drained
      exact ⟨state, progress, drained⟩

section Sizes

open BigEndian

/-- How many bytes the data frame on the front of a byte string declares that it has. -/
def declaredSize (bytes : Bytes) : Option Nat :=
  match bytes with
  | _ :: frameType :: _ =>
    let field := ((wordAt bytes 6).getD 0).toNat
    if frameType = frameTypeJson then some (10 + field)
    else if frameType = frameTypeDataLegacy then some (10 + 8 * field + (arrivedLengths bytes (2 * field) 10).sum)
    else none
  | _ => none

/-- The sizes that the data frames in a byte string declare add up to its length. -/
inductive AddsUp : Bytes → Prop where
  | nil : AddsUp []
  | frame {bytes : Bytes} {size : Nat} (declared : declaredSize bytes = some size) (within : size ≤ bytes.length)
    (later : AddsUp (bytes.drop size)) : AddsUp bytes

variable {zlib : Zlib} {cap : UInt64} {bytes : Bytes}

/-- A step that parses the frame on the front goes by the size that the frame declares. -/
def ParseStep.GoesBy (declared length : Nat) : ParseStep FrameError Frame → Prop
  | .needMore => length < declared
  | .failed _ => True
  | .item _ size => declared = size

variable {step : ParseStep FrameError Frame}

private theorem goesBy_json (parsed : parseJson cap bytes = step) :
    ParseStep.GoesBy (10 + ((wordAt bytes 6).getD 0).toNat) bytes.length step := by
  rw [← parsed, parseJson]
  split
  · rename_i seq len _ lenWord
    rw [lenWord, Option.getD_some]
    split
    · trivial
    · split
      · assumption
      · rfl
  · rename_i missing
    show bytes.length < _
    by_contra enough
    obtain ⟨seq, seqRead⟩ := exists_wordAt (show 2 + 4 ≤ bytes.length by omega)
    obtain ⟨len, lenRead⟩ := exists_wordAt (show 6 + 4 ≤ bytes.length by omega)
    exact missing seq len seqRead lenRead

private theorem goesBy_legacy (parsed : parseLegacy cap bytes = step) :
    ParseStep.GoesBy (10 + 8 * ((wordAt bytes 6).getD 0).toNat +
      (arrivedLengths bytes (2 * ((wordAt bytes 6).getD 0).toNat) 10).sum) bytes.length step := by
  rw [← parsed, parseLegacy]
  cases countWord : wordAt bytes 6 with
  | none =>
    have short := wordAt_eq_none_iff.mp countWord
    show bytes.length < _
    omega
  | some count =>
    have found := pairsEnd_lengths cap bytes count.toNat 10
    simp only [Option.getD_some]
    cases walked : pairsEnd cap bytes count.toNat 10 with
    | error error => trivial
    | ok stop =>
      rw [walked] at found
      cases stop with
      | none => exact found.2
      | some last =>
        rw [← found.2]
        dsimp only
        split
        · assumption
        · rfl

private theorem isData_parseWord {make : UInt32 → Frame} {frame : Frame} {size : Nat}
    (noData : ∀ word, (make word).isData = false)
    (parsed : parseWord make bytes = .item frame size) : frame.isData = false := by
  unfold parseWord at parsed
  split at parsed
  · cases parsed
  · cases parsed
    exact noData _

private theorem isData_parseCompressed {frame : Frame} {size : Nat}
    (parsed : parseCompressed zlib cap bytes = .item frame size) :
    frame.isData = false := by
  unfold parseCompressed at parsed
  grind [Frame.isData]

/-- The size of a data frame is the one it declares. -/
theorem declaredSize_of_item {frame : Frame} {size : Nat} (parsed : parseFrame zlib cap bytes = .item frame size)
    (isData : frame.isData = true) : declaredSize bytes = some size := by
  unfold parseFrame at parsed
  split at parsed
  · split at parsed
    · cases parsed
    split at parsed
    · exact absurd isData (by simp [isData_parseWord (fun _ => rfl) parsed])
    split at parsed
    · exact absurd isData (by simp [isData_parseWord (fun _ => rfl) parsed])
    split at parsed
    · rename_i json
      subst json
      exact congrArg some (goesBy_json parsed)
    split at parsed
    · exact absurd isData (by simp [isData_parseCompressed parsed])
    split at parsed
    · rename_i legacy
      subst legacy
      exact congrArg some (goesBy_legacy parsed)
    · cases parsed
  · cases parsed

/-- Where more bytes are needed, a size that is declared is more than there is. -/
theorem lt_of_needMore {size : Nat} (parsed : parseFrame zlib cap bytes = .needMore)
    (declared : declaredSize bytes = some size) : bytes.length < size := by
  unfold declaredSize at declared
  split at declared
  · rename_i version frameType rest
    have isTwo : version = protocolVersion := by
      by_contra other
      rw [parseFrame, if_pos other] at parsed
      cases parsed
    subst isTwo
    dsimp only at declared
    split at declared
    · rename_i json
      subst json
      cases declared
      exact @goesBy_json cap _ _ parsed
    split at declared
    · rename_i legacy
      subst legacy
      cases declared
      exact @goesBy_legacy cap _ _ parsed
    · cases declared
  · cases declared

/-- Data frames add up. -/
theorem addsUp_dataBytes (data : List (DataBytes zlib cap)) : AddsUp (dataBytes data) := by
  induction data with
  | nil => exact .nil
  | cons item later ih =>
    have parsed : parseFrame zlib cap (item.bytes ++ dataBytes later) = .item item.frame item.bytes.length :=
      StreamParser.step_append_item (show (frameParser zlib cap).step _ = _ from item.decodes) _
    change AddsUp (item.bytes ++ dataBytes later)
    refine .frame (declaredSize_of_item parsed item.isData) (by simp) ?_
    rw [List.drop_left]
    exact ih

/-- Where data frames and a beginning of a frame add up, the beginning is empty. -/
theorem AddsUp.rest_eq_nil {rest : Bytes} (parsed : parseFrame zlib cap rest = .needMore) :
    ∀ {data : List (DataBytes zlib cap)}, AddsUp (dataBytes data ++ rest) → rest = [] := by
  intro data
  induction data with
  | nil =>
    intro adds
    cases adds with
    | nil => rfl
    | frame declared within later => exact absurd within (Nat.not_le_of_lt (lt_of_needMore parsed declared))
  | cons item later ih =>
    intro adds
    have first : parseFrame zlib cap (item.bytes ++ (dataBytes later ++ rest)) =
        .item item.frame item.bytes.length :=
      StreamParser.step_append_item (show (frameParser zlib cap).step _ = _ from item.decodes) _
    have same : dataBytes (item :: later) ++ rest = item.bytes ++ (dataBytes later ++ rest) := List.append_assoc ..
    rw [same] at adds
    have sized := declaredSize_of_item first item.isData
    generalize whole : item.bytes ++ (dataBytes later ++ rest) = bytes at adds sized
    cases adds with
    | nil => cases sized
    | frame declared within behind =>
      cases declared.symm.trans sized
      rw [← whole, List.drop_left] at behind
      exact ih behind

end Sizes

/-- A batch behind an accepted window is whole data frames exactly if the sizes that its frames declare add up to its
length. What is left otherwise is the beginning of a frame, which is dropped. -/
theorem batch_whole_iff {zlib : Zlib} {conn : ServerConnection} {window : Window} {content : Bytes}
    (returned : (conn.readWindow zlib).1 = .ok (some window)) (consumed : conn.Consumes zlib content) :
    ((∃ whole : List (DataBytes zlib conn.maxFramePayload), content = dataBytes whole) ↔ AddsUp content) ∧
      ∃ (data : List (DataBytes zlib conn.maxFramePayload)) (rest : Bytes), content = dataBytes data ++ rest ∧
        parseFrame zlib conn.maxFramePayload rest = .needMore := by
  obtain ⟨state, progress, accepted⟩ := consumed.accepted returned
  obtain ⟨clean, allData⟩ := StreamConfig.clean_of_acceptDrained accepted
  obtain ⟨data, cut⟩ := exists_dataBytes_of_drain allData
  have beginning := StreamParser.step_rest clean
  refine ⟨⟨?_, ?_⟩, data, _, cut, beginning⟩
  · rintro ⟨whole, rfl⟩
    exact addsUp_dataBytes whole
  · intro adds
    rw [cut] at adds
    rw [adds.rest_eq_nil beginning, List.append_nil] at cut
    exact ⟨data, cut⟩

/-- A window of one event in a batch. -/
def wholeConnection : ServerConnection :=
  .fed (encodeWindow 1 ++ [0x32, 0x43, 0, 0, 0, 17, 120, 94, 51, 242, 98, 96, 96, 96, 2, 98, 198, 106,
    0, 5, 158, 0, 251])
    (by decide) (by decide)

/-- The same with the first byte of another frame behind the event in the batch. -/
def cutConnection : ServerConnection :=
  .fed (encodeWindow 1 ++ [0x32, 0x43, 0, 0, 0, 18, 120, 94, 51, 242, 98, 96, 96, 96, 2, 98, 198, 106,
    35, 0, 6, 203, 1, 45])
    (by decide) (by decide)

/-- The batch of one event is whole. -/
theorem batch_whole_iff_event :
    ∃ whole : List (DataBytes tableZlib 64), encodeJsonFrame 2 [0x7B] = dataBytes whole :=
  (@batch_whole_iff tableZlib wholeConnection ⟨[⟨2, [0x7B]⟩], 2⟩ (encodeJsonFrame 2 [0x7B]) (by decide +kernel)
    ⟨_, .step (.step .start rfl) rfl, rfl, by decide +kernel⟩).1.mpr (.frame rfl (by decide) .nil)

/-- The batch that is cut within a frame contributes to a window all the same. -/
theorem cut_batch_accepted : (cutConnection.readWindow tableZlib).1 = .ok (some ⟨[⟨2, [0x7B]⟩], 2⟩) ∧
      cutConnection.Consumes tableZlib (encodeJsonFrame 2 [0x7B] ++ [protocolVersion]) ∧
      ¬ ∃ whole : List (DataBytes tableZlib 64), encodeJsonFrame 2 [0x7B] ++ [protocolVersion] =
        dataBytes whole := by
  refine ⟨by decide +kernel, ⟨_, .step (.step .start rfl) rfl, rfl, by decide +kernel⟩, ?_⟩
  intro ⟨whole, bytes⟩
  -- Whole frames leave nothing.
  have nothing : ((frameParser tableZlib 64).drain (encodeJsonFrame 2 [0x7B] ++ [protocolVersion])).rest = [] := by
    rw [bytes, drain_dataBytes]
  exact absurd nothing (by decide +kernel)

end FerroProtocols.Lumberjack
