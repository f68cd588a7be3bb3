import FerroProtocols.Lumberjack.Accounting

/-! The sequence number a window is acked with, against the sequence numbers its data frames carry. -/

namespace FerroProtocols.Lumberjack

/-- The data frames carry the numbers that follow a base, one after the other. -/
def Numbered (base : UInt32) (data : List DataFrame) : Prop :=
  data.map DataFrame.seq =
    (List.range data.length).map fun index => some (base + UInt32.ofNat (index + 1))

instance (base : UInt32) (data : List DataFrame) : Decidable (Numbered base data) :=
  inferInstanceAs (Decidable (_ = _))

/-- The last data frame is an event, or there is no event and zero is the number sought. -/
def EndsWithEvent (data : List DataFrame) (target : UInt32) : Prop :=
  (∃ earlier seq payload, data = earlier ++ [.json seq payload]) ∨
    ((∀ frame ∈ data, frame.isLegacy) ∧ target = 0)

private theorem Numbered.seq_of_getElem {base : UInt32} {data : List DataFrame}
    (numbered : Numbered base data) {index : Nat} {frame : DataFrame} (found : data[index]? = some frame) :
    frame.seq = some (base + UInt32.ofNat (index + 1)) := by
  have within : index < data.length := (List.getElem?_eq_some_iff.mp found).1
  have entry := congrArg (fun seqs => seqs[index]?) numbered
  simp only [List.getElem?_map, found, Option.map_some] at entry
  rw [List.getElem?_range within] at entry
  simpa using entry

private theorem base_add_ne {base : UInt32} {index length : Nat} (earlier : index < length)
    (word : length < 2 ^ 32) : base + UInt32.ofNat index ≠ base + UInt32.ofNat length := by
  intro same
  have equal := congrArg UInt32.toNat ((UInt32.add_right_inj base).mp same)
  rw [UInt32.toNat_ofNat_of_lt' (Nat.lt_trans earlier word), UInt32.toNat_ofNat_of_lt' word] at equal
  omega

private theorem last_event_seq_iff {base : UInt32} {data : List DataFrame} (numbered : Numbered base data)
    (word : data.length < 2 ^ 32) : ((data.filterMap DataFrame.event).getLast?.map JsonEvent.seq).getD 0 =
        base + UInt32.ofNat data.length ↔ EndsWithEvent data (base + UInt32.ofNat data.length) := by
  rcases List.eq_nil_or_concat' data with rfl | ⟨earlier, last, rfl⟩
  · -- Without data frames there is no event, and the number stays zero.
    constructor
    · intro zero
      exact .inr ⟨by simp, by simpa using zero.symm⟩
    · rintro (⟨earlier, seq, payload, same⟩ | ⟨_, zero⟩)
      · simp at same
      · simpa using zero.symm
  · cases last with
    | json seq payload =>
      -- The last event is the last frame, whose number is the base's successor by the count.
      have position : (earlier ++ [DataFrame.json seq payload])[earlier.length]? =
        some (.json seq payload) := by simp
      have carried := numbered.seq_of_getElem position
      simp only [DataFrame.seq, Option.some.injEq] at carried
      refine iff_of_true ?_ (.inl ⟨earlier, seq, payload, rfl⟩)
      simp [DataFrame.event, carried]
    | legacy raw =>
      have dropped : (earlier ++ [DataFrame.legacy raw]).filterMap DataFrame.event =
          earlier.filterMap DataFrame.event := by simp [DataFrame.event]
      rw [dropped]
      have noEventLast : ¬ ∃ front seq payload,
          earlier ++ [DataFrame.legacy raw] = front ++ [.json seq payload] := by
        rintro ⟨front, seq, payload, same⟩
        have lasts := (List.append_inj' same rfl).2
        simp at lasts
      cases event : (earlier.filterMap DataFrame.event).getLast? with
      | none =>
        -- No frame is an event, so the number is still the zero it started from.
        have noEvents : ∀ frame ∈ earlier, frame.isLegacy := by
          intro frame member
          have vanishes := List.filterMap_eq_nil_iff.mp (List.getLast?_eq_none_iff.mp event)
            frame member
          cases frame with
          | json seq payload => simp [DataFrame.event] at vanishes
          | legacy rest => rfl
        simp only [Option.map_none, Option.getD_none]
        constructor
        · intro zero
          refine .inr ⟨?_, zero.symm⟩
          intro frame member
          rcases List.mem_append.mp member with before | same
          · exact noEvents frame before
          · rw [List.mem_singleton.mp same]
            rfl
        · rintro (ends | ⟨_, zero⟩)
          · exact absurd ends noEventLast
          · exact zero.symm
      | some found =>
        -- The last event is an earlier frame, and carries an earlier number.
        have member := List.mem_of_getLast? event
        obtain ⟨frame, inEarlier, becomes⟩ := List.mem_filterMap.mp member
        obtain ⟨index, place⟩ := List.mem_iff_getElem?.mp inEarlier
        have within : index < earlier.length := (List.getElem?_eq_some_iff.mp place).1
        have carried := numbered.seq_of_getElem
          (show (earlier ++ [DataFrame.legacy raw])[index]? = some frame by
            rw [List.getElem?_append_left within, place])
        cases frame with
        | legacy rest => simp [DataFrame.event] at becomes
        | json seq payload =>
          simp only [DataFrame.event, Option.some.injEq] at becomes
          simp only [DataFrame.seq, Option.some.injEq] at carried
          subst becomes
          simp only [Option.map_some, Option.getD_some, carried]
          refine iff_of_false (base_add_ne (by simp; omega) word) ?_
          rintro (ends | ⟨allLegacy, _⟩)
          · exact noEventLast ends
          · have legacy := allLegacy (.json seq payload) (by simp [inEarlier])
            simp [DataFrame.isLegacy] at legacy

/-- The six bytes of an ack frame are read back as an ack of its sequence number. -/
theorem classifyAck_encodeAck {ack : AckBytes} {seq : UInt32} (sent : ack.bytes = encodeAck seq)
    (base count : UInt32) :
    classifyAck ack base count = .ok count ↔ seq = base + count := by
  have word : BigEndian.wordAt ack.bytes 2 = some seq := by
    have behindHeader := BigEndian.wordAt_append_right [protocolVersion, frameTypeAck]
      (BigEndian.toBytes seq) 0
    have read := BigEndian.wordAt_toBytes seq []
    rw [List.append_nil] at read
    rw [sent]
    exact behindHeader.trans read
  have version : ack.bytes.getD 0 0 = protocolVersion := by rw [sent]; rfl
  have frameType : ack.bytes.getD 1 0 = frameTypeAck := by rw [sent]; rfl
  have exactly := Sequence.isExactlyAckedBy_iff ⟨base + count⟩ seq
  simp only [classifyAck, word, version, frameType, Option.getD_some, ne_eq, not_true_eq_false, or_self, if_false]
  by_cases full : (Sequence.mk (base + count)).isExactlyAckedBy seq = true
  · simp only [full, if_true]
    exact iff_of_true trivial (exactly.mp full)
  · -- Every other sequence number is answered with an error.
    simp only [full, Bool.false_eq_true, if_false]
    refine iff_of_false ?_ (fun same => full (exactly.mpr same))
    split <;> simp

/-- What has been written to a socket, and how the next writes end. -/
def Socket.writes (socket : Socket) : Bytes × List (Option IoError) := (socket.outgoing, socket.writeFaults)

namespace Reader

/-- The connection a step leaves, whether it halts or goes on. -/
def landing : Transition Reader ReadResult → ServerConnection
  | .halt result => result.2
  | .go next => next.connection

variable (conn : ServerConnection)

private theorem finish_landing (state : WindowState) :
    landing (finish conn state) = conn := by
  unfold finish
  split <;> rfl

private theorem takeFrame_landing (state : WindowState) (frame : Frame) :
    landing (takeFrame conn state frame) = conn := by
  -- No frame changes anything but the window.
  cases frame with
  | window count =>
    simp only [takeFrame]
    split
    · rfl
    cases checkDeclaredWindow count conn.limits.maxWindowEvents with
    | error error => rfl
    | ok _ =>
      dsimp only
      split <;> rfl
  | json seq payload =>
    simp only [takeFrame]
    cases state.recordEvent conn.limits seq payload with
    | error error => rfl
    | ok after => exact finish_landing conn after
  | compressed | ack => rfl
  | unknown frameType raw =>
    simp only [takeFrame]
    cases state.consumeSlot with
    | error error => rfl
    | ok after => exact finish_landing conn after

private theorem takeInnerFrame_landing (state : WindowState)
    (batch : FrameDecoder) (frame : Frame) : landing (takeInnerFrame conn state batch frame) = conn := by
  cases frame with
  | json seq payload =>
    simp only [takeInnerFrame]
    cases state.recordEvent conn.limits seq payload <;> rfl
  | unknown frameType raw =>
    simp only [takeInnerFrame]
    cases state.consumeSlot <;> rfl
  | window | compressed | ack => rfl

private theorem receive_writes (state : WindowState) :
    (landing (receive conn state)).socket.writes = conn.socket.writes := by
  unfold receive Socket.read
  cases conn.socket.incoming with
  | nil =>
    cases conn.socket.closing with
    | eof =>
      dsimp only
      split <;> rfl
    | failed error => rfl
  | cons chunk later =>
    rcases chunk with ⟨_ | ⟨byte, bytes⟩, nonempty, within⟩
    · exact absurd rfl nonempty
    · rfl

private theorem step_writes (zlib : Zlib) (reader : Reader) :
    (landing (reader.step zlib)).socket.writes = reader.connection.socket.writes := by
  obtain ⟨conn, state, position⟩ := reader
  -- Frames leave the socket alone, and receiving only takes from it.
  cases position with
  | inner batch =>
    simp only [step]
    rcases batch.nextFrame zlib with ⟨error | _ | frame, rest⟩
    · rfl
    · dsimp only
      rw [finish_landing]
    · dsimp only
      rw [takeInnerFrame_landing]
  | outer =>
    simp only [step]
    rcases conn.decoder.nextFrame zlib with ⟨error | _ | frame, rest⟩
    · rfl
    · exact receive_writes { conn with decoder := rest } state
    · dsimp only
      rw [takeFrame_landing]

end Reader

namespace ServerConnection

/-- Reading a window writes nothing. -/
theorem readWindow_writes (zlib : Zlib) (conn : ServerConnection) :
    (conn.readWindow zlib).2.socket.writes = conn.socket.writes := by
  refine Machine.run_rule
    (fun reader : Reader => reader.connection.socket.writes = conn.socket.writes)
    (fun result : ReadResult => result.2.socket.writes = conn.socket.writes) rfl ?_ ?_
  · intro before after kept steps
    have written := Reader.step_writes zlib before
    rw [show before.step zlib = .go after from steps] at written
    exact Eq.trans written kept
  · intro last result kept halts
    have written := Reader.step_writes zlib last
    rw [show last.step zlib = .halt result from halts] at written
    exact Eq.trans written kept

private theorem sendAck_outgoing {conn after : ServerConnection} {seq : UInt32}
    (sent : conn.sendAck seq = (.ok (), after)) :
    after.socket.outgoing = conn.socket.outgoing ++ encodeAck seq := by
  obtain ⟨⟨incoming, closing, outgoing, writeFaults⟩, dec, cap, limits⟩ := conn
  unfold sendAck Socket.writeAll Socket.flush at sent
  -- The write and the flush each take one entry off the faults, or find none.
  rcases writeFaults with _ | ⟨_ | error, _ | ⟨_ | later, faults⟩⟩ <;>
    simp only [Prod.mk.injEq, reduceCtorEq, false_and, true_and] at sent <;>
    simp [← sent]

/-- Reading and acking returns what reading returned, and its ack is on the socket. -/
theorem readAndAck_ok {zlib : Zlib} {conn acked : ServerConnection} {window : Window}
    (returned : conn.readAndAck zlib = (.ok (some window), acked)) :
    (conn.readWindow zlib).1 = .ok (some window) ∧
      acked.socket.outgoing = conn.socket.outgoing ++ encodeAck window.lastSeq := by
  have written := congrArg Prod.fst (conn.readWindow_writes zlib)
  unfold readAndAck at returned
  -- A window is returned only after its ack was written.
  rcases read : conn.readWindow zlib with ⟨error | _ | found, after⟩
  · simp [read] at returned
  · simp [read] at returned
  · rw [read] at returned written
    rcases sent : after.sendAck found.lastSeq with ⟨error | _, later⟩
    · simp [sent] at returned
    · simp only [sent, Prod.mk.injEq, Except.ok.injEq, Option.some.injEq] at returned
      obtain ⟨rfl, rfl⟩ := returned
      exact ⟨rfl, (sendAck_outgoing sent).trans (congrArg (· ++ _) written)⟩

/--
A window is acked in full exactly when its data frames end with an event.

The exception is a window without any event whose last number happens to be zero.
-/
theorem lastSeq_highest_iff (zlib : Zlib) (conn after : ServerConnection) (window : Window)
    (base : UInt32) (returned : conn.readWindow zlib = (.ok (some window), after))
    (numbered : Numbered base (Reader.finalLedger zlib conn).data) : (window.lastSeq =
        base + UInt32.ofNat (Reader.finalLedger zlib conn).data.length ∧
      ∀ acked, conn.readAndAck zlib = (.ok (some window), acked) →
        ∀ ack : AckBytes, acked.socket.outgoing = conn.socket.outgoing ++ ack.bytes → classifyAck ack base
              (UInt32.ofNat (Reader.finalLedger zlib conn).data.length) =
            .ok (UInt32.ofNat (Reader.finalLedger zlib conn).data.length)) ↔
      EndsWithEvent (Reader.finalLedger zlib conn).data
        (base + UInt32.ofNat (Reader.finalLedger zlib conn).data.length) := by
  obtain ⟨filled, balanced, complete, rfl⟩ := Reader.window_balanced returned
  obtain ⟨count, declared, slots⟩ := balanced.declared_of_remaining complete
  have word := count.toNat_lt
  have highest := last_event_seq_iff numbered (by simp only [UInt32.toNat_zero] at slots; omega)
  have lastSeq : filled.window.lastSeq =
      (((Reader.finalLedger zlib conn).data.filterMap DataFrame.event).getLast?.map JsonEvent.seq).getD 0 := by
    rw [WindowState.window, balanced.lastSeq, balanced.events]
    rfl
  rw [← highest, ← lastSeq]
  refine ⟨And.left, fun full => ⟨full, ?_⟩⟩
  -- An ack of the highest number is a full one.
  intro acked sent ack onSocket
  have written := (readAndAck_ok sent).2
  rw [onSocket] at written
  exact (classifyAck_encodeAck (List.append_cancel_left written) base _).mpr full

/-- A window of two: a legacy frame and then a JSON event, numbered one and two. -/
def swappedConnection : ServerConnection :=
  .fed ([0x32, 0x57, 0, 0, 0, 2] ++ [0x32, 0x44, 0, 0, 0, 1, 0, 0, 0, 0] ++
    [0x32, 0x4A, 0, 0, 0, 2, 0, 0, 0, 1, 0x7B]) (by simp) (by decide)

/-- With the event last, the window is acked with the highest number. -/
theorem lastSeq_highest_swapped : (Window.mk [⟨2, [0x7B]⟩] 2).lastSeq =
      0 + UInt32.ofNat (Reader.finalLedger noZlib swappedConnection).data.length := by
  have returned : (swappedConnection.readWindow noZlib).1 = .ok (some ⟨[⟨2, [0x7B]⟩], 2⟩) := by
    decide +kernel
  have ends : (Reader.finalLedger noZlib swappedConnection).data =
      [.legacy [0x32, 0x44, 0, 0, 0, 1, 0, 0, 0, 0]] ++ [.json 2 [0x7B]] := by
    decide +kernel
  exact ((lastSeq_highest_iff noZlib swappedConnection _ ⟨[⟨2, [0x7B]⟩], 2⟩ 0
    (Prod.ext returned rfl) (by decide +kernel)).mpr (.inl ⟨_, 2, [0x7B], ends⟩)).1

/-- With the legacy frame last, the window is acked with the number before the highest. -/
theorem lastSeq_behind_mixed : ¬ ∀ (conn after : ServerConnection) (window : Window) (base : UInt32),
      conn.readWindow noZlib = (.ok (some window), after) →
      Numbered base (Reader.finalLedger noZlib conn).data →
      window.lastSeq = base + UInt32.ofNat (Reader.finalLedger noZlib conn).data.length := by
  intro claimed
  have returned : (mixedConnection.readWindow noZlib).1 = .ok (some ⟨[⟨1, [0x7B]⟩], 1⟩) := by
    decide +kernel
  have behind := claimed mixedConnection _ ⟨[⟨1, [0x7B]⟩], 1⟩ 0 (Prod.ext returned rfl)
    (by decide +kernel)
  have two : (Reader.finalLedger noZlib mixedConnection).data.length = 2 := by decide +kernel
  rw [two] at behind
  exact absurd behind (by decide)

end ServerConnection

end FerroProtocols.Lumberjack
