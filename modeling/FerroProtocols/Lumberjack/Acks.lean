import FerroProtocols.Lumberjack.Failover
import FerroProtocols.Lumberjack.LastSeq

/-! Which acks a client takes for a window. -/

namespace FerroProtocols.Lumberjack

open BigEndian

private theorem wordAt_encodeAck (seq : UInt32) : wordAt (encodeAck seq) 2 = some seq := by
  have read := wordAt_toBytes seq []
  rw [List.append_nil] at read
  exact (wordAt_append_right [protocolVersion, frameTypeAck] (toBytes seq) 0).trans read

private theorem encodeAck_injective {left right : UInt32} (same : encodeAck left = encodeAck right) :
    left = right := by
  have words := congrArg (fun bytes => wordAt bytes 2) same
  simp only [wordAt_encodeAck, Option.some.injEq] at words
  exact words

private theorem AckBytes.cases_header (ack : AckBytes) : (∃ seq, ack.bytes = encodeAck seq) ∨
      (ack.bytes.getD 0 0 ≠ protocolVersion ∨ ack.bytes.getD 1 0 ≠ frameTypeAck) ∧
        ∀ seq, ack.bytes ≠ encodeAck seq := by
  obtain ⟨bytes, six⟩ := ack
  obtain ⟨version, frameType, a, b, c, d, rfl⟩ :
      ∃ version frameType a b c d, bytes = [version, frameType, a, b, c, d] := by
    rcases bytes with _ | ⟨version, _ | ⟨frameType, _ | ⟨a, _ | ⟨b, _ | ⟨c, _ | ⟨d, _ | ⟨extra, rest⟩⟩⟩⟩⟩⟩⟩ <;>
      simp at six ⊢
  by_cases header : version = protocolVersion ∧ frameType = frameTypeAck
  · refine .inl ⟨ofBytes a b c d, ?_⟩
    rw [encodeAck, toBytes_ofBytes, header.1, header.2]
  · refine .inr ⟨not_and_or.mp header, ?_⟩
    intro seq same
    rw [encodeAck, List.cons.injEq, List.cons.injEq] at same
    exact header ⟨same.1, same.2.1⟩

/-- What six bytes are taken for: an ack of the whole window, of a part of it, or of neither. -/
inductive Classified (ack : AckBytes) (base count : UInt32) : Except ProtocolError UInt32 → Prop where
  | full (acked : ack.bytes = encodeAck (base + count)) : Classified ack base count (.ok count)
  | part {seen : UInt32} (some : 1 ≤ seen) (notAll : seen < count) (acked : ack.bytes = encodeAck (base + seen)) :
      Classified ack base count (.error (.partialAck seen count))
  | neither {version frameType : UInt8} {seq expected : UInt32}
      (none : ∀ seen, 1 ≤ seen → seen ≤ count → ack.bytes ≠ encodeAck (base + seen)) :
      Classified ack base count (.error (.unexpectedAck version frameType seq expected))

private theorem classified_classifyAck (ack : AckBytes) (base count : UInt32) :
    Classified ack base count (classifyAck ack base count) := by
  rcases ack.cases_header with ⟨seq, sent⟩ | ⟨header, other⟩
  · have version : ack.bytes.getD 0 0 = protocolVersion := by rw [sent]; rfl
    have frameType : ack.bytes.getD 1 0 = frameTypeAck := by rw [sent]; rfl
    have word : wordAt ack.bytes 2 = some seq := by rw [sent, wordAt_encodeAck]
    have exactly := Sequence.isExactlyAckedBy_iff ⟨base + count⟩ seq
    -- The number acked is the base's successor by the difference, which wraps.
    have back : base + (seq - base) = seq := by rw [UInt32.add_comm, UInt32.sub_add_cancel]
    simp only [classifyAck, word, version, frameType, Option.getD_some, ne_eq, not_true_eq_false, or_self, if_false]
    by_cases full : (Sequence.mk (base + count)).isExactlyAckedBy seq = true
    · rw [if_pos full]
      exact .full (by rw [sent, exactly.mp full])
    rw [if_neg full]
    have notAll : seq - base ≠ count := by
      intro all
      rw [all] at back
      exact full (exactly.mpr back.symm)
    split
    · rename_i outside
      apply Classified.neither
      intro seen some within acked
      have number := encodeAck_injective (sent.symm.trans acked)
      have distance : seq - base = seen := by rw [number, UInt32.add_comm, UInt32.add_sub_cancel]
      rw [distance] at outside
      rcases outside with zero | above
      · rw [zero] at some
        exact absurd some (by decide)
      · exact absurd within (UInt32.not_le.mpr above)
    · rename_i inside
      obtain ⟨nonzero, within⟩ := not_or.mp inside
      refine .part ?_ ?_ (by rw [back, sent])
      · rw [UInt32.le_iff_toNat_le]
        exact toNat_pos nonzero
      · exact UInt32.lt_of_le_of_ne (UInt32.not_lt.mp within) notAll
  · simp only [classifyAck, if_pos header]
    exact .neither fun seen _ _ => other _

private theorem Classified.spec {ack : AckBytes} {base count : UInt32} (positive : 1 ≤ count)
    {result : Except ProtocolError UInt32} (classified : Classified ack base count result) :
    (∀ acked, result = .ok acked ↔ acked = count ∧ ack.bytes = encodeAck (base + count)) ∧
      (∀ acked sent, result = .error (.partialAck acked sent) ↔
        sent = count ∧ 1 ≤ acked ∧ acked < count ∧ ack.bytes = encodeAck (base + acked)) ∧
      ((∃ version frameType seq expected, result = .error (.unexpectedAck version frameType seq expected)) ↔
        ∀ seen, 1 ≤ seen → seen ≤ count → ack.bytes ≠ encodeAck (base + seen)) := by
  -- Two numbers behind the base that are acked by the same bytes are the same.
  have unique {first second : UInt32} (one : ack.bytes = encodeAck (base + first))
      (two : ack.bytes = encodeAck (base + second)) : first = second :=
    (UInt32.add_right_inj base).mp (encodeAck_injective (one.symm.trans two))
  cases classified with
  | full acked =>
    refine ⟨fun number => ?_, fun seen sent => ?_, ?_⟩
    · rw [Except.ok.injEq]
      exact ⟨fun same => ⟨same.symm, acked⟩, fun same => same.1.symm⟩
    · refine iff_of_false (by simp) ?_
      intro other
      have same := unique other.2.2.2 acked
      exact absurd other.2.2.1 (same ▸ UInt32.lt_irrefl _)
    · refine iff_of_false (by simp) ?_
      intro none
      exact none count positive (UInt32.le_refl _) acked
  | @part seen some notAll acked =>
    refine ⟨fun number => ?_, fun other sent => ?_, ?_⟩
    · refine iff_of_false (by simp) ?_
      intro full
      have same := unique acked full.2
      exact absurd notAll (same ▸ UInt32.lt_irrefl _)
    · rw [Except.error.injEq, ProtocolError.partialAck.injEq]
      constructor
      · intro same
        obtain ⟨rfl, rfl⟩ := same
        exact ⟨rfl, some, notAll, acked⟩
      · intro same
        exact ⟨unique acked same.2.2.2, same.1.symm⟩
    · refine iff_of_false (by simp) ?_
      intro none
      exact none seen some (UInt32.le_of_lt notAll) acked
  | neither none =>
    refine ⟨fun number => ?_, fun other sent => ?_, ?_⟩
    · refine iff_of_false (by simp) ?_
      intro full
      exact none count positive (UInt32.le_refl _) full.2
    · refine iff_of_false (by simp) ?_
      intro part
      exact none other part.2.1 (UInt32.le_of_lt part.2.2.1) part.2.2.2
    · exact iff_of_true ⟨_, _, _, _, rfl⟩ none

namespace Client

/-- The network carries an attempt of a client out as far as six bytes in answer. -/
structure Answered (client : Client) (attempt : Attempt) (ack : AckBytes) : Prop where
  connect : client.connection = none → attempt.connect = .done ()
  serverName : client.connection = none → client.tls = true → attempt.serverName = .ok ()
  tlsHandshake : client.connection = none → client.tls = true → attempt.tlsHandshake = .done ()
  write : attempt.write = .done ()
  flush : attempt.flush = .done ()
  ack : attempt.ack = .done ack

/-- An attempt that is answered returns what the answer is classified as. -/
theorem sendPayloadOnce_answered {client : Client} {attempt : Attempt} {ack : AckBytes}
    (answered : Answered client attempt ack)
    (payload : Bytes) (base count : UInt32) :
    (client.sendPayloadOnce attempt payload base count).1 = classifyAck ack base count := by
  have exchanged (any : Client) (conn : Connection) :
      (any.exchange attempt conn payload base count).1 = classifyAck ack base count := by
    simp only [exchange, answered.write, answered.flush, answered.ack, Outcome.await]
  cases connected : client.connection with
  | some conn =>
    simp only [sendPayloadOnce, connected]
    exact exchanged client conn
  | none =>
    -- The connection that is missing is opened first.
    have succeeds : (client.reconnect attempt).1 = .ok () := by
      simp only [reconnect, pickHost_eq, answered.connect connected, Outcome.await]
      by_cases secure : client.tls = true
      · simp [secure, answered.serverName connected secure, answered.tlsHandshake connected secure]
      · simp [secure]
    rcases reconnect_eq attempt client with ⟨error, failed⟩ | opened
    · rw [failed] at succeeds
      cases succeeds
    · simp only [sendPayloadOnce, connected, opened]
      exact exchanged _ _

private theorem sendAttempts_seq (network : Nat → Attempt) (payload : Bytes) (base count : UInt32)
    (attempts number : Nat)
    (last : Option ProtocolError) (client : Client) :
    (sendAttempts network payload base count attempts number last client).client.seq = client.seq := by
  induction attempts generalizing number last client with
  | zero => rfl
  | succ attempts ih =>
    obtain ⟨conn, left, _, _⟩ := sendPayloadOnce_eq (network number) client payload base count
    unfold sendAttempts
    cases once : client.sendPayloadOnce (network number) payload base count with
    | mk result after =>
      rw [once] at left
      dsimp only at left
      subst left
      cases result with
      | ok acked => rfl
      | error error => exact ih (number + 1) (some error) _

end Client

/-- A call that returned: the client it was made on, what the network did, what was to be sent, and what came
of it. -/
structure Call (zlib : Zlib) where
  client : Client
  network : Nat → Attempt
  events : List Bytes
  sent : Client.Sent
  returned : client.sendJson zlib network events = some sent

namespace Call

variable {zlib : Zlib}

/-- The number before the first of a call's window. -/
def base (call : Call zlib) : UInt32 := call.client.seq.value

/-- How many events a call's window has. -/
def count (call : Call zlib) : UInt32 := UInt32.ofNat call.events.length

/-- Calls on one client, each made on what the one before it left. -/
def Successive (calls : List (Call zlib)) : Prop :=
  calls.IsChain fun earlier later => later.client = earlier.sent.client

/-- How many sequence numbers calls reserve. -/
def reserved (calls : List (Call zlib)) : Nat := (calls.map fun call => call.events.length).sum

private theorem seq_after (call : Call zlib) : call.sent.client.seq.value = call.base + call.count := by
  have returned := call.returned
  unfold Client.sendJson at returned
  split at returned
  · -- An empty batch reserves nothing.
    rename_i empty
    rw [← Option.some.inj returned, base, count, List.isEmpty_iff.mp empty]
    exact (UInt32.add_zero _).symm
  · split at returned
    · cases returned
    · rw [← Option.some.inj returned, Client.sendAttempts_seq]
      rfl

/-- A window has as many events as its count says. -/
theorem toNat_count (call : Call zlib) : call.count.toNat = call.events.length := by
  apply UInt32.toNat_ofNat_of_lt'
  by_contra large
  -- A call with more events does not return.
  have size : UInt32.size = 2 ^ 32 := rfl
  have returned := call.returned
  unfold Client.sendJson at returned
  split at returned
  · rename_i empty
    rw [List.isEmpty_iff.mp empty] at large
    exact large (by decide)
  · rw [if_pos (by unfold u32Max; omega)] at returned
    cases returned

private theorem base_later {first second : Call zlib} {between : List (Call zlib)}
    (successive : Successive (first :: (between ++ [second]))) :
    second.base = first.base + UInt32.ofNat (first.events.length + reserved between) := by
  induction between generalizing first with
  | nil =>
    have next : second.client = first.sent.client := by simpa [Successive] using successive
    rw [base, next, seq_after]
    rfl
  | cons call later ih =>
    rw [Successive, List.cons_append, List.isChain_cons_cons] at successive
    have behind : call.base = first.base + first.count := by rw [base, successive.1, seq_after]
    rw [ih successive.2, behind, count, UInt32.add_assoc, ← UInt32.ofNat_add]
    simp [reserved]

end Call

/-- An answer is taken as an ack, of all of a window or of a part of it. -/
def Taken (result : Except ProtocolError UInt32) : Prop :=
  (∃ acked, result = .ok acked) ∨ ∃ acked sent, result = .error (.partialAck acked sent)

/-- An answer that is taken acks a number of the window. -/
theorem Taken.seen {ack : AckBytes} {base count : UInt32} (positive : 1 ≤ count)
    (taken : Taken (classifyAck ack base count)) :
    ∃ seen, 1 ≤ seen ∧ seen ≤ count ∧ ack.bytes = encodeAck (base + seen) := by
  obtain ⟨ok, part, _⟩ := (classified_classifyAck ack base count).spec positive
  rcases taken with ⟨acked, all⟩ | ⟨acked, sent, some⟩
  · exact ⟨count, positive, UInt32.le_refl _, ((ok acked).mp all).2⟩
  · obtain ⟨_, positive, notAll, bytes⟩ := (part acked sent).mp some
    exact ⟨acked, positive, UInt32.le_of_lt notAll, bytes⟩

/--
An answer is classified by the number it acks, counted from the base of its window.

Every call reserves its range.
As long as two windows and everything between them span fewer numbers than there are, no answer is taken for both.
-/
theorem acks_classified (zlib : Zlib) :
    (∀ (client : Client) (attempt : Attempt) (ack : AckBytes) (payload : Bytes) (base count : UInt32), 1 ≤ count →
      client.Answered attempt ack → (∀ acked, (client.sendPayloadOnce attempt payload base count).1 = .ok acked ↔
        acked = count ∧ ack.bytes = encodeAck (base + count)) ∧
      (∀ acked sent, (client.sendPayloadOnce attempt payload base count).1 = .error (.partialAck acked sent) ↔
        sent = count ∧ 1 ≤ acked ∧ acked < count ∧ ack.bytes = encodeAck (base + acked)) ∧
      ((∃ version frameType seq expected, (client.sendPayloadOnce attempt payload base count).1 =
          .error (.unexpectedAck version frameType seq expected)) ↔
        ∀ seen, 1 ≤ seen → seen ≤ count → ack.bytes ≠ encodeAck (base + seen))) ∧
    (∀ call : Call zlib, call.sent.client.seq.value = call.base + call.count) ∧
    ∀ (first second : Call zlib) (between : List (Call zlib)), Call.Successive (first :: (between ++ [second])) →
      first.events ≠ [] → second.events ≠ [] →
      first.events.length + Call.reserved between + second.events.length < 2 ^ 32 →
      ∀ (earlier later : Client) (early late : Attempt) (ack : AckBytes) (sent resent : Bytes),
        earlier.Answered early ack → later.Answered late ack →
        ¬ (Taken (earlier.sendPayloadOnce early sent first.base first.count).1 ∧
          Taken (later.sendPayloadOnce late resent second.base second.count).1) := by
  refine ⟨?_, Call.seq_after, ?_⟩
  · intro client attempt ack payload base count positive answered
    rw [Client.sendPayloadOnce_answered answered]
    exact (classified_classifyAck ack base count).spec positive
  · intro first second between successive firstSome secondSome span earlier later early late ack sent
      resent answered resentAnswered
    rw [Client.sendPayloadOnce_answered answered, Client.sendPayloadOnce_answered resentAnswered]
    intro taken
    have positive {call : Call zlib} (some : call.events ≠ []) : 1 ≤ call.count := by
      rw [UInt32.le_iff_toNat_le, call.toNat_count]
      exact List.length_pos_iff.mpr some
    obtain ⟨seen, _, within, acked⟩ := taken.1.seen (positive firstSome)
    obtain ⟨again, some, below, ackedAgain⟩ := taken.2.seen (positive secondSome)
    have same := encodeAck_injective (acked.symm.trans ackedAgain)
    rw [Call.base_later successive, UInt32.add_assoc] at same
    -- Counted from the first base, the number lies in the first window and behind it.
    have distance := congrArg UInt32.toNat ((UInt32.add_right_inj first.base).mp same)
    rw [UInt32.le_iff_toNat_le, Call.toNat_count] at within below
    rw [UInt32.le_iff_toNat_le, show (1 : UInt32).toNat = 1 from rfl] at some
    rw [UInt32.toNat_add, UInt32.toNat_ofNat'] at distance
    omega

/-- A network that carries everything out and answers with an ack. -/
def answering (seq : UInt32) : Attempt :=
  ⟨.done (), .ok (), .done (), .done (), .done (), .done ⟨encodeAck seq, rfl⟩⟩

/-- Every attempt is answered by it. -/
theorem answered_answering (client : Client) (seq : UInt32) : client.Answered (answering seq) ⟨encodeAck seq, rfl⟩ :=
  ⟨fun _ => rfl, fun _ _ => rfl, fun _ _ => rfl, rfl, rfl, rfl⟩

/-- A call that fails. -/
def failedCall : Call noZlib :=
  ⟨.ofTwo false, fun _ => Client.resetting, [[0x7B]], _,
    (Option.some_get (show (Client.sendJson noZlib (fun _ => Client.resetting)
    (.ofTwo false) [[0x7B]]).isSome = true from rfl)).symm⟩

/-- The call that sends the same event again. -/
def laterCall : Call noZlib :=
  ⟨failedCall.sent.client, fun _ => answering 2, [[0x7B]], _, (Option.some_get (show (Client.sendJson noZlib
    (fun _ => answering 2) failedCall.sent.client [[0x7B]]).isSome = true from rfl)).symm⟩

/-- Behind the largest number, zero acks the first of two events, and a late ack is not taken for an event
that is sent again. -/
theorem acks_classified_retried :
    ((Client.ofTwo false).sendPayloadOnce (answering 0) [] 0xFFFFFFFF 2).1 = .error (.partialAck 1 2) ∧
      ¬ (Taken ((Client.ofTwo false).sendPayloadOnce (answering 1) [] failedCall.base failedCall.count).1 ∧
        Taken ((Client.ofTwo false).sendPayloadOnce (answering 1) [] laterCall.base laterCall.count).1) := by
  obtain ⟨classified, _, disjoint⟩ := acks_classified noZlib
  constructor
  · exact ((classified _ _ _ [] 0xFFFFFFFF 2 (by decide) (answered_answering (.ofTwo false) 0)).2.1 1 2).mpr
      ⟨rfl, by decide, by decide, rfl⟩
  · have successive : Call.Successive (failedCall :: ([] ++ [laterCall])) := by
      simp [Call.Successive, laterCall]
    exact disjoint failedCall laterCall [] successive (by simp [failedCall]) (by simp [laterCall])
      (by decide) _ _ _ _ _ _ _
      (answered_answering (.ofTwo false) 1) (answered_answering (.ofTwo false) 1)

end FerroProtocols.Lumberjack
