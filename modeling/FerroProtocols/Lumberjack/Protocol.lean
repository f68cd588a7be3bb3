import FerroProtocols.Lumberjack.Frame

/-!
What both parties of the protocol share: the errors above the codec, and wrapping sequence numbers.
-/

namespace FerroProtocols.Lumberjack

/-- The kinds of I/O error the protocol tells apart. -/
inductive ErrorKind where
  -- The peer closed the connection before everything expected had arrived.
  | unexpectedEof
  -- Any other failure of the transport.
  | other
  deriving DecidableEq, Repr

/-- An I/O error, as the transport reports it. -/
structure IoError where
  kind : ErrorKind
  message : String
  deriving DecidableEq, Repr

/-- Errors of the client and of the server. -/
inductive ProtocolError where
  -- Reading from or writing to the network failed.
  | io (error : IoError)
  -- A frame could not be parsed or encoded, or may not appear where it did.
  | codec (error : FrameError)
  -- The named operation timed out.
  | timeout (operation : String)
  -- An ack had the wrong header, or a sequence number outside the window just sent.
  | unexpectedAck (version frameType : UInt8) (ackedSeq expectedSeq : UInt32)
  -- The receiver acknowledged fewer events than were sent.
  | partialAck (acked sent : UInt32)
  -- No hosts were configured.
  | noHostsConfigured
  -- Every attempt failed; the wrapped error is the most recent one.
  | allHostsFailed (last : ProtocolError)
  -- A window exceeds one of the server's aggregate caps.
  | windowTooLarge (kind : String) (requested limit : Nat)
  -- TLS could not be configured.
  | tls (message : String)
  deriving DecidableEq, Repr

/-- A sequence number, counted modulo two to the thirty-two. -/
structure Sequence where
  value : UInt32
  deriving DecidableEq, Repr

namespace Sequence

/-- Advance by a number of events, wrapping. -/
def advance (sequence : Sequence) (n : UInt32) : Sequence :=
  ⟨sequence.value + n⟩

/-- Whether an ack references exactly this sequence number. -/
def isExactlyAckedBy (sequence : Sequence) (acked : UInt32) : Bool :=
  acked - sequence.value == 0

/-- An exact ack is equality of the two words. -/
theorem isExactlyAckedBy_iff (sequence : Sequence) (acked : UInt32) :
    sequence.isExactlyAckedBy acked = true ↔ acked = sequence.value := by
  -- Subtraction wraps, and still vanishes only on equal words.
  simp only [isExactlyAckedBy, beq_iff_eq]
  constructor
  · intro vanishes
    rw [← UInt32.sub_add_cancel acked sequence.value, vanishes, UInt32.zero_add]
  · intro same
    rw [same, UInt32.sub_self]

end Sequence

end FerroProtocols.Lumberjack
