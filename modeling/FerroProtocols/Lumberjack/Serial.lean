import FerroProtocols.Lumberjack.Protocol

/-! Sequence numbers against counters that never wrap. -/

namespace FerroProtocols.Lumberjack

namespace Sequence

/-- Whether an ack references this sequence number or a newer one, on the half circle behind it. -/
def isAtLeastAckedBy (sequence : Sequence) (acked : UInt32) : Bool := acked - sequence.value < 0x80000000

/-- The sequence number that a counter shows. -/
def ofCounter (counter : Nat) : Sequence := ⟨UInt32.ofNat counter⟩

/-- One counter is covered by an ack for another one. -/
def Covers (counter acked : Nat) : Prop := (ofCounter counter).isAtLeastAckedBy (ofCounter acked).value = true

private theorem covers_iff {counter acked : Nat} (ahead : acked < counter + 2 ^ 31)
    (behind : counter < acked + 2 ^ 31) :
    Covers counter acked ↔ counter ≤ acked := by
  -- The difference of the words is that of the counters, or it lies in the other half.
  simp only [Covers, isAtLeastAckedBy, ofCounter, decide_eq_true_eq, UInt32.lt_iff_toNat_lt, UInt32.toNat_sub,
    UInt32.toNat_ofNat']
  have half : (0x80000000 : UInt32).toNat = 2 ^ 31 := rfl
  omega

/-- Counters less than half the range apart are compared by their sequence numbers as by themselves, advancing
is adding, and on a run of such counters the comparison is a partial order. -/
theorem serial_numbers_follow_counters :
    (∀ counter acked, acked < counter + 2 ^ 31 → counter < acked + 2 ^ 31 →
      (Covers counter acked ↔ counter ≤ acked)) ∧
      (∀ counter n, (ofCounter counter).advance (UInt32.ofNat n) = ofCounter (counter + n)) ∧
      ∀ run : List Nat, (∀ first ∈ run, ∀ second ∈ run, first < second + 2 ^ 31) →
        (∀ first ∈ run, Covers first first) ∧
        (∀ first ∈ run, ∀ second ∈ run, Covers first second → Covers second first → first = second) ∧
        ∀ first ∈ run, ∀ second ∈ run, ∀ third ∈ run, Covers first second → Covers second third →
          Covers first third := by
  refine ⟨fun counter acked => covers_iff, fun counter n => ?_, fun run near => ?_⟩
  · rw [advance, ofCounter, ofCounter, UInt32.ofNat_add]
  have compared {first second : Nat} (here : first ∈ run) (there : second ∈ run) : Covers first second ↔
      first ≤ second :=
    covers_iff (near second there first here) (near first here second there)
  refine ⟨fun first here => ?_, fun first here second there => ?_, fun first here second there third last => ?_⟩
  · exact (compared here here).mpr (Nat.le_refl first)
  · rw [compared here there, compared there here]
    exact Nat.le_antisymm
  · rw [compared here there, compared there last, compared here last]
    exact Nat.le_trans

end Sequence

end FerroProtocols.Lumberjack
