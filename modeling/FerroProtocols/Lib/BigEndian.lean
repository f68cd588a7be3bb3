import Mathlib.Algebra.Order.Ring.Nat
import Mathlib.Data.List.Basic

/-! Thirty-two-bit words written most significant byte first, and read back at any offset. -/

namespace BigEndian

/-- The four bytes of a word, most significant first. -/
def toBytes (word : UInt32) : List UInt8 :=
  -- Truncation to a byte keeps exactly the eight bits the shift brought down.
  [UInt8.ofNat (word.toNat / 2 ^ 24), UInt8.ofNat (word.toNat / 2 ^ 16),
    UInt8.ofNat (word.toNat / 2 ^ 8), UInt8.ofNat word.toNat]

/-- The word four bytes stand for, the first of them the most significant. -/
def ofBytes (a b c d : UInt8) : UInt32 :=
  UInt32.ofNat (a.toNat * 2 ^ 24 + b.toNat * 2 ^ 16 + c.toNat * 2 ^ 8 + d.toNat)

/-- The word at an offset, or nothing while fewer than four bytes lie beyond it. -/
def wordAt (bytes : List UInt8) (offset : Nat) : Option UInt32 :=
  match bytes.drop offset with
  | a :: b :: c :: d :: _ => some (ofBytes a b c d)
  | _ => none

/-- A word is always written in four bytes. -/
@[simp] theorem toBytes_length (word : UInt32) : (toBytes word).length = 4 := rfl

private theorem ofBytes_toBytes (word : UInt32) :
    ofBytes (UInt8.ofNat (word.toNat / 2 ^ 24)) (UInt8.ofNat (word.toNat / 2 ^ 16))
      (UInt8.ofNat (word.toNat / 2 ^ 8)) (UInt8.ofNat word.toNat) = word := by
  -- Each byte is one base-256 digit, and four digits rebuild any value below 2^32.
  have bound : word.toNat < 2 ^ 32 := word.toNat_lt
  apply UInt32.toNat_inj.mp
  simp only [ofBytes, UInt8.toNat_ofNat', UInt32.toNat_ofNat']
  omega

/-- Writing the word of four bytes gives the bytes back. -/
theorem toBytes_ofBytes (a b c d : UInt8) : toBytes (ofBytes a b c d) = [a, b, c, d] := by
  have first := a.toNat_lt
  have second := b.toNat_lt
  have third := c.toNat_lt
  have fourth := d.toNat_lt
  -- Four digits are below 2^32, so the word is their sum.
  have value : (ofBytes a b c d).toNat = a.toNat * 2 ^ 24 + b.toNat * 2 ^ 16 + c.toNat * 2 ^ 8 + d.toNat := by
    rw [ofBytes, UInt32.toNat_ofNat_of_lt']
    have size : UInt32.size = 2 ^ 32 := rfl
    omega
  simp only [toBytes, value, List.cons.injEq, and_true]
  refine ⟨?_, ?_, ?_, ?_⟩
  all_goals
    apply UInt8.toNat_inj.mp
    rw [UInt8.toNat_ofNat']
    omega

variable {bytes : List UInt8} {offset : Nat}

/-- A word is missing exactly while its four bytes have not all arrived. -/
theorem wordAt_eq_none_iff : wordAt bytes offset = none ↔ bytes.length < offset + 4 := by
  -- Only the number of bytes past the offset decides which arm the read takes.
  have remaining : (bytes.drop offset).length = bytes.length - offset := List.length_drop
  unfold wordAt
  rcases shape : bytes.drop offset with _ | ⟨a, _ | ⟨b, _ | ⟨c, _ | ⟨d, rest⟩⟩⟩⟩
  all_goals
    rw [shape] at remaining
    simp only [List.length_nil, List.length_cons] at remaining
    simp
    omega

/-- A word that has been read lies wholly inside the bytes. -/
theorem wordAt_within {word : UInt32} (read : wordAt bytes offset = some word) : offset + 4 ≤ bytes.length := by
  by_contra short
  have missing := wordAt_eq_none_iff.mpr (Nat.lt_of_not_le short)
  rw [missing] at read
  cases read

/-- Four available bytes always make a word. -/
theorem exists_wordAt {bytes : List UInt8} {offset : Nat}
    (enough : offset + 4 ≤ bytes.length) : ∃ word, wordAt bytes offset = some word := by
  rcases read : wordAt bytes offset with _ | word
  · have := wordAt_eq_none_iff.mp read
    omega
  · exact ⟨word, rfl⟩

/-- Bytes arriving later never change a word already read. -/
theorem wordAt_append {front : List UInt8} {word : UInt32}
    (read : wordAt front offset = some word) (back : List UInt8) : wordAt (front ++ back) offset = some word := by
  -- The four bytes precede everything that is appended.
  have within := wordAt_within read
  unfold wordAt at read ⊢
  rw [List.drop_append_of_le_length (by omega)]
  rcases shape : front.drop offset with _ | ⟨a, _ | ⟨b, _ | ⟨c, _ | ⟨d, rest⟩⟩⟩⟩ <;>
    simp_all

/-- Bytes behind a word do not matter for it. -/
theorem wordAt_take {size : Nat} {word : UInt32} (read : wordAt bytes offset = some word)
    (inside : offset + 4 ≤ size) : wordAt (bytes.take size) offset = some word := by
  have within := wordAt_within read
  obtain ⟨other, found⟩ := @exists_wordAt (bytes.take size) offset (by rw [List.length_take]; omega)
  have same := wordAt_append found (bytes.drop size)
  rw [List.take_append_drop, read] at same
  rw [found, same]

/-- Reading past a run of bytes on the front is reading what follows it. -/
theorem wordAt_append_right (front back : List UInt8) (offset : Nat) :
    wordAt (front ++ back) (front.length + offset) = wordAt back offset := by
  have past : (front ++ back).drop (front.length + offset) = back.drop offset := by
    rw [← List.drop_drop, List.drop_left]
  simp only [wordAt, past]

/-- A word written at the front is the word read there. -/
@[simp] theorem wordAt_toBytes (word : UInt32) (back : List UInt8) :
    wordAt (toBytes word ++ back) 0 = some word := by
  show some (ofBytes _ _ _ _) = some word
  rw [ofBytes_toBytes]

end BigEndian
