import Mathlib.Tactic.IntervalCases

/-! Bytes written as lower-case hex digits, and read back. -/

namespace Hex

/-- The digit of a half byte. -/
def digit (value : Nat) : Char :=
  if value < 10 then Char.ofNat (48 + value) else Char.ofNat (87 + value)

/-- The value of a digit of either case. -/
def value (digit : Char) : Option Nat :=
  if '0' ≤ digit ∧ digit ≤ '9' then some (digit.toNat - 48)
  else if 'a' ≤ digit ∧ digit ≤ 'f' then some (digit.toNat - 87)
  else if 'A' ≤ digit ∧ digit ≤ 'F' then some (digit.toNat - 55)
  else none

/-- A digit as it is written: decimal, or a lower-case letter. -/
def IsLower (digit : Char) : Prop := digit ∈ "0123456789abcdef".toList

instance (digit : Char) : Decidable (IsLower digit) := inferInstanceAs (Decidable (_ ∈ _))

/-- The digits of bytes, the high half of each byte first. -/
def encode : List UInt8 → List Char
  | [] => []
  | byte :: rest => digit (byte.toNat / 16) :: digit (byte.toNat % 16) :: encode rest

/-- The bytes that pairs of digits stand for. -/
def decode : List Char → Option (List UInt8)
  | [] => some []
  | [_] => none
  | high :: low :: rest =>
    match value high, value low with
    | some upper, some lower =>
      (decode rest).map fun bytes => UInt8.ofNat (16 * upper + lower) :: bytes
    | _, _ => none

private theorem value_digit {half : Nat} (small : half < 16) : value (digit half) = some half := by
  -- Sixteen digits, each a closed computation.
  interval_cases half <;> rfl

private theorem isLower_digit {half : Nat} (small : half < 16) : IsLower (digit half) := by
  interval_cases half <;> decide

/-- What has been written reads back. -/
theorem decode_encode (bytes : List UInt8) : decode (encode bytes) = some bytes := by
  induction bytes with
  | nil => rfl
  | cons byte rest ih =>
    have bound := byte.toNat_lt
    have whole : 16 * (byte.toNat / 16) + byte.toNat % 16 = byte.toNat := by omega
    simp [encode, decode, value_digit (show byte.toNat / 16 < 16 by omega),
      value_digit (show byte.toNat % 16 < 16 by omega), ih, whole]

/-- Two digits are written for each byte. -/
theorem length_encode (bytes : List UInt8) : (encode bytes).length = 2 * bytes.length := by
  induction bytes with
  | nil => rfl
  | cons byte rest ih =>
    simp only [encode, List.length_cons, ih]
    omega

/-- Only lower-case digits are written. -/
theorem isLower_of_mem_encode {bytes : List UInt8} {digit : Char} (member : digit ∈ encode bytes) :
    IsLower digit := by
  induction bytes with
  | nil => cases member
  | cons byte rest ih =>
    have bound := byte.toNat_lt
    rcases List.mem_cons.mp member with rfl | later
    · exact isLower_digit (by omega)
    · rcases List.mem_cons.mp later with rfl | further
      · exact isLower_digit (by omega)
      · exact ih further

end Hex
