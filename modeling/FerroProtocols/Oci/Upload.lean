import FerroProtocols.BlobStore.Digest

/-! The state of one blob upload that is in flight, and the ranges its chunks declare. -/

namespace FerroProtocols.Oci

open BlobStore

/-- An upload session: the bytes that have arrived, and when the last of them did. -/
structure UploadState where
  name : String
  uuid : String
  buffer : Bytes
  lastActivity : Nat
  deriving DecidableEq, Repr

namespace UploadState

/-- A session that has received nothing yet. -/
def new (name uuid : String) (now : Nat) : UploadState := ⟨name, uuid, [], now⟩

/-- The number of bytes that have arrived. -/
def offset (state : UploadState) : Nat := state.buffer.length

/-- Append a chunk, which counts as activity. -/
def append (state : UploadState) (chunk : Bytes) (now : Nat) : UploadState :=
  { state with buffer := state.buffer ++ chunk, lastActivity := now }

/-- Nothing has arrived for at least some time; a clock that ran back counts as no time. -/
def isIdleFor (state : UploadState) (now ttl : Nat) : Bool := decide (ttl ≤ now - state.lastActivity)

/-- The bytes that have arrived, and the session without them. -/
def takeBytes (state : UploadState) : Bytes × UploadState :=
  (state.buffer, { state with buffer := [] })

end UploadState

/-- The largest 64-bit word. -/
def u64Max : Nat := 2 ^ 64 - 1

/-- Why a text is not a range. -/
inductive ContentRangeParseError where
  | malformed
  | reversed
  deriving DecidableEq, Repr

/-- The first and the last offset of a chunk, both included. -/
structure ContentRange where
  start : Nat
  stop : Nat
  deriving DecidableEq, Repr

namespace ContentRange

/-- A text without the blanks around it. -/
def trim (text : List Char) : List Char :=
  ((text.dropWhile Char.isWhitespace).reverse.dropWhile Char.isWhitespace).reverse

/-- The 64-bit word a text spells in decimal, with or without a plus sign. -/
def parseU64 (text : List Char) : Option Nat :=
  let digits :=
    match text with
    | '+' :: rest => rest
    | _ => text
  if digits.isEmpty || !digits.all Char.isDigit then none
  else
    let number := digits.foldl (fun number digit => 10 * number + (digit.toNat - 48)) 0
    if number ≤ u64Max then some number else none

/-- The range a header value declares; a leading unit and a trailing total length are ignored. -/
def parse (value : String) : Except ContentRangeParseError ContentRange :=
  let trimmed := trim value.toList
  let payload := if "bytes ".toList.isPrefixOf trimmed then trimmed.drop 6 else trimmed
  let payload := payload.takeWhile fun ch => decide (ch ≠ '/')
  match payload.dropWhile fun ch => decide (ch ≠ '-') with
  | [] => .error .malformed
  | _ :: after =>
    let before := payload.takeWhile fun ch => decide (ch ≠ '-')
    match parseU64 (trim before), parseU64 (trim after) with
    | some start, some stop => if start > stop then .error .reversed else .ok ⟨start, stop⟩
    | _, _ => .error .malformed

/-- The number of bytes of a range, unless it is no 64-bit word. -/
def checkedLength (range : ContentRange) : Option Nat :=
  if range.stop < range.start then none
  else if range.stop - range.start + 1 ≤ u64Max then some (range.stop - range.start + 1)
  else none

section Text

/-- A number is read back from its digits. -/
theorem parseU64_toDigits {number : Nat} (word : number ≤ u64Max) :
    parseU64 (Nat.toDigits 10 number) = some number := by
  have digits : ∀ ch ∈ Nat.toDigits 10 number, ch.isDigit = true :=
    fun _ => Nat.isDigit_of_mem_toDigits (by decide) (by decide)
  have spelled : (Nat.toDigits 10 number).foldl (fun number digit => 10 * number + (digit.toNat - 48)) 0 =
    number := Nat.ofDigitChars_toDigits (by decide) (by decide)
  have filled : Nat.toDigits 10 number ≠ [] := Nat.toDigits_ne_nil
  revert digits spelled filled
  -- No digit is a plus sign, so all of the text is read.
  generalize Nat.toDigits 10 number = text
  intro digits spelled filled
  cases text with
  | nil => exact absurd rfl filled
  | cons first rest =>
    have noSign : first ≠ '+' := by
      rintro rfl
      exact absurd (digits '+' List.mem_cons_self) (by decide)
    have allDigits : (first :: rest).all Char.isDigit = true := List.all_eq_true.mpr digits
    unfold parseU64
    split
    · rename_i same
      exact absurd (List.cons.inj same).1 noSign
    · dsimp only
      rw [spelled, if_neg (by simp [allDigits]), if_pos word]

end Text

end ContentRange

end FerroProtocols.Oci
