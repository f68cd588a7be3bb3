import FerroProtocols.Lib.Hex
import Mathlib.Data.List.TakeWhile

/-! Content-addressed digests that carry their well-formedness: their text form, and reading it back. -/

namespace FerroProtocols.BlobStore

/-- A byte string. -/
abbrev Bytes := List UInt8

/-- The bytes of a text. -/
def textBytes (text : String) : Bytes := text.toUTF8.data.toList

/-- The text that bytes stand for, if they are UTF-8. -/
def fromUtf8 (bytes : Bytes) : Option String := String.fromUTF8? ⟨bytes.toArray⟩

/-- A text is read back from its bytes. -/
theorem fromUtf8_textBytes (text : String) : fromUtf8 (textBytes text) = some text := by
  have whole : (⟨(textBytes text).toArray⟩ : ByteArray) = text.toByteArray := by simp [textBytes]
  rw [fromUtf8, whole, String.fromUTF8?, dif_pos text.isValidUTF8]
  rfl

/-- Hash algorithms of digests. -/
inductive DigestAlgo where
  | sha256
  | sha512
  deriving DecidableEq, Repr

namespace DigestAlgo

/-- The number of hex characters of a digest. -/
def hexLen : DigestAlgo → Nat
  | .sha256 => 64
  | .sha512 => 128

/-- The text before the colon. -/
def prefixText : DigestAlgo → String
  | .sha256 => "sha256"
  | .sha512 => "sha512"

/-- The algorithm a text before the colon names. -/
def parsePrefix (text : String) : Option DigestAlgo :=
  if text = "sha256" then some .sha256
  else if text = "sha512" then some .sha512
  else none

/-- An algorithm is named by its own text. -/
theorem parsePrefix_prefixText (algo : DigestAlgo) : parsePrefix algo.prefixText = some algo := by
  cases algo <;> decide

end DigestAlgo

/-- Why a text is not a digest. -/
inductive DigestParseError where
  | missingSeparator
  | unsupportedAlgo (text : String)
  | badLength (algo : DigestAlgo) (expected actual : Nat)
  | badHex (bad : Char)
  deriving DecidableEq, Repr

/-- A character as `{:?}` shows it between the given quotes. -/
def debugChar (quote ch : Char) : String :=
  if ch = quote ∨ ch = '\\' then "\\" ++ ch.toString
  else if ch = '\t' then "\\t"
  else if ch = '\r' then "\\r"
  else if ch = '\n' then "\\n"
  else if ch.toNat = 0 then "\\0"
  -- Control characters are shown by their numbers.
  else if ch.toNat < 32 ∨ ch.toNat = 127 then
    "\\u\x7b" ++ String.ofList (Nat.toDigits 16 ch.toNat) ++ "\x7d"
  else ch.toString

/-- The text of an error. -/
def DigestParseError.text : DigestParseError → String
  | .missingSeparator => "digest must be of the form `<algo>:<hex>`"
  | .unsupportedAlgo text =>
    let quote := Char.ofNat 34
    "unsupported digest algorithm prefix: " ++ quote.toString ++
      String.join (text.toList.map (debugChar quote)) ++ quote.toString
  | .badLength algo expected actual =>
    "invalid digest hex length for " ++ algo.prefixText ++ ": expected " ++ toString expected ++
      ", got " ++ toString actual
  | .badHex bad => "invalid hex character '" ++ debugChar (Char.ofNat 39) bad ++ "' in digest"

/-- A content-addressed identifier. -/
structure Digest where
  algo : DigestAlgo
  hex : String
  -- The constructors of the source let only such texts through.
  sized : hex.utf8ByteSize = algo.hexLen
  lower : ∀ digit ∈ hex.toList, Hex.IsLower digit
  deriving DecidableEq

/-- A character is a hex digit of either case. -/
def isAsciiHexdigit (ch : Char) : Bool := (Hex.value ch).isSome

private theorem isAsciiHexdigit_iff (ch : Char) :
    isAsciiHexdigit ch = true ↔ ch ∈ "0123456789abcdefABCDEF".toList := by
  constructor
  · intro accepted
    unfold isAsciiHexdigit Hex.value at accepted
    -- In each range the code point leaves finitely many characters.
    rw [← Char.ofNat_toNat ch]
    simp only [Char.le_def, UInt32.le_iff_toNat_le] at accepted
    change (if 48 ≤ ch.toNat ∧ ch.toNat ≤ 57 then some _ else
      if 97 ≤ ch.toNat ∧ ch.toNat ≤ 102 then some _ else
      if 65 ≤ ch.toNat ∧ ch.toNat ≤ 70 then some _ else none).isSome at accepted
    generalize ch.toNat = code at accepted ⊢
    split at accepted
    · rename_i range
      obtain ⟨least, most⟩ := range
      interval_cases code <;> decide
    · split at accepted
      · rename_i range
        obtain ⟨least, most⟩ := range
        interval_cases code <;> decide
      · split at accepted
        · rename_i range
          obtain ⟨least, most⟩ := range
          interval_cases code <;> decide
        · cases accepted
  · intro member
    have all : "0123456789abcdefABCDEF".toList.all isAsciiHexdigit = true := by decide +kernel
    exact List.all_eq_true.mp all ch member

private theorem isLower_toLower {ch : Char} (digit : isAsciiHexdigit ch = true) :
    Hex.IsLower ch.toLower := by
  have all : ("0123456789abcdefABCDEF".toList.all fun digit =>
      decide (Hex.IsLower digit.toLower)) = true := by decide +kernel
  exact of_decide_eq_true (List.all_eq_true.mp all ch ((isAsciiHexdigit_iff ch).mp digit))

/-- A text of characters of one byte each has as many bytes. -/
theorem utf8ByteSize_ofList {characters : List Char} (narrow : ∀ ch ∈ characters, ch.utf8Size = 1) :
    (String.ofList characters).utf8ByteSize = characters.length := by
  induction characters with
  | nil => rfl
  | cons ch rest ih =>
    have split : String.ofList (ch :: rest) =
        String.singleton ch ++ String.ofList rest := by
      apply String.toList_inj.mp
      simp
    rw [split, String.utf8ByteSize_append, String.utf8ByteSize_singleton,
      narrow ch (by simp), ih fun other member => narrow other (by simp [member]),
      List.length_cons, Nat.add_comm]

/-- Lower-case hex digits have one byte. -/
theorem utf8Size_of_isLower {digit : Char} (lower : Hex.IsLower digit) : digit.utf8Size = 1 := by
  have all : ("0123456789abcdef".toList.all fun digit => decide (digit.utf8Size = 1)) = true := by decide +kernel
  exact of_decide_eq_true (List.all_eq_true.mp all digit lower)

namespace Digest

/-- Check that a text has the length of an algorithm and hex digits only. -/
def validateHex (algo : DigestAlgo) (hex : String) : Except DigestParseError Unit :=
  if hex.utf8ByteSize ≠ algo.hexLen then
    .error (.badLength algo algo.hexLen hex.utf8ByteSize)
  else
    match hex.toList.find? fun ch => !isAsciiHexdigit ch with
    | some bad => .error (.badHex bad)
    | none => .ok ()

/-- The texts that pass have as many bytes as the algorithm asks for, and hex digits only. -/
theorem validateHex_ok_iff (algo : DigestAlgo) (hex : String) : validateHex algo hex = .ok () ↔
      hex.utf8ByteSize = algo.hexLen ∧ ∀ ch ∈ hex.toList, isAsciiHexdigit ch = true := by
  unfold validateHex
  by_cases sized : hex.utf8ByteSize = algo.hexLen
  · rw [if_neg (not_not.mpr sized)]
    cases found : hex.toList.find? fun ch => !isAsciiHexdigit ch with
    | some bad =>
      -- The character that was found is not a digit.
      have refused := List.find?_some found
      have inside := List.mem_of_find?_eq_some found
      simp only [reduceCtorEq, sized, true_and, false_iff]
      intro all
      rw [all bad inside] at refused
      cases refused
    | none =>
      rw [List.find?_eq_none] at found
      simp only [sized, true_and, true_iff]
      intro ch inside
      simpa using found ch inside
  · simp [sized]

/-- The lower-case form of a valid hex text. -/
def lowered (hex : String) : String := String.ofList (hex.toList.map Char.toLower)

variable {algo : DigestAlgo} {hex : String}

private theorem isLower_lowered (valid : validateHex algo hex = .ok ()) :
    ∀ digit ∈ (lowered hex).toList, Hex.IsLower digit := by
  obtain ⟨_, digits⟩ := (validateHex_ok_iff algo hex).mp valid
  intro digit member
  rw [lowered, String.toList_ofList, List.mem_map] at member
  obtain ⟨ch, inside, rfl⟩ := member
  exact isLower_toLower (digits ch inside)

/-- Hex digits have one byte. -/
theorem utf8Size_of_hexdigit {ch : Char} (digit : isAsciiHexdigit ch = true) :
    ch.utf8Size = 1 := by
  have all : ("0123456789abcdefABCDEF".toList.all fun digit => decide (digit.utf8Size = 1)) = true := by
    decide +kernel
  exact of_decide_eq_true (List.all_eq_true.mp all ch ((isAsciiHexdigit_iff ch).mp digit))

private theorem utf8ByteSize_lowered
    (valid : validateHex algo hex = .ok ()) : (lowered hex).utf8ByteSize = algo.hexLen := by
  have lower := isLower_lowered valid
  obtain ⟨sized, digits⟩ := (validateHex_ok_iff algo hex).mp valid
  rw [lowered, String.toList_ofList] at lower
  calc (lowered hex).utf8ByteSize
      = (hex.toList.map Char.toLower).length :=
        utf8ByteSize_ofList fun digit member => utf8Size_of_isLower (lower digit member)
    _ = hex.toList.length := List.length_map _
    _ = (String.ofList hex.toList).utf8ByteSize :=
        (utf8ByteSize_ofList fun digit member => utf8Size_of_hexdigit (digits digit member)).symm
    _ = algo.hexLen := by rw [String.ofList_toList, sized]

/-- A digest from an algorithm and a hex text of either case. -/
def new (algo : DigestAlgo) (hex : String) : Except DigestParseError Digest :=
  match valid : validateHex algo hex with
  | .error error => .error error
  | .ok () => .ok ⟨algo, lowered hex, utf8ByteSize_lowered valid, isLower_lowered valid⟩

/-- The text form of a digest. -/
def toString (digest : Digest) : String := digest.algo.prefixText ++ ":" ++ digest.hex

/-- A digest is made of every text that passes. -/
theorem exists_new (valid : validateHex algo hex = .ok ()) : ∃ digest, new algo hex = .ok digest := by
  unfold new
  split
  · rename_i refused
    rw [valid] at refused
    cases refused
  · exact ⟨_, rfl⟩

/-- A digest is made of a text that passes, in lower case. -/
theorem new_ok_iff {digest : Digest} :
    new algo hex = .ok digest ↔ validateHex algo hex = .ok () ∧ digest.algo = algo ∧ digest.hex = lowered hex := by
  unfold new
  split
  · rename_i error refused
    simp [refused]
  · rename_i valid
    obtain ⟨algo', hex', sized, lower⟩ := digest
    simp [valid, eq_comm]

/-- The texts before and after the first occurrence of a character. -/
def splitOnce (text : String) (sep : Char) : Option (String × String) :=
  match text.toList.dropWhile (fun ch => decide (ch ≠ sep)) with
  | [] => none
  | _ :: after =>
    some (String.ofList (text.toList.takeWhile fun ch => decide (ch ≠ sep)),
      String.ofList after)

/-- The digest a text stands for. -/
def parse (text : String) : Except DigestParseError Digest :=
  match splitOnce text ':' with
  | none => .error .missingSeparator
  | some (before, hex) =>
    match DigestAlgo.parsePrefix before with
    | none => .error (.unsupportedAlgo before)
    | some algo => new algo hex

private theorem splitOnce_toString (digest : Digest) :
    splitOnce digest.toString ':' = some (digest.algo.prefixText, digest.hex) := by
  unfold splitOnce toString
  simp only [String.toList_append]
  cases digest.algo <;> simp [DigestAlgo.prefixText]

private theorem lowered_hex (digest : Digest) : lowered digest.hex = digest.hex := by
  have all : ("0123456789abcdef".toList.all fun digit => decide (digit.toLower = digit)) = true := by decide +kernel
  have same : digest.hex.toList.map Char.toLower = digest.hex.toList :=
    (List.map_congr_left fun digit member =>
      of_decide_eq_true (List.all_eq_true.mp all digit (digest.lower digit member))).trans
      (List.map_id _)
  rw [lowered, same, String.ofList_toList]

private theorem validateHex_hex (digest : Digest) : validateHex digest.algo digest.hex = .ok () := by
  have all : "0123456789abcdef".toList.all isAsciiHexdigit = true := by decide +kernel
  rw [validateHex_ok_iff]
  exact ⟨digest.sized, fun digit member => List.all_eq_true.mp all digit (digest.lower digit member)⟩

/-- A digest is made again from its algorithm and its hex text. -/
theorem new_hex (digest : Digest) : new digest.algo digest.hex = .ok digest := by
  rw [new_ok_iff]
  exact ⟨validateHex_hex digest, rfl, (lowered_hex digest).symm⟩

/-- Reading the text of a digest gives the digest back. -/
theorem parse_toString (digest : Digest) : parse digest.toString = .ok digest := by
  simp only [parse, splitOnce_toString, DigestAlgo.parsePrefix_prefixText, new_hex]

/-- Digests with the same text are equal. -/
theorem toString_injective : Function.Injective toString := by
  intro left right same
  have parsed := parse_toString left
  rw [same, parse_toString right] at parsed
  exact (Except.ok.inj parsed).symm

end Digest

/-- The SHA-256 function, known only by the length of its results. -/
structure Sha256 where
  hash : Bytes → Bytes
  sized : ∀ bytes, (hash bytes).length = 32

/-- The digest with the bytes that a hash function gives. -/
def Digest.ofHash (algo : DigestAlgo) (hash : Bytes) (sized : 2 * hash.length = algo.hexLen) : Digest where
  algo := algo
  hex := String.ofList (Hex.encode hash)
  sized := by
    rw [utf8ByteSize_ofList fun _ member => utf8Size_of_isLower (Hex.isLower_of_mem_encode member),
      Hex.length_encode, sized]
  lower := by
    intro digit member
    rw [String.toList_ofList] at member
    exact Hex.isLower_of_mem_encode member

/-- The SHA-256 digest of bytes. -/
def Digest.sha256Of (sha : Sha256) (bytes : Bytes) : Digest :=
  .ofHash .sha256 (sha.hash bytes) (by rw [sha.sized]; rfl)

/-- The bytes of a number, the most significant one first. -/
def bytesOf (count number : Nat) : Bytes :=
  (List.range count).map fun place => UInt8.ofNat (number >>> (8 * (count - 1 - place)))

/-- There are as many of them as were asked for. -/
theorem length_bytesOf (count number : Nat) : (bytesOf count number).length = count := by
  rw [bytesOf, List.length_map, List.length_range]

/-- SHA-256, with the digests of a few inputs. -/
def shaTable : Sha256 where
  hash bytes := bytesOf 32 <| match bytes with
    | [] => 0xe3b0c44298fc1c149afbf4c8996fb92427ae41e4649b934ca495991b7852b855
    | [1] => 0x4bf5122f344554c53bde2ebb8cd2b7e3d1600ad631c385a5d7cce23c7785459a
    | [1, 2] => 0xa12871fee210fb8619291eaea194581cbd2531e4b23759d225f6806923f63222
    | [7] => 0xca358758f6d27e6cf45272937977a748fd88391db679ceda7dc7bf1f005ee879
    | [7, 7] => 0xc7b99f1c681eaad2096f54c0380b8f950fa5cbe47cb3695ed590167c0dfff315
    | [8] => 0xbeead77994cf573341ec17b58bbf7eb34d2711c993c1d976b128b3188dc1829a
    | _ => 0
  sized _ := length_bytesOf 32 _

/-- The digest of no bytes. -/
def emptySha : Digest := Digest.sha256Of shaTable []

/-- The digest of one byte. -/
def sevenSha : Digest := Digest.sha256Of shaTable [7]

/-- The kinds of I/O errors the registry and its store tell apart. -/
inductive ErrorKind where
  | notFound
  | alreadyExists
  | invalidInput
  | invalidData
  -- Any other failure of the file system.
  | other
  deriving DecidableEq, Repr

/-- An I/O error, as the file system reports it. -/
structure IoError where
  kind : ErrorKind
  message : String
  deriving DecidableEq, Repr

/-- Errors of the store and of the metadata plane. -/
inductive BlobStoreError where
  | io (error : IoError)
  | digestMismatch (expected computed : String)
  | notFound (what : String)
  | invalidDigest (error : DigestParseError)
  deriving DecidableEq, Repr

end FerroProtocols.BlobStore
