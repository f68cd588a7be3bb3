import FerroProtocols.BlobStore.Memory
import FerroProtocols.Lib.Texts
import FerroProtocols.Maven.Error

/-! Checksums of artifacts, and the sidecar files they are kept in. -/

namespace FerroProtocols.Maven

open BlobStore Texts

/-- The algorithms of sidecars. -/
inductive ChecksumAlgo where
  | md5
  | sha1
  | sha256
  | sha512
  deriving DecidableEq, Repr

namespace ChecksumAlgo

/-- The algorithm a file extension stands for. -/
def fromExtension (text : String) : Option ChecksumAlgo :=
  if text = "md5" then some .md5
  else if text = "sha1" then some .sha1
  else if text = "sha256" then some .sha256
  else if text = "sha512" then some .sha512
  else none

/-- The file extension of an algorithm. -/
def extension : ChecksumAlgo → String
  | .md5 => "md5"
  | .sha1 => "sha1"
  | .sha256 => "sha256"
  | .sha512 => "sha512"

/-- The number of hex characters of a checksum. -/
def hexLen : ChecksumAlgo → Nat
  | .md5 => 32
  | .sha1 => 40
  | .sha256 => 64
  | .sha512 => 128

/-- The name of an algorithm in messages. -/
def debugName : ChecksumAlgo → String
  | .md5 => "Md5"
  | .sha1 => "Sha1"
  | .sha256 => "Sha256"
  | .sha512 => "Sha512"

/-- An extension stands for the algorithm that has it. -/
theorem fromExtension_eq_some_iff {text : String} {algo : ChecksumAlgo} :
    fromExtension text = some algo ↔ text = algo.extension := by
  unfold fromExtension
  constructor
  · intro found
    split at found
    · cases found; assumption
    · split at found
      · cases found; assumption
      · split at found
        · cases found; assumption
        · split at found
          · cases found; assumption
          · cases found
  · rintro rfl
    cases algo <;> decide

/-- An extension has no dot. -/
theorem dot_notMem_extension (algo : ChecksumAlgo) : '.' ∉ algo.extension.toList := by cases algo <;> decide

/-- Different algorithms have different extensions. -/
theorem extension_injective : Function.Injective extension := by
  intro left right same
  have found := fromExtension_eq_some_iff.mpr (Eq.refl left.extension)
  rw [same, fromExtension_eq_some_iff.mpr rfl, Option.some.injEq] at found
  exact found.symm

end ChecksumAlgo

/-- The SHA-1 function, known only by the length of its results. -/
structure Sha1 where
  hash : Bytes → Bytes
  sized : ∀ bytes, (hash bytes).length = 20

/-- The hash functions of a repository. -/
structure ChecksumHashes where
  sha1 : Sha1
  -- The blob store uses these too.
  store : Hashes

/-- The checksum of bytes in hex; MD5 is not computed. -/
def computeChecksum (hashes : ChecksumHashes) : ChecksumAlgo → Bytes → Option String
  | .sha1, bytes => some (String.ofList (Hex.encode (hashes.sha1.hash bytes)))
  | .sha256, bytes => some (String.ofList (Hex.encode (hashes.store.sha256.hash bytes)))
  | .sha512, bytes => some (String.ofList (Hex.encode (hashes.store.sha512.hash bytes)))
  | .md5, _ => none

section Sidecar

/-- The characters that separate words. -/
def isWhitespace (ch : Char) : Bool :=
  (9 ≤ ch.toNat && ch.toNat ≤ 13) || ch.toNat == 0x20 || ch.toNat == 0x85 ||
    ch.toNat == 0xA0 || ch.toNat == 0x1680 ||
    (0x2000 ≤ ch.toNat && ch.toNat ≤ 0x200A) || ch.toNat == 0x2028 ||
    ch.toNat == 0x2029 || ch.toNat == 0x202F || ch.toNat == 0x205F ||
    ch.toNat == 0x3000

/-- The first line of a text. -/
def firstLine (text : String) : String :=
  match splitOnce '\n' text with
  | some (line, _) => (stripSuffix "\r" line).getD line
  | none => text

/-- A text without the separators around it. -/
def trim (text : String) : String :=
  String.ofList ((text.toList.dropWhile isWhitespace).reverse.dropWhile isWhitespace).reverse

/-- The first word of a text, empty if there is none. -/
def firstWord (text : String) : String :=
  String.ofList ((text.toList.dropWhile isWhitespace).takeWhile fun ch => !isWhitespace ch)

/-- The checksum a sidecar declares. -/
def parseSidecar (algo : ChecksumAlgo) (body : Bytes) : Except MavenError String :=
  match fromUtf8 body with
  | none => .error (.checksumMismatch "sidecar is not valid UTF-8")
  | some text =>
    let token := firstWord (trim (firstLine text))
    let hex := Digest.lowered (trim token)
    if hex.utf8ByteSize ≠ algo.hexLen then
      .error (.checksumMismatch ("expected " ++ toString algo.hexLen ++ " hex characters for " ++
        algo.debugName ++ ", got " ++ toString hex.utf8ByteSize))
    else if !hex.toList.all isAsciiHexdigit then
      .error (.checksumMismatch "sidecar contains non-hex characters")
    else .ok hex

variable {text : String}

private theorem trim_of_forall (solid : ∀ ch ∈ text.toList, isWhitespace ch = false) : trim text = text := by
  have kept (characters : List Char) (all : ∀ ch ∈ characters, isWhitespace ch = false) :
      characters.dropWhile isWhitespace = characters := by
    cases characters with
    | nil => rfl
    | cons first rest =>
      have solid := all first List.mem_cons_self
      exact List.dropWhile_cons_of_neg (by rw [solid]; exact Bool.false_ne_true)
  rw [trim, kept _ solid, kept, List.reverse_reverse, String.ofList_toList]
  exact fun ch member => solid ch (List.mem_reverse.mp member)

private theorem firstWord_of_forall (solid : ∀ ch ∈ text.toList, isWhitespace ch = false) :
    firstWord text = text := by
  have all : ∀ ch ∈ text.toList, (!isWhitespace ch) = true := fun ch member => by
    rw [solid ch member]; rfl
  have whole : text.toList.dropWhile isWhitespace = text.toList := by
    have trimmed := List.dropWhile_eq_self_iff (p := isWhitespace) (l := text.toList)
    exact trimmed.mpr fun filled => by rw [solid _ (List.getElem_mem filled)]; exact Bool.false_ne_true
  rw [firstWord, whole, List.takeWhile_eq_self_iff.mpr all, String.ofList_toList]

private theorem firstLine_of_notMem (single : '\n' ∉ text.toList) : firstLine text = text := by
  rw [firstLine]
  split
  · rename_i line rest found
    rw [(splitOnce_eq_some_iff.mp found).1] at single
    simp at single
  · rfl

private theorem isWhitespace_of_isLower {digit : Char} (lower : Hex.IsLower digit) : isWhitespace digit = false := by
  have all : ("0123456789abcdef".toList.all fun digit => isWhitespace digit == false) = true := by decide +kernel
  exact eq_of_beq (List.all_eq_true.mp all digit lower)

variable {hashes : ChecksumHashes} {algo : ChecksumAlgo} {bytes : Bytes} {hex : String}
  (computed : computeChecksum hashes algo bytes = some hex)

include computed

private theorem hex_of_computeChecksum :
    hex.utf8ByteSize = algo.hexLen ∧ ∀ digit ∈ hex.toList, Hex.IsLower digit := by
  have spelled (hash : Bytes) (length : Nat) (sized : hash.length = length) :
      (String.ofList (Hex.encode hash)).utf8ByteSize = 2 * length ∧
        ∀ digit ∈ (String.ofList (Hex.encode hash)).toList, Hex.IsLower digit := by
    constructor
    · rw [utf8ByteSize_ofList fun _ member => utf8Size_of_isLower (Hex.isLower_of_mem_encode member),
        Hex.length_encode, sized]
    · intro digit member
      rw [String.toList_ofList] at member
      exact Hex.isLower_of_mem_encode member
  cases algo with
  | md5 => cases computed
  | sha1 => cases computed; exact spelled _ 20 (hashes.sha1.sized bytes)
  | sha256 => cases computed; exact spelled _ 32 (hashes.store.sha256.sized bytes)
  | sha512 => cases computed; exact spelled _ 64 (hashes.store.sha512.sized bytes)

/-- A sidecar with the text of a computed checksum declares it. -/
theorem parseSidecar_textBytes : parseSidecar algo (textBytes hex) = .ok hex := by
  obtain ⟨sized, lower⟩ := hex_of_computeChecksum computed
  have solid : ∀ ch ∈ hex.toList, isWhitespace ch = false := fun ch member =>
    isWhitespace_of_isLower (lower ch member)
  have single : '\n' ∉ hex.toList := fun member => by
    have := solid '\n' member
    cases this
  have same : Digest.lowered hex = hex := by
    have all : ("0123456789abcdef".toList.all fun digit => decide (digit.toLower = digit)) = true := by
      decide +kernel
    rw [Digest.lowered, List.map_congr_left (g := id), List.map_id, String.ofList_toList]
    exact fun digit member => of_decide_eq_true (List.all_eq_true.mp all digit (lower digit member))
  have digits : hex.toList.all isAsciiHexdigit = true := by
    have all : "0123456789abcdef".toList.all isAsciiHexdigit = true := by decide +kernel
    exact List.all_eq_true.mpr fun digit member => List.all_eq_true.mp all digit (lower digit member)
  rw [parseSidecar, fromUtf8_textBytes]
  simp only [firstLine_of_notMem single, trim_of_forall solid, firstWord_of_forall solid, same, sized, digits]
  simp

end Sidecar

end FerroProtocols.Maven
