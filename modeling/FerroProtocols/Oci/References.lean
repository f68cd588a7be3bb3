import FerroProtocols.Oci.Routing

/-! The texts that are references, and the forms that references are displayed in. -/

namespace FerroProtocols.Oci

open BlobStore Endpoint Digest

/-- The expression `[a-zA-Z0-9_][a-zA-Z0-9._-]{0,127}` matches a text. -/
def IsTag (text : String) : Prop :=
  ∃ first rest, text.toList = first :: rest ∧ (first.isAlphanum = true ∨ first = '_') ∧ rest.length ≤ 127 ∧
    ∀ ch ∈ rest, isTagCharacter ch = true

/-- A text is that of an algorithm, a colon, and as many hex digits as the algorithm asks for. -/
def IsDigest (text : String) (algo : DigestAlgo) (hex : String) : Prop :=
  text = algo.prefixText ++ ":" ++ hex ∧ hex.toList.length = algo.hexLen ∧
    ∀ ch ∈ hex.toList, isAsciiHexdigit ch = true

variable {text hex : String} {algo : DigestAlgo} {digest : Digest}

private theorem isPlain_of_isTagCharacter {ch : Char} (allowed : isTagCharacter ch = true) :
    isPlain ch = true := by
  simp only [isTagCharacter, isPlain, Bool.or_eq_true, decide_eq_true_eq] at allowed ⊢
  tauto

private theorem isValidTag_iff : isValidTag text = true ↔ IsTag text := by
  unfold isValidTag IsTag
  cases spelled : text.toList with
  | nil => simp
  | cons first rest =>
    have sized (begins : first.isAlphanum = true ∨ first = '_') (others : ∀ ch ∈ rest, isTagCharacter ch = true) :
        text.utf8ByteSize = rest.length + 1 := by
      rw [← @String.ofList_toList text, spelled, utf8ByteSize_ofList, List.length_cons]
      refine List.forall_mem_cons.mpr ⟨utf8Size_of_isPlain ?_, fun ch member =>
        utf8Size_of_isPlain (isPlain_of_isTagCharacter (others ch member))⟩
      simp only [isPlain, Bool.or_eq_true, decide_eq_true_eq]
      tauto
    simp only [Bool.and_eq_true, Bool.or_eq_true, decide_eq_true_eq, List.all_eq_true]
    constructor
    · rintro ⟨⟨short, begins⟩, others⟩
      rw [sized begins others] at short
      exact ⟨first, rest, rfl, begins, Nat.le_of_succ_le_succ short, others⟩
    · rintro ⟨first, rest, same, begins, short, others⟩
      cases same
      rw [sized begins others]
      exact ⟨⟨Nat.succ_le_succ short, begins⟩, others⟩

private theorem validateHex_iff : Digest.validateHex algo hex = .ok () ↔
    hex.toList.length = algo.hexLen ∧ ∀ ch ∈ hex.toList, isAsciiHexdigit ch = true := by
  rw [validateHex_ok_iff]
  refine and_congr_left fun digits => ?_
  rw [← utf8ByteSize_ofList fun ch member => utf8Size_of_hexdigit (digits ch member),
    String.ofList_toList]

private theorem splitOnce_of_colon {before after : List Char} (shape : text.toList = before ++ ':' :: after)
    (first : ':' ∉ before) : Digest.splitOnce text ':' = some (String.ofList before, String.ofList after) := by
  have others : ∀ ch ∈ before, decide (ch ≠ ':') = true := by
    intro ch member
    rw [decide_eq_true_eq]
    rintro rfl
    exact first member
  rw [Digest.splitOnce, shape, List.dropWhile_append_of_pos others, List.takeWhile_append_of_pos others]
  simp

private theorem splitOnce_of_notMem (missing : ':' ∉ text.toList) : Digest.splitOnce text ':' = none := by
  have none : (text.toList.dropWhile fun ch => decide (ch ≠ ':')) = [] := by
    rw [List.dropWhile_eq_nil_iff]
    intro ch member
    rw [decide_eq_true_eq]
    rintro rfl
    exact missing member
  rw [Digest.splitOnce, none]

private theorem colon_notMem_tag (tag : IsTag text) : ':' ∉ text.toList := by
  obtain ⟨first, rest, shape, begins, _, others⟩ := tag
  rw [shape, List.mem_cons, not_or]
  constructor
  · rintro rfl
    exact absurd begins (by decide)
  · exact fun member => absurd (others ':' member) (by decide)

private theorem splitOnce_digest (spelled : IsDigest text algo hex) :
    Digest.splitOnce text ':' = some (algo.prefixText, hex) := by
  have shape : text.toList = algo.prefixText.toList ++ ':' :: hex.toList := by
    rw [spelled.1]
    simp
  rw [splitOnce_of_colon shape (by cases algo <;> decide), String.ofList_toList, String.ofList_toList]

private theorem not_isDigest_of_isTag (tag : IsTag text) : ¬ IsDigest text algo hex := by
  intro spelled
  have cut := splitOnce_digest spelled
  rw [splitOnce_of_notMem (colon_notMem_tag tag)] at cut
  cases cut

private theorem parsePrefix_eq_some_iff : DigestAlgo.parsePrefix text = some algo ↔ text = algo.prefixText := by
  constructor
  · intro known
    unfold DigestAlgo.parsePrefix at known
    split at known
    · cases known
      assumption
    · split at known
      · cases known
        assumption
      · cases known
  · rintro rfl
    exact DigestAlgo.parsePrefix_prefixText algo

private theorem parse_ok_iff : Digest.parse text = .ok digest ↔
    ∃ algo hex, IsDigest text algo hex ∧ digest.algo = algo ∧ digest.hex = Digest.lowered hex := by
  constructor
  · intro parsed
    by_cases colon : ':' ∈ text.toList
    · obtain ⟨before, after, shape, first⟩ := List.eq_append_cons_of_mem colon
      rw [Digest.parse, splitOnce_of_colon shape first] at parsed
      cases known : DigestAlgo.parsePrefix (String.ofList before) with
      | none => simp [known] at parsed
      | some algo =>
        simp only [known] at parsed
        obtain ⟨valid, same, lower⟩ := new_ok_iff.mp parsed
        refine ⟨algo, _, ⟨?_, validateHex_iff.mp valid⟩, same, lower⟩
        rw [← parsePrefix_eq_some_iff.mp known, ← String.toList_inj]
        simp [shape]
    · rw [Digest.parse, splitOnce_of_notMem colon] at parsed
      cases parsed
  · rintro ⟨algo, hex, spelled, same, lower⟩
    rw [Digest.parse, splitOnce_digest spelled]
    simp only [DigestAlgo.parsePrefix_prefixText]
    exact new_ok_iff.mpr ⟨validateHex_iff.mpr spelled.2, same, lower⟩

private theorem parseReference_ok_iff {ref : Reference} :
    parseReference text = .ok ref ↔ (IsTag text ∧ ref = .tag text) ∨
      ∃ digest, Digest.parse text = .ok digest ∧ ref = .digest digest := by
  by_cases colon : ':' ∈ text.toList
  · obtain ⟨before, after, shape, first⟩ := List.eq_append_cons_of_mem colon
    have cut := splitOnce_of_colon shape first
    have other : ¬ IsTag text := fun tag => colon_notMem_tag tag colon
    rw [parseReference, cut]
    simp only [other, false_and, false_or]
    by_cases known : String.ofList before = "sha256" ∨ String.ofList before = "sha512"
    · rw [if_pos known]
      cases Digest.parse text with
      | error error => simp
      | ok digest => simp [eq_comm]
    · have unsupported : DigestAlgo.parsePrefix (String.ofList before) = none := by
        rw [not_or] at known
        rw [DigestAlgo.parsePrefix, if_neg known.1, if_neg known.2]
      rw [if_neg known, Digest.parse, cut]
      simp [unsupported]
  · rw [parseReference, splitOnce_of_notMem colon, ← isValidTag_iff]
    have other : Digest.parse text = .error .missingSeparator := by rw [Digest.parse, splitOnce_of_notMem colon]
    cases isValidTag text <;> simp [other, eq_comm]

/-- The texts that are read are the tags and the spelled digests, and no text is both. The form a tag is displayed in
is the text it was read from, and that of a digest has its digits in lower case; a reference is read back from that
form exactly if it is not a tag outside of the grammar. -/
theorem references_exact :
    (∀ text, ((∃ ref, parseReference text = .ok ref) ↔
          IsTag text ∨ ∃ algo hex, IsDigest text algo hex) ∧ ¬ (IsTag text ∧ ∃ algo hex, IsDigest text algo hex) ∧
        ∀ ref, parseReference text = .ok ref → (IsTag text → referenceText ref = text) ∧
          ∀ algo hex, IsDigest text algo hex → referenceText ref = algo.prefixText ++ ":" ++ Digest.lowered hex) ∧
      ∀ ref, parseReference (referenceText ref) = .ok ref ↔
        ∀ tag, ref = .tag tag → IsTag tag := by
  constructor
  · intro text
    refine ⟨⟨?_, ?_⟩, ?_, ?_⟩
    · rintro ⟨ref, parsed⟩
      rcases parseReference_ok_iff.mp parsed with ⟨tag, _⟩ | ⟨digest, spelled, _⟩
      · exact .inl tag
      · obtain ⟨algo, hex, spelled, _⟩ := parse_ok_iff.mp spelled
        exact .inr ⟨algo, hex, spelled⟩
    · rintro (tag | ⟨algo, hex, spelled⟩)
      · exact ⟨_, parseReference_ok_iff.mpr (.inl ⟨tag, rfl⟩)⟩
      · obtain ⟨digest, made⟩ := exists_new (validateHex_iff.mpr spelled.2)
        exact ⟨_, parseReference_ok_iff.mpr (.inr ⟨digest, parse_ok_iff.mpr
          ⟨algo, hex, spelled, (new_ok_iff.mp made).2⟩, rfl⟩)⟩
    · rintro ⟨tag, algo, hex, spelled⟩
      exact not_isDigest_of_isTag tag spelled
    · intro ref parsed
      rcases parseReference_ok_iff.mp parsed with ⟨tag, rfl⟩ | ⟨digest, spelled, rfl⟩
      · exact ⟨fun _ => rfl, fun algo hex spelled => absurd spelled (not_isDigest_of_isTag tag)⟩
      · obtain ⟨algo, hex, spelled, rfl, lower⟩ := parse_ok_iff.mp spelled
        refine ⟨fun tag => absurd spelled (not_isDigest_of_isTag tag), fun other digits again => ?_⟩
        have cut := splitOnce_digest again
        rw [splitOnce_digest spelled, Option.some.injEq, Prod.mk.injEq] at cut
        rw [referenceText, Digest.toString, lower, cut.1, cut.2]
  · intro ref
    cases ref with
    | tag tag =>
      rw [parseReference_ok_iff]
      simp [referenceText]
    | digest digest =>
      rw [parseReference_ok_iff]
      simp [referenceText, parse_toString]

/-- A tag that was not read from a text is not read back: the empty one is refused, and one with the text of a digest
becomes the digest. -/
theorem built_tag_not_read_back : parseReference (referenceText (.tag "")) =
        .error ⟨.manifestInvalid, "invalid tag: ``", none⟩ ∧
      parseReference (referenceText (.tag emptySha.toString)) = .ok (.digest emptySha) := by
  decide +kernel

end FerroProtocols.Oci
