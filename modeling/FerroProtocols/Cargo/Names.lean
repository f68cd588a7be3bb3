import FerroProtocols.Cargo.Error
import Mathlib.Data.List.Forall2

/-! Names of crates, and the keys under which spellings of one name come together. -/

namespace FerroProtocols.Cargo

open BlobStore

/-- The largest number of bytes of a name. -/
def maxNameLen : Nat := 64

/-- A character that a name may have after its first one. -/
def isNameCharacter (ch : Char) : Bool :=
  ch.isAlphanum || decide (ch = '-') || decide (ch = '_')

/-- A name starts with an ASCII letter, and goes on with letters, digits, hyphens and underscores. -/
def isValidName (name : String) : Bool :=
  if name.utf8ByteSize = 0 ∨ maxNameLen < name.utf8ByteSize then false
  else
    match name.toList with
    | [] => false
    | first :: rest => first.isAlpha && rest.all isNameCharacter

/-- Accept a name, or say that it is not valid. -/
def validateName (name : String) : Except CargoError Unit :=
  if isValidName name then .ok () else .error (.invalidName name)

/-- Spellings do not tell apart the case of a letter, and a hyphen from an underscore. -/
def foldCharacter (ch : Char) : Char :=
  if ch.toLower = '-' then '_' else ch.toLower

/-- The key of a name. -/
def canonicalName (name : String) : String := String.ofList (name.toList.map foldCharacter)

section Spellings

private theorem toLower_cases (ch : Char) : (ch.isUpper = true ∧ 65 ≤ ch.val.toNat ∧
      ch.val.toNat ≤ 90 ∧ ch.toLower.val.toNat = ch.val.toNat + 32) ∨
    ch.isUpper = false ∧ ch.toLower = ch := by
  by_cases upper : ch.isUpper = true
  · have between : ch.val ≥ 'A'.val ∧ ch.val ≤ 'Z'.val := of_decide_eq_true upper
    have bounds : 65 ≤ ch.val.toNat ∧ ch.val.toNat ≤ 90 := by
      simp only [ge_iff_le, UInt32.le_iff_toNat_le] at between
      exact between
    have folded : ch.toLower = ⟨ch.val + 32, _⟩ := dif_pos between
    refine .inl ⟨upper, bounds.1, bounds.2, ?_⟩
    rw [folded]
    change (ch.val + 32).toNat = _
    rw [UInt32.toNat_add]
    change (ch.val.toNat + 32) % 2 ^ 32 = _
    omega
  · exact .inr ⟨Bool.eq_false_of_not_eq_true upper, dif_neg fun between => upper (decide_eq_true between)⟩

private theorem eq_of_toLower_eq {ch other : Char} (small : other.val.toNat < 97)
    (same : ch.toLower = other) : ch = other := by
  rcases toLower_cases ch with ⟨_, _, _, lowered⟩ | ⟨_, kept⟩
  · rw [same] at lowered
    omega
  · rw [← kept, same]

private theorem foldCharacter_cases (ch : Char) : foldCharacter ch = ch ∨ ch = '-' ∨
      ch.isUpper = true ∧ (foldCharacter ch).isLower = true := by
  unfold foldCharacter
  by_cases hyphen : ch.toLower = '-'
  · exact .inr (.inl (eq_of_toLower_eq (by decide) hyphen))
  · rw [if_neg hyphen]
    rcases toLower_cases ch with ⟨upper, least, most, lowered⟩ | ⟨_, kept⟩
    · refine .inr (.inr ⟨upper, ?_⟩)
      change (decide (97 ≤ ch.toLower.val) && decide (ch.toLower.val ≤ 122)) = true
      simp only [Bool.and_eq_true, decide_eq_true_eq, UInt32.le_iff_toNat_le, lowered]
      change 97 ≤ _ ∧ _ ≤ 122
      omega
    · exact .inl kept

private theorem isAlpha_foldCharacter (ch : Char) : (foldCharacter ch).isAlpha = ch.isAlpha := by
  rcases foldCharacter_cases ch with same | rfl | ⟨upper, lower⟩
  · rw [same]
  · rfl
  · change ((foldCharacter ch).isUpper || (foldCharacter ch).isLower) =
      (ch.isUpper || ch.isLower)
    rw [upper, lower, Bool.or_true, Bool.true_or]

private theorem isNameCharacter_foldCharacter (ch : Char) :
    isNameCharacter (foldCharacter ch) = isNameCharacter ch := by
  rcases foldCharacter_cases ch with same | rfl | ⟨upper, lower⟩
  · rw [same]
  · rfl
  · -- Both are letters.
    have after : (foldCharacter ch).isAlphanum = true := by
      change ((foldCharacter ch).isUpper || (foldCharacter ch).isLower ||
        (foldCharacter ch).isDigit) = true
      rw [lower, Bool.or_true, Bool.true_or]
    have before : ch.isAlphanum = true := by
      change (ch.isUpper || ch.isLower || ch.isDigit) = true
      rw [upper, Bool.true_or, Bool.true_or]
    rw [isNameCharacter, isNameCharacter, after, before]
    rfl

private theorem utf8Size_foldCharacter (ch : Char) :
    (foldCharacter ch).utf8Size = ch.utf8Size := by
  rcases foldCharacter_cases ch with same | rfl | ⟨upper, lower⟩
  · rw [same]
  · rfl
  · -- Letters of ASCII have one byte.
    have before : ch.val ≤ 127 := by
      have between := of_decide_eq_true upper
      simp only [ge_iff_le, UInt32.le_iff_toNat_le] at between ⊢
      change 65 ≤ _ ∧ _ ≤ 90 at between
      change _ ≤ 127
      omega
    have after : (foldCharacter ch).val ≤ 127 := by
      have between : (decide (97 ≤ (foldCharacter ch).val) &&
        decide ((foldCharacter ch).val ≤ 122)) = true := lower
      simp only [Bool.and_eq_true, decide_eq_true_eq, UInt32.le_iff_toNat_le] at between ⊢
      change 97 ≤ _ ∧ _ ≤ 122 at between
      change _ ≤ 127
      omega
    exact (if_pos after).trans (if_pos before).symm

private theorem utf8ByteSize_canonicalName (name : String) :
    (canonicalName name).utf8ByteSize = name.utf8ByteSize := by
  have sizes (characters : List Char) : (String.ofList (characters.map foldCharacter)).utf8ByteSize =
      (String.ofList characters).utf8ByteSize := by
    induction characters with
    | nil => rfl
    | cons ch rest ih =>
      have split (ch : Char) (rest : List Char) : String.ofList (ch :: rest) =
          String.singleton ch ++ String.ofList rest := by
        apply String.toList_inj.mp
        simp
      rw [List.map_cons, split, split, String.utf8ByteSize_append, String.utf8ByteSize_append, ih,
        String.utf8ByteSize_singleton, String.utf8ByteSize_singleton, utf8Size_foldCharacter]
  rw [canonicalName, sizes, String.ofList_toList]

private theorem isValidName_canonicalName (name : String) : isValidName (canonicalName name) = isValidName name := by
  have characters : (canonicalName name).toList = name.toList.map foldCharacter := String.toList_ofList
  unfold isValidName
  rw [utf8ByteSize_canonicalName, characters]
  cases name.toList with
  | nil => rfl
  | cons first rest =>
    simp only [List.map_cons, isAlpha_foldCharacter, List.all_map, Function.comp_def, isNameCharacter_foldCharacter]

/-- All spellings of a name are valid, or none is. -/
theorem isValidName_of_canonicalName_eq {name spelling : String}
    (same : canonicalName spelling = canonicalName name) : isValidName spelling = isValidName name := by
  rw [← isValidName_canonicalName, same, isValidName_canonicalName]

/-- Characters that differ in case only, or of which each is a hyphen or an underscore. -/
def SameCharacter (left right : Char) : Prop :=
  left.toLower = right.toLower ∨ (left = '-' ∨ left = '_') ∧ (right = '-' ∨ right = '_')

/-- Names that are the same up to the case of letters, and hyphens for underscores. -/
def SameName (left right : String) : Prop := List.Forall₂ SameCharacter left.toList right.toList

private theorem foldCharacter_eq_iff (left right : Char) :
    foldCharacter left = foldCharacter right ↔ SameCharacter left right := by
  have hyphen (ch : Char) : ch.toLower = '-' ↔ ch = '-' :=
    ⟨eq_of_toLower_eq (by decide), fun same => by rw [same]; rfl⟩
  have underscore (ch : Char) : ch.toLower = '_' ↔ ch = '_' :=
    ⟨eq_of_toLower_eq (by decide), fun same => by rw [same]; rfl⟩
  unfold foldCharacter SameCharacter
  by_cases first : left = '-' <;> by_cases second : right = '-'
  · simp [first, second]
  · have last : '_' = right.toLower ↔ right = '_' := by rw [eq_comm, underscore]
    have other : '-' ≠ right.toLower := fun same => second ((hyphen right).mp same.symm)
    simp [hyphen, first, second, last, other]
  · have last := underscore left
    simp [hyphen, first, second, last]
  · simp only [hyphen, first, second, if_false, false_or]
    refine ⟨.inl, ?_⟩
    rintro (same | ⟨rfl, rfl⟩)
    · exact same
    · rfl

/-- Names have one key exactly if they are the same name. -/
theorem canonicalName_eq_iff {left right : String} :
    canonicalName left = canonicalName right ↔ SameName left right := by
  rw [canonicalName, canonicalName, String.ofList_inj, ← List.forall₂_eq_eq_eq, List.forall₂_map_left_iff,
    List.forall₂_map_right_iff, SameName]
  simp only [foldCharacter_eq_iff]

/-- A name in lower case. -/
def lowerName (name : String) : String := String.ofList (name.toList.map Char.toLower)

/-- A name in lower case has the same key. -/
theorem canonicalName_lowerName (name : String) : canonicalName (lowerName name) = canonicalName name := by
  have again (ch : Char) : ch.toLower.toLower = ch.toLower := by
    rcases toLower_cases ch.toLower with ⟨_, least, most, _⟩ | ⟨_, kept⟩
    · rcases toLower_cases ch with ⟨_, _, _, lowered⟩ | ⟨_, kept⟩
      · omega
      · rw [kept, kept]
    · exact kept
  have folded : foldCharacter ∘ Char.toLower = foldCharacter := by
    funext ch
    simp [foldCharacter, again]
  rw [canonicalName, lowerName, String.toList_ofList, List.map_map, folded, canonicalName]

/-- A name that is accepted is valid. -/
theorem validateName_eq_ok {name : String} : validateName name = .ok () ↔ isValidName name = true := by
  unfold validateName
  split <;> simp_all

end Spellings

end FerroProtocols.Cargo
