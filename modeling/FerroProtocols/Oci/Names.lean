import FerroProtocols.Oci.Error
import FerroProtocols.Oci.Registry

/-! Repository names and references as requests spell them. -/

namespace FerroProtocols.Oci

open BlobStore

/-- The largest number of bytes of a repository name. -/
def maxNameLength : Nat := 255

/-- The largest number of bytes of a tag. -/
def maxTagLength : Nat := 128

/-- A lower-case letter or a digit. -/
def isAlnum (ch : Char) : Bool := ch.isDigit || ch.isLower

/-- What may stand between two runs of letters and digits. -/
def isValidSeparator (text : List Char) : Bool :=
  decide (text = ['.'] ∨ text = ['_'] ∨ text = ['_', '_']) ||
    -- One dash or more.
    !text.isEmpty && text.all fun ch => decide (ch = '-')

private theorem length_dropWhile_lt (first : Char) (rest : List Char) :
    (rest.dropWhile fun ch => !isAlnum ch).length < (first :: rest).length :=
  Nat.lt_succ_of_le (List.dropWhile_sublist _).length_le

/-- The first run of separators that is not a valid one. -/
def invalidSeparator (text : List Char) : Option (List Char) :=
  match text with
  | [] => none
  | first :: rest =>
    if isAlnum first then invalidSeparator rest
    else
      -- The run goes on up to the next letter or digit.
      let run := first :: rest.takeWhile fun ch => !isAlnum ch
      if isValidSeparator run then
        invalidSeparator (rest.dropWhile fun ch => !isAlnum ch)
      else some run
termination_by text.length
decreasing_by
  · exact Nat.lt_succ_self _
  · exact length_dropWhile_lt first rest

/-- A component of a name in quotes. -/
def quoted (text : List Char) : String := "`" ++ String.ofList text ++ "`"

/-- Check one component of a name. -/
def validateComponent (component : List Char) : Except String Unit :=
  match component.head?, component.getLast? with
  | some first, some last =>
    if !isAlnum first then .error ("component " ++ quoted component ++ " must start with [a-z0-9]")
    else if !isAlnum last then .error ("component " ++ quoted component ++ " must end with [a-z0-9]")
    else
      match invalidSeparator component with
      | some sep =>
        .error ("component " ++ quoted component ++ " contains invalid separator " ++ quoted sep)
      | none => .ok ()
  | _, _ => .error "path component must not be empty"

/-- Check the components of a name in order. -/
def validateComponents : List (List Char) → Except String Unit
  | [] => .ok ()
  | component :: rest =>
    match validateComponent component with
    | .error message => .error message
    | .ok () => validateComponents rest

/-- Check a repository name. -/
def validateName (name : String) : Except OciError Unit :=
  if name.isEmpty then .error ⟨.nameInvalid, "repository name must not be empty", none⟩
  else if name.utf8ByteSize > maxNameLength then
    .error ⟨.nameInvalid, "repository name exceeds " ++ toString maxNameLength ++ " characters", none⟩
  else
    match validateComponents (name.toList.splitOn '/') with
    | .error message => .error ⟨.nameInvalid, message, none⟩
    | .ok () => .ok ()

/-- A character that a tag may have after its first one. -/
def isTagCharacter (ch : Char) : Bool :=
  ch.isAlphanum || decide (ch = '_' ∨ ch = '.' ∨ ch = '-')

/-- A tag as requests may spell it. -/
def isValidTag (tag : String) : Bool :=
  match tag.toList with
  | [] => false
  | first :: rest =>
    decide (tag.utf8ByteSize ≤ maxTagLength) && (first.isAlphanum || decide (first = '_')) &&
      rest.all isTagCharacter

/-- The reference a text stands for: a digest if it has a colon, and a tag otherwise. -/
def parseReference (text : String) : Except OciError Reference :=
  match Digest.splitOnce text ':' with
  -- A text with a colon can only be a digest.
  | some (algo, _) =>
    if algo = "sha256" ∨ algo = "sha512" then
      match Digest.parse text with
      | .error error => .error ⟨.digestInvalid, error.text, none⟩
      | .ok digest => .ok (.digest digest)
    else .error ⟨.manifestInvalid, "invalid reference: `" ++ text ++ "`", none⟩
  | none =>
    if isValidTag text then .ok (.tag text)
    else .error ⟨.manifestInvalid, "invalid tag: `" ++ text ++ "`", none⟩

/-- A character that stands for itself in the query of an address. -/
def isPlain (ch : Char) : Bool :=
  ch.isAlphanum || decide (ch = '_' ∨ ch = '.' ∨ ch = '-' ∨ ch = '/')

section Plain

variable {ch : Char}

private theorem isPlain_of_isAlnum (alnum : isAlnum ch = true) : isPlain ch = true := by
  simp only [isAlnum, Bool.or_eq_true] at alnum
  -- Alphanumeric characters are the upper-case letters, the lower-case letters and the digits.
  change (((ch.isUpper || ch.isLower) || ch.isDigit) || _) = true
  rcases alnum with digit | lower
  · simp [digit]
  · simp [lower]

/-- A check that letters, digits and separators pass is passed by every text without an invalid separator. -/
theorem all_of_invalidSeparator {inside : Char → Bool} (alnums : ∀ ch, isAlnum ch = true → inside ch = true)
    (separators : ∀ ch ∈ ['.', '_', '-'], inside ch = true) {text : List Char}
    (clean : invalidSeparator text = none) : text.all inside = true := by
  -- The induction follows the walk, which skips a letter or a whole run.
  fun_induction invalidSeparator text with
  | case1 => rfl
  | case2 first rest alnum ih => simp [alnums first alnum, ih clean]
  | case3 first rest other run valid ih =>
    have passes : run.all inside = true := by
      simp only [isValidSeparator, Bool.or_eq_true, Bool.and_eq_true, decide_eq_true_eq] at valid
      rcases valid with (same | same | same) | ⟨_, dashes⟩
      · simp [same, separators]
      · simp [same, separators]
      · simp [same, separators]
      · rw [List.all_eq_true] at dashes ⊢
        intro ch member
        rw [of_decide_eq_true (dashes ch member)]
        exact separators '-' (by simp)
    have whole : first :: rest = run ++ rest.dropWhile fun ch => !isAlnum ch := by
      rw [List.cons_append, List.takeWhile_append_dropWhile]
    rw [whole, List.all_append, passes, ih clean]
    rfl
  | case4 first rest other run invalid => cases clean

/-- What a component has that passes. -/
theorem of_validateComponent {component : List Char} (valid : validateComponent component = .ok ()) :
    (∃ first ∈ component.head?, isAlnum first = true) ∧ (∃ last ∈ component.getLast?, isAlnum last = true) ∧
      invalidSeparator component = none := by
  unfold validateComponent at valid
  split at valid
  · rename_i first last begins ends
    split at valid
    · cases valid
    · split at valid
      · cases valid
      · split at valid
        · cases valid
        · rename_i begun ended _ clean
          exact ⟨⟨first, begins, by simpa using begun⟩, ⟨last, ends, by simpa using ended⟩, clean⟩
  · cases valid

private theorem isPlain_of_validateComponent {component : List Char}
    (valid : validateComponent component = .ok ()) : component.all isPlain = true :=
  all_of_invalidSeparator (fun _ => isPlain_of_isAlnum) (by simp [isPlain]) (of_validateComponent valid).2.2

private theorem validateComponents_ok_iff {components : List (List Char)} :
    validateComponents components = .ok () ↔ ∀ component ∈ components, validateComponent component = .ok () := by
  induction components with
  | nil => simp [validateComponents]
  | cons component rest ih =>
    rw [validateComponents, List.forall_mem_cons, ← ih]
    cases validateComponent component with
    | error | ok => simp

/-- A name passes if it is not too long and all its components pass. -/
theorem validateName_ok_iff {name : String} : validateName name = .ok () ↔ name.utf8ByteSize ≤ maxNameLength ∧
    ∀ component ∈ name.toList.splitOn '/', validateComponent component = .ok () := by
  rw [← validateComponents_ok_iff, validateName]
  by_cases none : name.isEmpty = true
  · -- The one component of the empty name does not pass.
    rw [String.isEmpty_iff.mp none]
    decide
  · rw [if_neg none]
    by_cases long : name.utf8ByteSize > maxNameLength
    · rw [if_pos long]
      simp [Nat.not_le.mpr long]
    · rw [if_neg long]
      cases validateComponents (name.toList.splitOn '/') with
      | error message => simp
      | ok passed => simp [Nat.le_of_not_gt long]

private theorem isPlain_intercalate {pieces : List (List Char)}
    (plain : ∀ piece ∈ pieces, piece.all isPlain = true) :
    (['/'].intercalate pieces).all isPlain = true := by
  induction pieces with
  | nil => rfl
  | cons piece rest ih =>
    have here := plain piece (by simp)
    have later := ih fun other member => plain other (by simp [member])
    cases rest with
    | nil => simpa using here
    | cons next rest =>
      rw [List.intercalate_cons_cons, List.all_append, List.all_append, here, later]
      rfl

/-- A repository name that passes has plain characters only. -/
theorem isPlain_of_validateName {name : String} (valid : validateName name = .ok ()) :
    name.toList.all isPlain = true := by
  -- The components joined again are the name.
  have joined : ['/'].intercalate (name.toList.splitOn '/') = name.toList := List.intercalate_splitOn '/'
  rw [← joined]
  exact isPlain_intercalate fun component member =>
    isPlain_of_validateComponent ((validateName_ok_iff.mp valid).2 component member)

/-- A tag that passes has plain characters only. -/
theorem isPlain_of_isValidTag {tag : String} (valid : isValidTag tag = true) : tag.toList.all isPlain = true := by
  unfold isValidTag at valid
  cases spelled : tag.toList with
  | nil => rfl
  | cons first rest =>
    simp only [spelled, Bool.and_eq_true, Bool.or_eq_true, decide_eq_true_eq] at valid
    obtain ⟨⟨_, begins⟩, others⟩ := valid
    simp only [List.all_cons, Bool.and_eq_true, isPlain, Bool.or_eq_true, decide_eq_true_eq]
    -- The first character is from a smaller set than the others, and both sets are plain.
    refine ⟨by tauto, ?_⟩
    rw [List.all_eq_true] at others ⊢
    intro ch member
    have passed := others ch member
    simp only [isTagCharacter, Bool.or_eq_true, decide_eq_true_eq] at passed
    simp only [isPlain, Bool.or_eq_true, decide_eq_true_eq]
    tauto

private theorem toNat_of_between (low high : UInt32)
    (between : (decide (low ≤ ch.val) && decide (ch.val ≤ high)) = true) :
    low.toNat ≤ ch.toNat ∧ ch.toNat ≤ high.toNat := by
  simp only [Bool.and_eq_true, decide_eq_true_eq, UInt32.le_iff_toNat_le] at between
  exact between

/-- A plain character is a visible one. -/
theorem toNat_of_isPlain (plain : isPlain ch = true) : 32 ≤ ch.toNat ∧ ch.toNat < 127 := by
  rcases Bool.or_eq_true_iff.mp plain with alphanum | other
  · -- Letters and digits are three ranges of code points.
    change ((ch.isUpper || ch.isLower) || ch.isDigit) = true at alphanum
    simp only [Bool.or_eq_true] at alphanum
    rcases alphanum with (upper | lower) | digit
    · have bounds : 65 ≤ ch.toNat ∧ ch.toNat ≤ 90 :=
        toNat_of_between 65 90 ((Bool.decide_and _ _).symm.trans upper)
      omega
    · have bounds : 97 ≤ ch.toNat ∧ ch.toNat ≤ 122 := toNat_of_between 97 122 lower
      omega
    · have bounds : 48 ≤ ch.toNat ∧ ch.toNat ≤ 57 := toNat_of_between 48 57 digit
      omega
  · rcases of_decide_eq_true other with rfl | rfl | rfl | rfl
    all_goals decide

/-- A plain character has one byte. -/
theorem utf8Size_of_isPlain (plain : isPlain ch = true) : ch.utf8Size = 1 := by
  have bounds := toNat_of_isPlain plain
  have narrow : ch.val ≤ 127 := by
    rw [UInt32.le_iff_toNat_le]
    change ch.toNat ≤ 127
    omega
  exact if_pos narrow

end Plain

end FerroProtocols.Oci
