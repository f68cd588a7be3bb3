import FerroProtocols.Lib.Texts

/-! Maven coordinates that carry the proof that their fields have passed the checks. -/

namespace FerroProtocols.Maven

open Texts

/-- Why a coordinate is refused. -/
inductive CoordinateParseError where
  | emptyField (field : String)
  | illegalCharacter (field : String) (ch : Char)
  -- The field is one or two dots.
  | pathTraversal (field value : String)
  deriving DecidableEq, Repr

/-- The text of an error. -/
def CoordinateParseError.text : CoordinateParseError → String
  | .emptyField field => "coordinate field `" ++ field ++ "` must not be empty"
  | .illegalCharacter field ch =>
    "coordinate field `" ++ field ++ "` contains illegal character `" ++ String.singleton ch ++ "`"
  | .pathTraversal field value =>
    "coordinate field `" ++ field ++ "` is a path-traversal segment `" ++ value ++ "`"

/-- A control character. -/
def isControl (ch : Char) : Bool := ch.toNat ≤ 0x1F || (0x7F ≤ ch.toNat && ch.toNat ≤ 0x9F)

/-- A character that no field may have. -/
def isIllegal (ch : Char) : Bool := ch == '/' || ch == '\\' || ch == ':' || isControl ch

/-- Check one field. -/
def validateField (field value : String) : Except CoordinateParseError Unit :=
  if value = "" then .error (.emptyField field)
  else if value = "." ∨ value = ".." then .error (.pathTraversal field value)
  else
    match value.toList.find? isIllegal with
    | some ch => .error (.illegalCharacter field ch)
    | none => .ok ()

/-- A text that the check of a field lets through. -/
structure IsField (value : String) : Prop where
  filled : value ≠ ""
  inside : value ≠ "." ∧ value ≠ ".."
  legal : ∀ ch ∈ value.toList, isIllegal ch = false

/-- The check lets exactly these texts through. -/
theorem validateField_ok_iff (field value : String) : validateField field value = .ok () ↔ IsField value := by
  unfold validateField
  by_cases empty : value = ""
  · rw [if_pos empty]
    exact ⟨fun accepted => (by cases accepted), fun isField => absurd empty isField.filled⟩
  rw [if_neg empty]
  by_cases dots : value = "." ∨ value = ".."
  · rw [if_pos dots]
    exact ⟨fun accepted => (by cases accepted), fun isField => absurd dots (not_or.mpr isField.inside)⟩
  rw [if_neg dots]
  cases found : value.toList.find? isIllegal with
  | some ch =>
    -- The character that is reported is one of the text.
    have illegal := List.find?_some found
    have member := List.mem_of_find?_eq_some found
    refine ⟨fun accepted => (by cases accepted), fun isField => ?_⟩
    rw [isField.legal ch member] at illegal
    cases illegal
  | none =>
    rw [List.find?_eq_none] at found
    exact ⟨fun _ => ⟨empty, not_or.mp dots, fun ch member => by simpa using found ch member⟩, fun _ => rfl⟩

/-- A field has no slash. -/
theorem IsField.slash_notMem {value : String} (isField : IsField value) : '/' ∉ value.toList := by
  intro member
  have legal := isField.legal '/' member
  cases legal

/-- A fully qualified Maven coordinate. -/
structure Coordinate where
  groupId : String
  artifactId : String
  version : String
  classifier : Option String
  extension : String
  -- Coordinates are made by the checking constructor only.
  group : IsField groupId
  artifact : IsField artifactId
  versioned : IsField version
  extended : IsField extension
  classified : ∀ text ∈ classifier, IsField text
  deriving DecidableEq

namespace Coordinate

/-- Check fields one after the other. -/
def validateFields : List (String × String) → Except CoordinateParseError Unit
  | [] => .ok ()
  | (field, value) :: rest =>
    match validateField field value with
    | .error error => .error error
    | .ok () => validateFields rest

private theorem validateFields_ok_iff (fields : List (String × String)) :
    validateFields fields = .ok () ↔ ∀ field ∈ fields, IsField field.2 := by
  induction fields with
  | nil => simp [validateFields]
  | cons first rest ih =>
    obtain ⟨field, value⟩ := first
    rw [validateFields, List.forall_mem_cons, ← validateField_ok_iff field value, ← ih]
    cases validateField field value with
    | error | ok => simp

/-- The fields with their names, in the order in which they are checked. -/
def fields (groupId artifactId version : String) (classifier : Option String) (extension : String) :
    List (String × String) :=
  [("groupId", groupId), ("artifactId", artifactId), ("version", version), ("extension", extension)] ++
    classifier.toList.map fun text => ("classifier", text)

private theorem forall_mem_fields {groupId artifactId version extension : String} {classifier : Option String} :
    (∀ field ∈ fields groupId artifactId version classifier extension, IsField field.2) ↔
      IsField groupId ∧ IsField artifactId ∧ IsField version ∧ IsField extension ∧
        ∀ text ∈ classifier, IsField text := by
  cases classifier <;> simp [fields]

/-- A coordinate from its parts. -/
def new (groupId artifactId version : String) (classifier : Option String) (extension : String) :
    Except CoordinateParseError Coordinate :=
  match checked : validateFields (fields groupId artifactId version classifier extension) with
  | .error error => .error error
  | .ok () =>
    have valid := forall_mem_fields.mp ((validateFields_ok_iff _).mp checked)
    .ok ⟨groupId, artifactId, version, classifier, extension, valid.1, valid.2.1, valid.2.2.1, valid.2.2.2.1,
      valid.2.2.2.2⟩

/-- A coordinate is made from exactly its own parts. -/
theorem new_eq_ok_iff {groupId artifactId version extension : String} {classifier : Option String}
    {coord : Coordinate} : new groupId artifactId version classifier extension = .ok coord ↔
      coord.groupId = groupId ∧ coord.artifactId = artifactId ∧ coord.version = version ∧
        coord.classifier = classifier ∧ coord.extension = extension := by
  unfold new
  split
  · rename_i error refused
    refine ⟨fun made => (by cases made), ?_⟩
    rintro ⟨rfl, rfl, rfl, rfl, rfl⟩
    -- The parts of a coordinate have passed the checks already.
    have valid := (validateFields_ok_iff _).mpr (forall_mem_fields.mpr
      ⟨coord.group, coord.artifact, coord.versioned, coord.extended, coord.classified⟩)
    rw [valid] at refused
    cases refused
  · obtain ⟨⟩ := coord
    simp only [Except.ok.injEq, mk.injEq]
    exact ⟨fun ⟨a, b, c, d, e⟩ => ⟨a.symm, b.symm, c.symm, d.symm, e.symm⟩,
      fun ⟨a, b, c, d, e⟩ => ⟨a.symm, b.symm, c.symm, d.symm, e.symm⟩⟩

/-- The group with slashes for dots. -/
def groupPath (coord : Coordinate) : String := replace '.' "/" coord.groupId

/-- The name of a file, from the parts of its coordinate. -/
def filenameOf (artifactId version : String) (classifier : Option String) (extension : String) : String :=
  match classifier with
  | none => artifactId ++ "-" ++ version ++ "." ++ extension
  | some text => artifactId ++ "-" ++ version ++ "-" ++ text ++ "." ++ extension

/-- The name of the file of a coordinate. -/
def filename (coord : Coordinate) : String :=
  filenameOf coord.artifactId coord.version coord.classifier coord.extension

/-- The path of a coordinate in a repository. -/
def repositoryPath (coord : Coordinate) : String :=
  coord.groupPath ++ "/" ++ coord.artifactId ++ "/" ++ coord.version ++ "/" ++
    coord.filename

end Coordinate

end FerroProtocols.Maven
