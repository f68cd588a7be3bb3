import FerroProtocols.Airflow.LineIndex
import FerroProtocols.Lib.Distinct
import FerroProtocols.Lib.Fallible
import FerroProtocols.Lib.Links
import FerroProtocols.Lib.Splice

/-! Identifiers that have passed their check, what is extracted of a DAG, and errors. -/

namespace FerroProtocols.Airflow

/-- The two kinds of identifiers. -/
inductive IdentifierKind where
  | dagId
  | taskId
  deriving DecidableEq, Repr

/-- The greatest length of an identifier, in characters. -/
def maxIdentifierLen : Nat := 250

/-- Why an identifier is refused. -/
inductive IdentifierError where
  | empty (kind : IdentifierKind)
  | tooLong (kind : IdentifierKind) (maxLen len : Nat)
  | invalidCharacter (kind : IdentifierKind) (bad : Char)
  deriving DecidableEq, Repr

/-- A character that identifiers may have. -/
def isSafeAirflowChar (c : Char) : Bool := c.isAlphanum || c == '_' || c == '-' || c == '.'

/-- The check of an identifier. -/
def validateSafeIdentifier (kind : IdentifierKind) (value : String) (maxLen : Nat) : Except IdentifierError Unit :=
  if value = "" then .error (.empty kind)
  else if maxLen < value.length then .error (.tooLong kind maxLen value.length)
  else
    match value.toList.find? fun c => !isSafeAirflowChar c with
    | some bad => .error (.invalidCharacter kind bad)
    | none => .ok ()

/-- A text that has passed the check of its kind. -/
structure SafeIdentifier (kind : IdentifierKind) where
  value : String
  safe : validateSafeIdentifier kind value maxIdentifierLen = .ok ()
  deriving DecidableEq

/-- The identifier of a DAG. -/
abbrev DagId := SafeIdentifier .dagId

/-- The identifier of a task. -/
abbrev TaskId := SafeIdentifier .taskId

/-- An edge, from the task upstream to the one downstream. -/
abbrev Edge := TaskId × TaskId

/-- An identifier of a text that passes the check. -/
def SafeIdentifier.new (kind : IdentifierKind) (value : String) : Except IdentifierError (SafeIdentifier kind) :=
  match checked : validateSafeIdentifier kind value maxIdentifierLen with
  | .ok () => .ok ⟨value, checked⟩
  | .error error => .error error

/-- What is extracted of one DAG. -/
structure ExtractedDag where
  dagId : Option DagId
  taskIds : List TaskId
  schedule : Option String
  hasDefaultArgs : Bool
  depsEdges : List Edge
  sourceSpan : Option SourceSpan

/-- A DAG of which nothing is known. -/
def ExtractedDag.default : ExtractedDag := ⟨none, [], none, false, [], none⟩

/-- Why a source or a file is refused. -/
inductive ParseError where
  | parse (message : String)
  | invalidIdentifier (kind : IdentifierKind) (value : String) (reason : IdentifierError)
  | internal (message : String)
  -- A file cannot be found or read as text.
  | io (path : Links.RawPath)
  deriving DecidableEq, Repr

/-- Check a literal and wrap it. -/
def makeId (kind : IdentifierKind) (value : String) : Except ParseError (SafeIdentifier kind) :=
  (SafeIdentifier.new kind value).mapError (.invalidIdentifier kind value)

/-- The identifier of a DAG that a literal gives. -/
def makeDagId : String → Except ParseError DagId := makeId .dagId

/-- The identifier of a task that a literal gives. -/
def makeTaskId : String → Except ParseError TaskId := makeId .taskId

/-- An identifier that is made has the text it is made of. -/
theorem value_of_makeId {kind : IdentifierKind} {value : String} {id : SafeIdentifier kind}
    (made : makeId kind value = .ok id) : id.value = value := by
  unfold makeId SafeIdentifier.new at made
  split at made
  · cases made
    rfl
  · cases made

/-- Append a task that is not there yet. -/
def pushUniqueTask : List TaskId → TaskId → List TaskId := Distinct.pushUnique

/-- Append an edge that is not there yet. -/
def pushUniqueEdge : List Edge → Edge → List Edge := Distinct.pushUnique

end FerroProtocols.Airflow
