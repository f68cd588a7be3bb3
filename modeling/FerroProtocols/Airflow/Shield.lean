import FerroProtocols.Airflow.Common

/-! The checks that a source has to pass before it is parsed, with the parser as a parameter. -/

namespace FerroProtocols.Airflow

/-- What a call into the library gives back, unless it panics. -/
inductive Outcome (α : Type) where
  | returned (value : α)
  | panicked (message : String)

/-- The kinds of tokens that are told apart. -/
inductive TokenKind where
  | indent
  | dedent
  | tStringStart
  | lpar
  | lsqb
  | lbrace
  | rpar
  | rsqb
  | rbrace
  | newline
  | nonLogicalNewline
  | comment
  | opNot
  | minus
  | plus
  | tilde
  | star
  | doubleStar
  | opAwait
  | opLambda
  | slash
  | percent
  | opAnd
  | opOr
  | opIf
  | opElse
  | opYield
  | opFrom
  | opAsync
  | other
  deriving DecidableEq, Repr

/-- The tokenizer and the parser. -/
structure Ruff where
  -- The tokens before the end of the source.
  lex : String → List TokenKind
  parseModule : String → Outcome (Except String (List Stmt))

/-- The greatest nesting of brackets that is parsed. -/
def maxParseNestingDepth : Nat := 256

/-- The greatest depth of recursion that is parsed. -/
def maxParseRecursion : Nat := 1024

section Brackets

/-- An opening bracket: `(`, `[` or an opening brace. -/
def isOpener (byte : UInt8) : Bool := byte = 40 || byte = 91 || byte = 123

/-- A closing bracket: `)`, `]` or a closing brace. -/
def isCloser (byte : UInt8) : Bool := byte = 41 || byte = 93 || byte = 125

/-- The brackets that are open, and how many were open at most. -/
structure BracketScan where
  depth : Nat
  max : Nat
  deriving DecidableEq, Repr

/-- The scan after one more byte. -/
def BracketScan.step (scan : BracketScan) (byte : UInt8) : BracketScan :=
  if isOpener byte then
    ⟨scan.depth + 1, if scan.max < scan.depth + 1 then scan.depth + 1 else scan.max⟩
  else if isCloser byte then { scan with depth := scan.depth - 1 }
  else scan

/-- The greatest nesting of brackets anywhere in a source, if it is above a bound. -/
def nestingDepthExceeds (source : String) (cap : Nat) : Option Nat :=
  let scan := (asBytes source).foldl BracketScan.step ⟨0, 0⟩
  if cap < scan.max then some scan.max else none

/-- The text about brackets that are nested too deeply. -/
def nestingMessage (depth : Nat) : String :=
  "input rejected: bracket/brace nesting depth " ++ toString depth ++ " exceeds the stack-safety cap of " ++
    toString maxParseNestingDepth

end Brackets

section Tokens

/-- What is counted while the tokens are read. -/
structure LexState where
  brackets : Nat
  opRun : Nat
  lineRightRec : Nat
  indent : Nat
  max : Nat
  deriving DecidableEq, Repr

namespace LexState

/-- Nothing counted yet. -/
def start : LexState := ⟨0, 0, 0, 0, 0⟩

/-- The counters after a token. -/
def count (state : LexState) : TokenKind → LexState
  | .indent => { state with indent := state.indent + 1, opRun := 0 }
  | .dedent => { state with indent := state.indent - 1, opRun := 0 }
  | .lpar | .lsqb | .lbrace => { state with brackets := state.brackets + 1, opRun := 0 }
  | .rpar | .rsqb | .rbrace => { state with brackets := state.brackets - 1, opRun := 0 }
  | .newline => { state with opRun := 0, lineRightRec := if state.brackets = 0 then 0 else state.lineRightRec }
  | .nonLogicalNewline | .comment => state
  | .doubleStar | .opIf | .opElse | .opLambda =>
    { state with opRun := state.opRun + 1, lineRightRec := state.lineRightRec + 1 }
  | .opNot | .minus | .plus | .tilde | .star | .opAwait | .slash | .percent | .opAnd | .opOr | .opYield | .opFrom
  | .opAsync => { state with opRun := state.opRun + 1 }
  | .tStringStart | .other => { state with opRun := 0 }

/-- The depth of recursion that the counters stand for. -/
def depth (state : LexState) : Nat := state.brackets + state.opRun + state.lineRightRec + state.indent

/-- The state after a token. -/
def step (state : LexState) (token : TokenKind) : LexState :=
  let counted := state.count token
  { counted with max := Nat.max counted.max counted.depth }

end LexState

/-- Why the tokens from some state on are refused. -/
def lexRejectFrom (state : LexState) : List TokenKind → Option String
  | [] => none
  | token :: rest =>
    if token = .tStringStart then
      some "input rejected: Python 3.14 t-strings (PEP 750) are not supported by the vendored parser"
    else
      let next := state.step token
      if maxParseRecursion < next.max then
        some ("input rejected: expression recursion depth " ++ toString next.max ++
          " exceeds the stack-safety cap of " ++ toString maxParseRecursion)
      else lexRejectFrom next rest

/-- Why the tokens of a source are refused. -/
def lexRejectReason (ruff : Ruff) (source : String) : Option String := lexRejectFrom .start (ruff.lex source)

end Tokens

/-- Parse a module; a panic is folded into an error. -/
def parseModuleSafely (ruff : Ruff) (source : String) : Except ParseError (List Stmt) :=
  match ruff.parseModule source with
  | .returned (.ok module) => .ok module
  | .returned (.error message) => .error (.parse message)
  | .panicked message => .error (.internal ("ruff_python_parser panicked on input: " ++ message))

/-- A module that is parsed is what the parser gives. -/
theorem parseModuleSafely_ok {ruff : Ruff} {source : String} {module : List Stmt}
    (parsed : parseModuleSafely ruff source = .ok module) : ruff.parseModule source = .returned (.ok module) := by
  unfold parseModuleSafely at parsed
  split at parsed
  · rename_i found
    cases parsed
    exact found
  · cases parsed
  · cases parsed

/-- Run some work on a source that has passed the checks, in a thread of its own; it may be that no thread can
be had. -/
def shieldParserPanic {α : Type} (ruff : Ruff) (spawnError : Option String) (source : String)
    (work : Unit → Outcome (Except ParseError α)) : Except ParseError α :=
  match nestingDepthExceeds source maxParseNestingDepth with
  | some depth => .error (.parse (nestingMessage depth))
  | none =>
    match lexRejectReason ruff source with
    | some reason => .error (.parse reason)
    | none =>
      match spawnError with
      | some error => .error (.internal ("failed to spawn dag-parse thread: " ++ error))
      | none =>
        match work () with
        | .returned result => result
        | .panicked message => .error (.internal ("ruff_python_parser panicked on input: " ++ message))

/-- What comes out of the shield is what the work gives. -/
theorem shieldParserPanic_ok {α : Type} {ruff : Ruff} {spawnError : Option String} {source : String}
    {work : Unit → Outcome (Except ParseError α)} {result : α}
    (passed : shieldParserPanic ruff spawnError source work = .ok result) : work () = .returned (.ok result) := by
  unfold shieldParserPanic at passed
  split at passed
  · cases passed
  split at passed
  · cases passed
  split at passed
  · cases passed
  split at passed
  · rename_i ran
    rw [ran, passed]
  · cases passed

end FerroProtocols.Airflow
