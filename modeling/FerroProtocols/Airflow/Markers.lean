import FerroProtocols.Airflow.Walker

/-! The detector of dynamic patterns. -/

namespace FerroProtocols.Airflow

open Fallible

/-- A pattern that cannot be resolved from the source alone, with its line and column. -/
inductive DynamicMarker where
  | pathStemDagId (line col : Nat)
  | chainSplat (line col : Nat)
  | fStringTaskId (line col : Nat) (source : String)
  | dynamicScheduleExpr (line col : Nat)
  | unsupportedTaskFlow (line col : Nat)
  | importTimeBranching (line col : Nat)
  | forLoopTaskGeneration (line col : Nat)
  deriving DecidableEq, Repr

/-- The functions that chain tasks. -/
def chainHelpers : List String := ["chain", "chain_linear", "cross_downstream"]

/-- How the names of operators end. -/
def operatorSuffixes : List String := ["Operator", "Sensor"]

/-- The depth to which the callees of decorators are walked. -/
def maxDecoratorChainDepth : Nat := 1024

section Predicates

/-- A decorator is one of a DAG, through any calls. -/
def isDagDecorator (expr : Expr) : Bool :=
  (expr.innerName maxDecoratorChainDepth 0).any fun name => dagDecoratorNames.contains name

/-- A callee is one of the functions that chain tasks. -/
def calleeIsChainHelper : Expr → Bool
  | .name _ id => chainHelpers.contains id
  | .attribute _ _ attr => chainHelpers.contains attr
  | _ => false

/-- A name ends as those of operators do. -/
def hasOperatorSuffix (name : String) : Bool :=
  operatorSuffixes.any fun ending => ending.toList.isSuffixOf name.toList

/-- A callee makes an operator. -/
def isOperatorConstructor : Expr → Bool
  | .name _ id => hasOperatorSuffix id
  | .attribute _ _ attr => hasOperatorSuffix attr
  | _ => false

/-- A call is one of a decorator of tasks. -/
def isTaskDecoratorCall (call : ExprCall) : Bool :=
  (call.func.innerName maxDecoratorChainDepth 0).any fun name => taskDecorators.contains name

/-- The arguments of a decorator cannot be followed. -/
def taskDecoratorIsDynamic (call : ExprCall) : Bool :=
  !call.args.isEmpty || call.keywords.any fun keyword => keyword.arg = some "expand" || keyword.arg = some "partial"

/-- A schedule that is known from the source. -/
def isAcceptableScheduleLiteral : Expr → Bool
  | .stringLiteral _ _ | .noneLiteral _ | .ellipsisLiteral _ => true
  | .call ⟨_, .name _ id, _, _⟩ => id = "timedelta"
  | _ => false

/-- A test with a constant outcome. -/
def isConstantBool : Expr → Bool
  | .booleanLiteral _ _ | .noneLiteral _ | .numberLiteral _ _ => true
  | _ => false

/-- An argument with a star. -/
def isStarred : Expr → Bool
  | .starred _ _ => true
  | _ => false

/-- An f-string as a text, with dots for its slots. -/
def renderFString (elements : List FStringElement) : String :=
  String.join (elements.map fun element =>
    match element with
    | .literal value => value
    | .interpolation _ => "\x7b…\x7d")

end Predicates

/-- What the visitor has found, and how many DAGs it is in. -/
structure MarkerVisitor where
  markers : List DynamicMarker
  inDagCtx : Nat

namespace MarkerVisitor

variable (lines : LineIndex) (visitor : MarkerVisitor)

/-- Nothing found yet, and outside of all DAGs. -/
def new : MarkerVisitor := ⟨[], 0⟩

/-- One more marker, at a line and a column. -/
def push (marker : Nat → Nat → DynamicMarker) (range : TextRange) : MarkerVisitor :=
  let position := lines.lineCol range.start
  { visitor with markers := visitor.markers ++ [marker position.1 position.2] }

/-- Into one more DAG. -/
def enter : MarkerVisitor := { visitor with inDagCtx := visitor.inDagCtx + 1 }

/-- Out of a DAG. -/
def leave : MarkerVisitor := { visitor with inDagCtx := visitor.inDagCtx - 1 }

/-- A call of a chain of tasks with a starred argument. -/
def flagChain (func : Expr) (args : List Expr) : MarkerVisitor :=
  if 0 < visitor.inDagCtx ∧ calleeIsChainHelper func = true then
    match args.find? isStarred with
    | some argument => visitor.push lines .chainSplat argument.range
    | none => visitor
  else visitor

/-- A keyword with an f-string as the identifier of a task. -/
def flagFString (visitor : MarkerVisitor) (keyword : Keyword) : MarkerVisitor :=
  match keyword.arg, keyword.value with
  | some arg, .fString range elements =>
    if arg = "task_id" then
      visitor.push lines (fun line col => .fStringTaskId line col (renderFString elements)) range
    else visitor
  | _, _ => visitor

mutual

/-- Visit an expression; only calls are looked at. -/
def visitExpr (visitor : MarkerVisitor) : Expr → MarkerVisitor
  | .call call => visitCall visitor call
  | _ => visitor

/-- Visit a call. -/
def visitCall (visitor : MarkerVisitor) : ExprCall → MarkerVisitor
  | ⟨_, func, args, keywords⟩ =>
    visitKeywords (visitArgs (keywords.foldl (flagFString lines) (visitor.flagChain lines func args)) args) keywords

/-- Visit the arguments of a call. -/
def visitArgs (visitor : MarkerVisitor) : List Expr → MarkerVisitor
  | [] => visitor
  | argument :: rest => visitArgs (visitExpr visitor argument) rest

/-- Visit the arguments of a call that have keywords. -/
def visitKeywords (visitor : MarkerVisitor) : List Keyword → MarkerVisitor
  | [] => visitor
  | ⟨_, value⟩ :: rest => visitKeywords (visitExpr visitor value) rest

end

/-- Visit the arguments of a call, but not the call itself. -/
def visitCallArgs (call : ExprCall) : MarkerVisitor :=
  visitKeywords lines (visitArgs lines visitor call.args) call.keywords

/-- Look at one keyword of a DAG. -/
def scanDagKwarg (visitor : MarkerVisitor) (keyword : Keyword) : MarkerVisitor :=
  match keyword.arg with
  | none => visitor
  | some name =>
    if name = "dag_id" then
      match keyword.value with
      | .stringLiteral _ _ => visitor
      | other => visitor.push lines .pathStemDagId other.range
    else if (name = "schedule" ∨ name = "schedule_interval" ∨ name = "timetable") ∧
        isAcceptableScheduleLiteral keyword.value = false then
      visitor.push lines .dynamicScheduleExpr keyword.value.range
    else visitor

/-- Look at the keywords of a DAG. -/
def scanDagKwargs (call : ExprCall) : MarkerVisitor := call.keywords.foldl (scanDagKwarg lines) visitor

/-- Enter one item of a `with` statement. -/
def enterItem (visitor : MarkerVisitor) (item : WithItem) : MarkerVisitor :=
  match item.contextExpr with
  | .call call =>
    if isDagCallable call.func then visitor.enter.scanDagKwargs lines call else visitor.visitCallArgs lines call
  | _ => visitor

/-- Enter the items of a `with` statement. -/
def enterWith (items : List WithItem) : MarkerVisitor := items.foldl (enterItem lines) visitor

/-- Visit one decorator. -/
def visitDecorator (visitor : MarkerVisitor) (decorator : Decorator) : MarkerVisitor :=
  let visitor := visitExpr lines visitor decorator.expression
  if visitor.inDagCtx = 0 then visitor
  else
    match decorator.expression with
    | .call call =>
      if isTaskDecoratorCall call && taskDecoratorIsDynamic call then
        visitor.push lines .unsupportedTaskFlow call.range
      else visitor
    | _ => visitor

/-- Visit the decorators of a function. -/
def visitDecoratorList (decorators : List Decorator) : MarkerVisitor :=
  decorators.foldl (visitDecorator lines) visitor

/-- An item of a DAG in a branch. -/
def flagBranchingItem (visitor : MarkerVisitor) (item : WithItem) : MarkerVisitor :=
  match item.contextExpr with
  | .call call =>
    if isDagCallable call.func then visitor.push lines .importTimeBranching call.range else visitor
  | _ => visitor

/-- A DAG right in a branch. -/
def flagBranchingStmt (visitor : MarkerVisitor) (stmt : Stmt) : MarkerVisitor :=
  match stmt with
  | .stmtWith _ items _ => items.foldl (flagBranchingItem lines) visitor
  | _ => visitor

/-- The DAGs right in a branch. -/
def flagBranchingInBody (visitor : MarkerVisitor) (body : List Stmt) : MarkerVisitor :=
  body.foldl (flagBranchingStmt lines) visitor

/-- An operator that is made right in a loop. -/
def flagForStmt (visitor : MarkerVisitor) (stmt : Stmt) : MarkerVisitor :=
  match stmt with
  | .expr (.call call) | .assign _ (.call call) =>
    if isOperatorConstructor call.func then visitor.push lines .forLoopTaskGeneration call.range else visitor
  | _ => visitor

/-- The operators that are made right in a loop, in a DAG. -/
def flagForLoopBody (body : List Stmt) : MarkerVisitor :=
  if visitor.inDagCtx = 0 then visitor else body.foldl (flagForStmt lines) visitor

/-- The branches of an `if` whose test is not constant. -/
def flagBranches (test : Expr) (body : List Stmt) (clauses : List Clause) : MarkerVisitor :=
  if isConstantBool test then visitor
  else clauses.foldl (fun visitor clause => flagBranchingInBody lines visitor clause.body)
    (flagBranchingInBody lines visitor body)

mutual

/-- Visit the statements of a block. -/
def visitStmts (visitor : MarkerVisitor) : List Stmt → MarkerVisitor
  | [] => visitor
  | stmt :: rest => visitStmts (visitStmt visitor stmt) rest

/-- Visit a statement. -/
def visitStmt (visitor : MarkerVisitor) : Stmt → MarkerVisitor
  | .stmtWith _ items body =>
    let visitor := visitStmts (visitor.enterWith lines items) body
    if items.any WithItem.opensDag then visitor.leave else visitor
  | .functionDef _ _ decorators _ body =>
    if decorators.any fun decorator => isDagDecorator decorator.expression then
      (visitStmts (visitor.enter.visitDecoratorList lines decorators) body).leave
    else visitStmts (visitor.visitDecoratorList lines decorators) body
  | .assign targets value => targets.foldl (visitExpr lines) (visitExpr lines visitor value)
  | .annAssign target (some value) => visitExpr lines (visitExpr lines visitor target) value
  | .expr value => visitExpr lines visitor value
  | .stmtIf test body clauses =>
    visitClauses (visitStmts (visitExpr lines (visitor.flagBranches lines test body clauses) test) body) clauses
  | .stmtFor _ iter body _ => visitStmts (visitExpr lines (visitor.flagForLoopBody lines body) iter) body
  | .stmtWhile test body _ => visitStmts (visitExpr lines visitor test) body
  | .stmtTry body _ _ _ | .classDef _ _ body => visitStmts visitor body
  | .annAssign _ none | .other _ _ => visitor

/-- Visit the blocks of the branches of an `if`. -/
def visitClauses (visitor : MarkerVisitor) : List Clause → MarkerVisitor
  | [] => visitor
  | ⟨_, body⟩ :: rest => visitClauses (visitStmts visitor body) rest

end

end MarkerVisitor

/-- The dynamic patterns of a source. -/
def detectDynamicMarkersImpl (ruff : Ruff) (source : String) : Except ParseError (List DynamicMarker) := do
  let module ← parseModuleSafely ruff source
  .ok (MarkerVisitor.visitStmts (.new source) .new module).markers

/-- The dynamic patterns of a source that has passed the checks. -/
def detectDynamicMarkers (ruff : Ruff) (spawnError : Option String) (source : String) :
    Except ParseError (List DynamicMarker) :=
  shieldParserPanic ruff spawnError source fun _ => .returned (detectDynamicMarkersImpl ruff source)

/-- The patterns of a source that is accepted are those of a visit of the module it is parsed as. -/
theorem detectDynamicMarkers_ok {ruff : Ruff} {spawnError : Option String} {source : String}
    {markers : List DynamicMarker}
    (accepted : detectDynamicMarkers ruff spawnError source = .ok markers) :
    ∃ module, ruff.parseModule source = .returned (.ok module) ∧
      markers = (MarkerVisitor.visitStmts (.new source) .new module).markers := by
  have ran := shieldParserPanic_ok accepted
  obtain ⟨module, parsed, done⟩ := bind_eq_ok.mp (Outcome.returned.inj ran)
  cases done
  exact ⟨module, parseModuleSafely_ok parsed, rfl⟩

end FerroProtocols.Airflow
