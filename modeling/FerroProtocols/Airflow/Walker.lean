import FerroProtocols.Airflow.Shield

/-! The extractor: a walk over a module that collects its DAGs. -/

namespace FerroProtocols.Airflow

open Fallible

/-- The names of the class of DAGs. -/
def dagNames : List String := ["DAG"]

/-- The names of the decorator of DAGs. -/
def dagDecoratorNames : List String := ["dag"]

/-- The methods that state dependencies. -/
def setterMethods : List String := ["set_upstream", "set_downstream"]

/-- The decorators of tasks. -/
def taskDecorators : List String := ["task", "task_group", "setup", "teardown", "sensor", "short_circuit"]

/-- The depth to which expressions are walked. -/
def maxWalkDepth : Nat := 1024

section Expressions

/-- The value of a string literal. -/
def constantStr : Expr → Option String
  | .stringLiteral _ value => some value
  | _ => none

/-- An expression as a text. -/
def stringifyExpr (depth : Nat) (expr : Expr) : String :=
  if maxWalkDepth < depth then "<deep>"
  else
    match expr with
    | .stringLiteral _ value => value
    | .noneLiteral _ => "None"
    | .booleanLiteral _ value => if value then "true" else "false"
    | .numberLiteral _ value => value
    | .name _ id => id
    | .attribute _ value attr => stringifyExpr (depth + 1) value ++ "." ++ attr
    | .call ⟨_, func, _, _⟩ => stringifyExpr (depth + 1) func ++ "(...)"
    | _ => "<expr>"

/-- A callee is the class of DAGs. -/
def isDagCallable : Expr → Bool
  | .name _ id => dagNames.contains id
  | .attribute _ _ attr => dagNames.contains attr
  | _ => false

/-- An item of a `with` statement makes a DAG. -/
def WithItem.opensDag (item : WithItem) : Bool :=
  match item.contextExpr with
  | .call call => isDagCallable call.func
  | _ => false

/-- The decorator of a DAG, bare or with arguments. -/
inductive DagDecoratorMatch where
  | bare
  | call (call : ExprCall)

/-- What a decorator says about a DAG, if it is one of a DAG. -/
def matchDagDecorator : Expr → Option DagDecoratorMatch
  | .name _ id => if dagDecoratorNames.contains id then some .bare else none
  | .call call =>
    match call.func with
    | .name _ id => if dagDecoratorNames.contains id then some (.call call) else none
    | .attribute _ _ attr => if dagDecoratorNames.contains attr then some (.call call) else none
    | _ => none
  | _ => none

/-- A decorator is one of a task. -/
def isTaskDecorator (expr : Expr) : Bool :=
  (expr.innerName maxWalkDepth 0).any fun name => taskDecorators.contains name

/-- The literal that a call has for `task_id`. -/
def callTaskId (call : ExprCall) : Option String :=
  call.keywords.findSome? fun keyword => if keyword.arg = some "task_id" then constantStr keyword.value else none

/-- The name that is the only target of an assignment. -/
def singleTargetName : List Expr → Option String
  | [.name _ id] => some id
  | _ => none

/-- What one keyword of a call says about a DAG. -/
def mergeDagKwarg (dag : ExtractedDag) (keyword : Keyword) : Except ParseError ExtractedDag :=
  match keyword.arg with
  | none => .ok dag
  | some arg =>
    if arg = "dag_id" then
      match constantStr keyword.value with
      | some value => (makeDagId value).map fun dagId => { dag with dagId := some dagId }
      | none => .ok dag
    else if arg = "schedule" ∨ arg = "schedule_interval" ∨ arg = "timetable" then
      .ok { dag with schedule := some (stringifyExpr 0 keyword.value) }
    else if arg = "default_args" then .ok { dag with hasDefaultArgs := true }
    else .ok dag

/-- What the keywords of a call say about a DAG. -/
def mergeDagKwargs (dag : ExtractedDag) (call : ExprCall) : Except ParseError ExtractedDag :=
  call.keywords.foldlM mergeDagKwarg dag

/-- The identifier that a call has as its first argument. -/
def positionalDagId (call : ExprCall) : Except ParseError (Option DagId) :=
  match call.args.head?.bind constantStr with
  | some value => (makeDagId value).map some
  | none => .ok none

/-- The DAG that a call makes, if it is one of the class of DAGs. -/
def parseDagCall (call : ExprCall) : Except ParseError (Option ExtractedDag) :=
  if isDagCallable call.func then do
    let dagId ← positionalDagId call
    let dag ← mergeDagKwargs { ExtractedDag.default with dagId := dagId } call
    .ok (some dag)
  else .ok none

private theorem mergeDagKwarg_ok {dag after : ExtractedDag} {keyword : Keyword}
    (merged : mergeDagKwarg dag keyword = .ok after) :
    after.taskIds = dag.taskIds ∧ after.depsEdges = dag.depsEdges := by
  unfold mergeDagKwarg at merged
  split at merged
  · cases merged
    exact ⟨rfl, rfl⟩
  split at merged
  · split at merged
    · rename_i value _
      cases made : makeDagId value with
      | error error =>
        rw [made] at merged
        cases merged
      | ok dagId =>
        rw [made] at merged
        cases merged
        exact ⟨rfl, rfl⟩
    · cases merged
      exact ⟨rfl, rfl⟩
  split at merged
  · cases merged
    exact ⟨rfl, rfl⟩
  split at merged <;> cases merged <;> exact ⟨rfl, rfl⟩

/-- The keywords say nothing about tasks and edges. -/
theorem mergeDagKwargs_ok {dag after : ExtractedDag} {call : ExprCall}
    (merged : mergeDagKwargs dag call = .ok after) :
    after.taskIds = dag.taskIds ∧ after.depsEdges = dag.depsEdges := by
  unfold mergeDagKwargs at merged
  generalize call.keywords = keywords at merged
  induction keywords generalizing dag with
  | nil =>
    cases merged
    exact ⟨rfl, rfl⟩
  | cons keyword rest ih =>
    rw [List.foldlM_cons, bind_eq_ok] at merged
    obtain ⟨next, first, later⟩ := merged
    obtain ⟨tasks, edges⟩ := mergeDagKwarg_ok first
    rw [← tasks, ← edges]
    exact ih later

/-- A call makes a DAG without tasks and edges, exactly if it is one of the class of DAGs. -/
theorem parseDagCall_ok {call : ExprCall} {found : Option ExtractedDag} (parsed : parseDagCall call = .ok found) :
    isDagCallable call.func = false ∧ found = none ∨
      isDagCallable call.func = true ∧ ∃ dag, found = some dag ∧ dag.taskIds = [] ∧ dag.depsEdges = [] := by
  unfold parseDagCall at parsed
  cases callable : isDagCallable call.func with
  | false =>
    rw [callable] at parsed
    cases parsed
    exact .inl ⟨rfl, rfl⟩
  | true =>
    rw [callable, if_pos rfl, bind_eq_ok] at parsed
    obtain ⟨dagId, _, parsed⟩ := parsed
    rw [bind_eq_ok] at parsed
    obtain ⟨dag, merged, made⟩ := parsed
    cases made
    exact .inr ⟨rfl, dag, rfl, mergeDagKwargs_ok merged⟩

end Expressions

/-- What the walk has collected. -/
structure Walker where
  dags : List ExtractedDag
  taskAliases : List (String × TaskId)

namespace Walker

variable (walker : Walker)

/-- Nothing collected yet. -/
def new : Walker := ⟨[], []⟩

/-- One more DAG. -/
def pushDag (dag : ExtractedDag) : Walker := { walker with dags := walker.dags ++ [dag] }

/-- A change of the DAG at some place. -/
def updateDag (place : Nat) (change : ExtractedDag → ExtractedDag) : Walker :=
  { walker with dags := walker.dags.modify place change }

/-- One more task of the DAG at some place. -/
def pushTask (place : Nat) (task : TaskId) : Walker :=
  walker.updateDag place fun dag => { dag with taskIds := pushUniqueTask dag.taskIds task }

/-- A name bound to a task. -/
def bind (name : String) (task : TaskId) : Walker :=
  { walker with taskAliases := walker.taskAliases ++ [(name, task)] }

/-- Only so many of the first bindings. -/
def truncate (length : Nat) : Walker := { walker with taskAliases := walker.taskAliases.take length }

section Edges

/-- The task that a name is bound to, by the last binding. -/
def lookup (aliases : List (String × TaskId)) (name : String) : Option TaskId :=
  (aliases.reverse.find? fun binding => binding.1 = name).map Prod.snd

/-- The task that an expression stands for; calls and attributes stand for what they are of. -/
def resolveToTaskId (aliases : List (String × TaskId)) (depth : Nat) (expr : Expr) : Option TaskId :=
  if maxWalkDepth < depth then none
  else
    match expr with
    | .name _ id => lookup aliases id
    | .call ⟨_, func, _, _⟩ => resolveToTaskId aliases (depth + 1) func
    | .attribute _ value _ => resolveToTaskId aliases (depth + 1) value
    | _ => none

/-- The tasks at the end of an expression. -/
def terminalTaskIds (aliases : List (String × TaskId)) (depth : Nat) (expr : Expr) : List TaskId :=
  if maxWalkDepth < depth then []
  else
    match expr with
    | .binOp range left op right =>
      if op.isShift then terminalTaskIds aliases (depth + 1) right
      else (resolveToTaskId aliases (depth + 1) (.binOp range left op right)).toList
    | .list _ elts | .tuple _ elts => elts.filterMap (resolveToTaskId aliases (depth + 1))
    | other => (resolveToTaskId aliases (depth + 1) other).toList

/-- The edge that an operator states. -/
def shiftEdge (op : Operator) (left right : TaskId) : Edge := if op = .rShift then (left, right) else (right, left)

/-- The edges between the tasks on both sides of an operator. -/
def shiftEdges (op : Operator) (left right : List TaskId) : List Edge :=
  left.flatMap fun first => right.map fun second => shiftEdge op first second

/-- The edges with those that a chain of operators states. -/
def collectShiftEdges (aliases : List (String × TaskId)) (left : Expr) (op : Operator) (right : Expr) (depth : Nat)
    (edges : List Edge) : List Edge :=
  if maxWalkDepth < depth then edges
  else
    let edges := (shiftEdges op (terminalTaskIds aliases depth left) (terminalTaskIds aliases depth right)).foldl
      pushUniqueEdge edges
    match left with
    | .binOp _ left₂ op₂ right₂ =>
      if op₂.isShift then collectShiftEdges aliases left₂ op₂ right₂ (depth + 1) edges else edges
    | _ => edges

/-- The edges with those that a call of a setter states. -/
def setterEdges (aliases : List (String × TaskId)) (value : Expr) (attr : String) (args : List Expr)
    (edges : List Edge) : List Edge :=
  args.foldl (fun edges arg =>
    match resolveToTaskId aliases 0 value, resolveToTaskId aliases 0 arg with
    | some left, some right =>
      if attr = "set_downstream" then pushUniqueEdge edges (left, right) else pushUniqueEdge edges (right, left)
    | _, _ => edges) edges

end Edges

/-- Visit an assignment. -/
def visitAssign (targets : List Expr) (value : Expr) (dagIdx : Option Nat) : Except ParseError Walker :=
  match value with
  | .call call => do
    match ← parseDagCall call with
    | some dag => .ok (walker.pushDag dag)
    | none =>
      match callTaskId call, singleTargetName targets, dagIdx with
      | some taskId, some name, some place => do
        let task ← makeTaskId taskId
        .ok ((walker.pushTask place task).bind name task)
      | _, _, _ => .ok walker
  | _ => .ok walker

/-- Visit an expression that stands as a statement. -/
def visitExprStmt (expr : Expr) (dagIdx : Option Nat) : Except ParseError Walker :=
  match dagIdx with
  | none => .ok walker
  | some place =>
    match expr with
    | .call call =>
      match callTaskId call with
      | some taskId => do
        let task ← makeTaskId taskId
        .ok (walker.pushTask place task)
      | none =>
        match call.func with
        | .attribute _ value attr =>
          if setterMethods.contains attr then
            .ok (walker.updateDag place fun dag =>
              { dag with depsEdges := setterEdges walker.taskAliases value attr call.args dag.depsEdges })
          else .ok walker
        | _ => .ok walker
    | .binOp _ left op right =>
      if op.isShift then
        .ok (walker.updateDag place fun dag =>
          { dag with depsEdges := collectShiftEdges walker.taskAliases left op right 0 dag.depsEdges })
      else .ok walker
    | _ => .ok walker

variable (lines : LineIndex)

/-- Visit the items of a `with` statement; the walk is then in the last DAG of them. -/
def visitItems (range : TextRange) : Walker → Option Nat → List WithItem → Except ParseError (Walker × Option Nat)
  | walker, dagIdx, [] => .ok (walker, dagIdx)
  | walker, dagIdx, item :: rest =>
    match item.contextExpr with
    | .call call => do
      match ← parseDagCall call with
      | some dag =>
        visitItems range (walker.pushDag { dag with sourceSpan := some (lines.spanOf range) })
          (some walker.dags.length) rest
      | none => visitItems range walker dagIdx rest
    | _ => visitItems range walker dagIdx rest

/-- The DAG that a decorated function makes. -/
def functionDag (range : TextRange) (name : String) (decorator : DagDecoratorMatch) :
    Except ParseError ExtractedDag := do
  let dagId ← makeDagId name
  let dag := { ExtractedDag.default with dagId := some dagId, sourceSpan := some (lines.spanOf range) }
  match decorator with
  | .bare => .ok dag
  | .call call => mergeDagKwargs dag call

/-- Visit the head of a function: a task is entered, and a name bound to it. -/
def visitTaskFunction (name : String) (decorators : List Decorator) (dagIdx : Option Nat) :
    Except ParseError Walker :=
  match dagIdx with
  | some place =>
    if decorators.any fun decorator => isTaskDecorator decorator.expression then do
      let task ← makeTaskId name
      .ok ((walker.pushTask place task).bind name task)
    else .ok walker
  | none => .ok walker

mutual

/-- Visit the statements of a block. -/
def visitStmts (walker : Walker) (dagIdx : Option Nat) : List Stmt → Except ParseError Walker
  | [] => .ok walker
  | stmt :: rest => do
    let walker ← visitStmt walker dagIdx stmt
    visitStmts walker dagIdx rest

/-- Visit a statement. -/
def visitStmt (walker : Walker) (dagIdx : Option Nat) : Stmt → Except ParseError Walker
  | .stmtWith range items body => do
    let entered ← visitItems lines range walker dagIdx items
    let walker ← visitStmts entered.1 entered.2 body
    .ok (walker.truncate entered.1.taskAliases.length)
  | .functionDef range name decorators _ body =>
    match decorators.findSome? fun decorator => matchDagDecorator decorator.expression with
    | some decorator => do
      let dag ← functionDag lines range name decorator
      let inner ← visitStmts (walker.pushDag dag) (some walker.dags.length) body
      .ok (inner.truncate walker.taskAliases.length)
    | none => do
      let walker ← walker.visitTaskFunction name decorators dagIdx
      visitStmts walker dagIdx body
  | .assign targets value => walker.visitAssign targets value dagIdx
  | .annAssign target (some value) => walker.visitAssign [target] value dagIdx
  | .expr value => walker.visitExprStmt value dagIdx
  | .classDef _ _ body | .stmtIf _ body _ | .stmtFor _ _ body _ | .stmtWhile _ body _ | .stmtTry body _ _ _ =>
    visitStmts walker dagIdx body
  | .annAssign _ none | .other _ _ => .ok walker

end

end Walker

/-- The DAGs of a source. -/
def extractAllInner (ruff : Ruff) (source : String) : Except ParseError (List ExtractedDag) := do
  let module ← parseModuleSafely ruff source
  let walker ← Walker.visitStmts (.new source) .new none module
  .ok walker.dags

/-- The DAGs of a source that has passed the checks. -/
def extractAll (ruff : Ruff) (spawnError : Option String) (source : String) :
    Except ParseError (List ExtractedDag) :=
  shieldParserPanic ruff spawnError source fun _ => .returned (extractAllInner ruff source)

/-- The DAGs of a source that is accepted are those of a walk over the module it is parsed as. -/
theorem extractAll_ok {ruff : Ruff} {spawnError : Option String} {source : String} {dags : List ExtractedDag}
    (accepted : extractAll ruff spawnError source = .ok dags) :
    ∃ module walker, ruff.parseModule source = .returned (.ok module) ∧
      Walker.visitStmts (.new source) .new none module = .ok walker ∧ dags = walker.dags := by
  have ran := shieldParserPanic_ok accepted
  obtain ⟨module, parsed, ran⟩ := bind_eq_ok.mp (Outcome.returned.inj ran)
  obtain ⟨walker, visited, done⟩ := bind_eq_ok.mp ran
  cases done
  exact ⟨module, walker, parseModuleSafely_ok parsed, visited, rfl⟩

end FerroProtocols.Airflow
