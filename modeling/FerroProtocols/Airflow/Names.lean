import FerroProtocols.Airflow.Closed
import FerroProtocols.Airflow.Scopes

/-! The names in the statements of a DAG, as the walk resolves them and as Python does. -/

namespace FerroProtocols.Airflow

open Fallible

mutual

/-- The names that are assigned when an expression is assigned to. -/
def Expr.targetNames : Expr → List String
  | .name _ id => [id]
  | .tuple _ elts | .list _ elts => targetsNames elts
  | .starred _ value => targetNames value
  | _ => []

/-- The names that are assigned when expressions are assigned to. -/
def Expr.targetsNames : List Expr → List String
  | [] => []
  | target :: rest => targetNames target ++ targetsNames rest

end

namespace Stmt

/-- The expressions that a statement assigns to. -/
def targets : Stmt → List Expr
  | .assign targets _ => targets
  | .annAssign target (some _) | .stmtFor target _ _ _ => [target]
  | .stmtWith _ items _ => items.filterMap WithItem.optionalVars
  | _ => []

/-- The names that a statement assigns as in Python, each with the text of the task if it stands for one. -/
def assigned (stmt : Stmt) : List (String × Option String) :=
  match stmt.binding with
  | some (name, id) => [(name, some id)]
  | none => (stmt.givenName.toList ++ Expr.targetsNames stmt.targets).map (·, none)

/-- In Python the body of a statement has the names of the function around it. -/
def sharesNames : Stmt → Bool
  | .functionDef _ _ _ _ _ | .classDef _ _ _ => false
  | _ => true

end Stmt

/-- The assignments of a block as in Python, in the order in which they are executed where the tests hold,
loops are run once and nothing is raised. -/
def assignments (stmts : List Stmt) : List (String × Option String) :=
  Stmt.gather (fun _ stmt kind => if kind ∈ [.body, .orelse, .finalbody] ∧ stmt.sharesNames then some () else none)
    (fun _ stmt => stmt.assigned) () stmts

/-- What a name has been given last. -/
def lastOf {α : Type} (name : String) (given : List (String × α)) : Option α :=
  (given.reverse.find? fun pair => pair.1 = name).map Prod.snd

/-- A statement follows others in straight-line order, within a block and the first blocks in it that are in
the same function and the same DAG: the statements that are passed, and the assignments that Python has
executed. -/
inductive Follows (target : Stmt) : List Stmt → List (String × Option String) → List Stmt → Prop where
  | here (rest : List Stmt) : Follows target [] [] (target :: rest)
  | next {passed rest : List Stmt} {executed : List (String × Option String)} (stmt : Stmt)
    (later : Follows target passed executed rest) :
    Follows target (stmt :: passed) (assignments [stmt] ++ executed) (stmt :: rest)
  -- What a loop or a `with` statement assigns is executed before its block.
  | into {passed : List Stmt} {executed : List (String × Option String)} (stmt : Stmt) (rest : List Stmt)
    (shares : stmt.sharesNames = true) (closed : stmt.opensDag = false)
      (inner : Follows target passed executed stmt.body) :
    Follows target passed (stmt.assigned ++ executed) (stmt :: rest)

variable {lines : LineIndex} {walker after : Walker} {dagIdx : Option Nat} {name : String}

private theorem visits_of_follows {target : Stmt} {passed stmts : List Stmt}
    {executed : List (String × Option String)}
    (follows : Follows target passed executed stmts)
    (visited : Walker.visitStmts lines walker dagIdx stmts = .ok after) :
    ∃ before next, Walker.visitStmts lines walker dagIdx passed = .ok before ∧
      Walker.visitStmt lines before dagIdx target = .ok next := by
  induction follows generalizing walker after with
  | here rest =>
    obtain ⟨next, first, _⟩ := bind_eq_ok.mp visited
    exact ⟨walker, next, rfl, first⟩
  | next stmt later ih =>
    obtain ⟨middle, first, visited⟩ := bind_eq_ok.mp visited
    obtain ⟨before, next, passed, reached⟩ := ih visited
    exact ⟨before, next, bind_eq_ok.mpr ⟨middle, first, passed⟩, reached⟩
  | into stmt rest shares closed inner ih =>
    obtain ⟨middle, first, _⟩ := bind_eq_ok.mp visited
    -- The walk goes into the block with the names and the DAG that it has.
    obtain ⟨last, body⟩ : ∃ last, Walker.visitStmts lines walker dagIdx stmt.body = .ok last := by
      cases stmt with
      | stmtWith =>
        cases Walker.visit_of_ok first with
        | plain middle after plain => cases plain
        | block last scope closed body => exact ⟨last, body⟩
        | opens others dag last scope opens => cases opens.symm.trans closed
      | functionDef | classDef => cases shares
      | assign | annAssign | expr | other => exact ⟨walker, rfl⟩
      | stmtIf | stmtFor | stmtWhile | stmtTry => exact ⟨middle, first⟩
    exact ih body

private theorem lastOf_map {α β : Type} (change : α → β) (given : List (String × α)) :
    lastOf name (given.map fun pair => (pair.1, change pair.2)) = (lastOf name given).map change := by
  rw [lastOf, ← List.map_reverse, List.find?_map, Option.map_map, lastOf, Option.map_map]
  rfl

/-- A name that stands for a task in Python is resolved to it exactly if the last binding that is left of the
statements before is to it: names bound in a `with` block are dropped after it, and those bound in a function
or a class are left. -/
theorem names_resolve {place : Nat} {target : Stmt} {passed stmts : List Stmt}
    {executed : List (String × Option String)}
    (visited : Walker.visitStmts lines walker (some place) stmts = .ok after)
    (follows : Follows target passed executed stmts) :
    ∃ before next, Walker.visitStmts lines walker (some place) passed = .ok before ∧
      Walker.visitStmt lines before (some place) target = .ok next ∧ ∀ id, lastOf name executed = some (some id) →
        ((∀ range depth, depth ≤ maxWalkDepth →
          (Walker.resolveToTaskId before.taskAliases depth (.name range name)).map
            SafeIdentifier.value = some id) ↔
          lastOf name ((walker.taskAliases.map fun binding => (binding.1, binding.2.value)) ++
            leftBindings passed) = some id) := by
  obtain ⟨before, next, ran, reached⟩ := visits_of_follows follows visited
  obtain ⟨more, bound, texts⟩ := Walker.bindsBlock passed ran
  have resolved (range : TextRange) (depth : Nat) (shallow : depth ≤ maxWalkDepth) :
      (Walker.resolveToTaskId before.taskAliases depth (.name range name)).map SafeIdentifier.value =
        lastOf name ((walker.taskAliases.map fun binding => (binding.1, binding.2.value)) ++
          leftBindings passed) := by
    rw [Walker.resolveToTaskId, if_neg (by omega), ← texts.trans (if_pos rfl), ← List.map_append,
      ← bound, lastOf_map]
    rfl
  refine ⟨before, next, ran, reached, fun id _ => ⟨fun all => ?_, fun left range depth shallow => ?_⟩⟩
  · rw [← resolved ⟨0, 0⟩ 0 (Nat.zero_le _)]
    exact all _ 0 (Nat.zero_le _)
  · rw [resolved range depth shallow, left]

/-- The two tasks after a group in which the first name is another one. -/
def renamedTasks : List Stmt := .stmtWith anywhere [⟨callOf "TaskGroup" [], none⟩]
  [.assign [.name anywhere "a"] (callOf "BashOperator" [("task_id", "s")])] :: linkedTasks

/-- A name that is assigned in a group and again after it is resolved to what it is assigned last. -/
theorem names_resolve_linked :
    ∃ before, Walker.visitStmts (.new "") ⟨[.default], []⟩ (some 0) (renamedTasks.take 3) = .ok before ∧
    (Walker.resolveToTaskId before.taskAliases 0 (.name anywhere "a")).map SafeIdentifier.value = some "t" := by
  have evaluated : (Walker.visitStmts (.new "") ⟨[.default], []⟩ (some 0) renamedTasks).toOption.isSome = true := by
    decide +kernel
  obtain ⟨after, visited⟩ := exists_of_isSome evaluated
  obtain ⟨before, _, ran, _, resolved⟩ :=
    @names_resolve _ _ _ "a" _ _ _ _ _ visited (.next _ (.next _ (.next _ (.here []))))
  exact ⟨before, ran, (resolved "t" (by decide +kernel)).mpr (by decide +kernel) anywhere 0 (Nat.zero_le _)⟩

/-- The same tasks, the first one in a group. -/
def groupedTasks : List Stmt :=
  .stmtWith anywhere [⟨callOf "TaskGroup" [], none⟩] (linkedTasks.take 1) :: linkedTasks.drop 1

/-- Their source. -/
def groupedText : String := dagText
  "  with TaskGroup():\n    a = BashOperator(task_id=\"t\")\n  b = BashOperator(task_id=\"u\")\n  a >> b\n"

/-- A name that is assigned in a group is not resolved after it, and the dependency is missed. -/
theorem group_name_unresolved :
    lastOf "a" (assignments (groupedTasks.take 2)) = some (some "t") ∧
      ((extractAll (.reading groupedText [withDag groupedTasks]) none groupedText).toOption.map fun dags =>
        dags.map fun dag => (dag.taskIds.map SafeIdentifier.value, dag.depsEdges.length)) = some [(["t", "u"], 0)] :=
  ⟨by decide +kernel, by decide +kernel⟩

end FerroProtocols.Airflow
