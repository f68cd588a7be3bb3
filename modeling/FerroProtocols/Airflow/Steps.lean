import FerroProtocols.Airflow.Walker

/-! What the walk does at one statement, apart from what it does in its blocks. -/

namespace FerroProtocols.Airflow

open Distinct Fallible

namespace Stmt

/-- A statement opens a DAG of its own. -/
def opensDag : Stmt → Bool
  | .stmtWith _ items _ => items.any WithItem.opensDag
  | .functionDef _ _ decorators _ _ =>
    decorators.any fun decorator => (matchDagDecorator decorator.expression).isSome
  | _ => false

/-- The task that a statement states: a call with a literal `task_id`, by itself or assigned to one name, or a
function that is decorated as a task. -/
def taskId : Stmt → Option String
  | .expr (.call call) => callTaskId call
  | .assign targets (.call call) => (singleTargetName targets).bind fun _ => callTaskId call
  | .annAssign target (some (.call call)) => (singleTargetName [target]).bind fun _ => callTaskId call
  | .functionDef _ name decorators _ _ =>
    if decorators.any fun decorator => isTaskDecorator decorator.expression then some name else none
  | _ => none

/-- The walk enters the task of a statement that it gets to, unless it takes the statement for one of a DAG. -/
def entersTask : Stmt → Bool
  | .assign _ (.call call) | .annAssign _ (some (.call call)) => !isDagCallable call.func
  | stmt => !stmt.opensDag

/-- The name that a statement gives to what it makes. -/
def givenName : Stmt → Option String
  | .assign targets (.call _) => singleTargetName targets
  | .annAssign target (some (.call _)) => singleTargetName [target]
  | .functionDef _ name _ _ _ => some name
  | _ => none

/-- What is bound within a statement is dropped at its end. -/
def isScope : Stmt → Bool
  | .stmtWith _ _ _ => true
  | stmt => stmt.opensDag

/-- The number of DAGs in a `with` statement, or one for another statement that opens a DAG. -/
def countDags (opens : Stmt → Bool) : Stmt → Nat
  | .stmtWith _ items _ => items.countP WithItem.opensDag
  | stmt => if opens stmt then 1 else 0

/-- The number of DAGs that a statement opens. -/
def dagCount : Stmt → Nat := countDags opensDag

end Stmt

/-- A DAG as it is found, without tasks and edges. -/
def ExtractedDag.IsBare (dag : ExtractedDag) : Prop := dag.taskIds = [] ∧ dag.depsEdges = []

/-- Edges have been added, each between tasks that names are bound to. -/
structure Grown (aliases : List (String × TaskId)) (known after : List Edge) : Prop where
  nodup : known.Nodup → after.Nodup
  resolved : ∀ edge ∈ after, edge ∈ known ∨ edge.1 ∈ aliases.map Prod.snd ∧ edge.2 ∈ aliases.map Prod.snd

section Grown

variable {aliases : List (String × TaskId)} {known middle after : List Edge}

/-- No edge has been added. -/
theorem Grown.refl : Grown aliases known known := ⟨id, fun _ => .inl⟩

/-- Edges have been added one after the other. -/
theorem Grown.trans (first : Grown aliases known middle) (second : Grown aliases middle after) :
    Grown aliases known after :=
  ⟨fun distinct => second.nodup (first.nodup distinct), fun edge member =>
    (second.resolved edge member).elim (first.resolved edge) .inr⟩

private theorem grown_pushAll {edges : List Edge}
    (resolved : ∀ edge ∈ edges, edge.1 ∈ aliases.map Prod.snd ∧ edge.2 ∈ aliases.map Prod.snd) :
    Grown aliases known (pushAll known edges) :=
  ⟨nodup_pushAll, fun edge member => (mem_pushAll.mp member).imp_right (resolved edge)⟩

end Grown

namespace Walker

variable {lines : LineIndex} {walker after : Walker} {dagIdx : Option Nat}

/-- What the walk does at a statement apart from its blocks, given the task that the statement states, whether
it is entered, and the name it is given. -/
inductive Step (walker : Walker) (dagIdx : Option Nat) (stated : Option String) (enters : Bool)
    (name : Option String) :
    Walker → Prop where
  | stays (plain : enters = true) (idle : dagIdx = none ∨
    stated = none) : Step walker dagIdx stated enters name walker
  | finds (dag : ExtractedDag) (bare : dag.IsBare) (other : enters = false) :
    Step walker dagIdx stated enters name (walker.pushDag dag)
  | states (plain : enters = true) (place : Nat) (change : List Edge → List Edge) (inside : dagIdx = some place)
    (silent : stated = none) (grown : ∀ known, Grown walker.taskAliases known (change known)) :
    Step walker dagIdx stated enters name
      (walker.updateDag place fun dag => { dag with depsEdges := change dag.depsEdges })
  | task (plain : enters = true) (place : Nat) (value : String) (task : TaskId) (inside : dagIdx = some place)
    (made : makeTaskId value = .ok task) (own : stated = some value) (after : Walker)
    (named : name = none ∧ after = walker.pushTask place task ∨
      ∃ given, name = some given ∧ after = (walker.pushTask place task).bind given task) :
    Step walker dagIdx stated enters name after

section Edges

variable {aliases : List (String × TaskId)} {depth : Nat} {expr : Expr} {task : TaskId}

private theorem mem_of_resolve (resolved : resolveToTaskId aliases depth expr = some task) :
    task ∈ aliases.map Prod.snd := by
  fun_induction resolveToTaskId aliases depth expr with
  | case1 => cases resolved
  | case2 depth _ range id =>
    obtain ⟨binding, found, rfl⟩ := Option.map_eq_some_iff.mp resolved
    exact List.mem_map_of_mem (List.mem_reverse.mp (List.mem_of_find?_eq_some found))
  | case3 _ _ _ _ _ _ ih => exact ih resolved
  | case4 _ _ _ _ _ ih => exact ih resolved
  | case5 => cases resolved

private theorem mem_of_terminal (terminal : task ∈ terminalTaskIds aliases depth expr) :
    task ∈ aliases.map Prod.snd := by
  fun_induction terminalTaskIds aliases depth expr with
  | case1 => cases terminal
  | case2 _ _ _ _ _ _ _ ih => exact ih terminal
  | case3 => exact mem_of_resolve (Option.mem_toList.mp terminal)
  | case4 | case5 =>
    obtain ⟨elt, _, resolved⟩ := List.mem_filterMap.mp terminal
    exact mem_of_resolve resolved
  | case6 => exact mem_of_resolve (Option.mem_toList.mp terminal)

private theorem grown_shiftEdges {left right : Expr} {op : Operator} {known : List Edge} :
    Grown aliases known ((shiftEdges op (terminalTaskIds aliases depth left)
      (terminalTaskIds aliases depth right)).foldl
      pushUniqueEdge known) := by
  refine grown_pushAll fun edge member => ?_
  obtain ⟨first, onLeft, member⟩ := List.mem_flatMap.mp member
  obtain ⟨second, onRight, rfl⟩ := List.mem_map.mp member
  unfold shiftEdge
  split
  · exact ⟨mem_of_terminal onLeft, mem_of_terminal onRight⟩
  · exact ⟨mem_of_terminal onRight, mem_of_terminal onLeft⟩

private theorem grown_collectShiftEdges (left : Expr) (op : Operator) (right : Expr) (known : List Edge) :
    Grown aliases known (collectShiftEdges aliases left op right depth known) := by
  fun_induction collectShiftEdges aliases left op right depth known with
  | case1 => exact .refl
  | case2 _ _ _ _ _ _ _ _ _ _ _ ih => exact grown_shiftEdges.trans ih
  | case3 | case4 => exact grown_shiftEdges

private theorem grown_setterEdges (value : Expr) (attr : String) (args : List Expr) (known : List Edge) :
    Grown aliases known (setterEdges aliases value attr args known) := by
  unfold setterEdges
  induction args generalizing known with
  | nil => exact .refl
  | cons arg rest ih =>
    refine Grown.trans ?_ (ih _)
    simp only
    split
    · rename_i left right onLeft onRight
      have first := mem_of_resolve onLeft
      have second := mem_of_resolve onRight
      have pushed (edge : Edge) (ends : edge.1 ∈ aliases.map Prod.snd ∧ edge.2 ∈ aliases.map Prod.snd) :
          Grown aliases known (pushUniqueEdge known edge) :=
        @grown_pushAll aliases known [edge] fun other member => List.mem_singleton.mp member ▸ ends
      split
      · exact pushed _ ⟨first, second⟩
      · exact pushed _ ⟨second, first⟩
    · exact .refl

end Edges

/-- What an assignment does. -/
theorem visitAssign_step {targets : List Expr} {value : Expr}
    (visited : walker.visitAssign targets value dagIdx = .ok after) :
    Step walker dagIdx (Stmt.assign targets value).taskId (Stmt.assign targets value).entersTask
      (Stmt.assign targets value).givenName after := by
  cases value with
  | call call =>
    obtain ⟨found, parsed, assigned⟩ := bind_eq_ok.mp visited
    clear visited
    rcases parseDagCall_ok parsed with ⟨plain, rfl⟩ | ⟨callable, dag, rfl, bare⟩
    · simp only at assigned
      split at assigned
      · rename_i taskId name place literal target
        obtain ⟨task, made, entered⟩ := bind_eq_ok.mp assigned
        cases entered
        exact .task (by simp [Stmt.entersTask, plain]) place taskId task rfl made
          (by simp [Stmt.taskId, target, literal]) _
          (.inr ⟨name, target, rfl⟩)
      · rename_i index _ _ _ missing
        cases assigned
        refine .stays (by simp [Stmt.entersTask, plain]) ?_
        rcases index with _ | place
        · exact .inl rfl
        · refine .inr (Option.eq_none_iff_forall_ne_some.mpr fun taskId stated => ?_)
          obtain ⟨name, target, literal⟩ := Option.bind_eq_some_iff.mp stated
          exact missing taskId name place literal target rfl
    · cases assigned
      exact .finds dag bare (by simp [Stmt.entersTask, callable])
  | _ =>
    cases visited
    exact .stays rfl (.inr rfl)

/-- What an expression as a statement does. -/
theorem visitExprStmt_step {expr : Expr} (visited : walker.visitExprStmt expr dagIdx = .ok after) :
    Step walker dagIdx (Stmt.expr expr).taskId (Stmt.expr expr).entersTask (Stmt.expr expr).givenName after := by
  unfold visitExprStmt at visited
  cases dagIdx with
  | none =>
    cases visited
    exact .stays rfl (.inl rfl)
  | some place =>
    cases expr with
    | call call =>
      simp only at visited
      split at visited
      · rename_i taskId literal
        obtain ⟨task, made, entered⟩ := bind_eq_ok.mp visited
        cases entered
        exact .task rfl place taskId task rfl made literal _ (.inl ⟨rfl, rfl⟩)
      · rename_i literal
        split at visited
        · split at visited
          · cases visited
            exact .states rfl place _ rfl literal fun known => grown_setterEdges _ _ _ known
          · cases visited
            exact .stays rfl (.inr literal)
        · cases visited
          exact .stays rfl (.inr literal)
    | binOp range left op right =>
      simp only at visited
      split at visited
      · cases visited
        exact .states rfl place _ rfl rfl fun known => grown_collectShiftEdges left op right known
      · cases visited
        exact .stays rfl (.inr rfl)
    | _ =>
      cases visited
      exact .stays rfl (.inr rfl)

private theorem visitTaskFunction_step {range : TextRange} {name : String} {decorators : List Decorator}
    {signature : List Expr}
    {body : List Stmt} (plain : (Stmt.functionDef range name decorators signature body).opensDag = false)
    (visited : walker.visitTaskFunction name decorators dagIdx = .ok after) :
    Step walker dagIdx (Stmt.functionDef range name decorators signature body).taskId
      (Stmt.functionDef range name decorators signature body).entersTask (some name) after := by
  have enters : (Stmt.functionDef range name decorators signature body).entersTask = true := by
    simp [Stmt.entersTask, plain]
  unfold visitTaskFunction at visited
  split at visited
  · rename_i place
    split at visited
    · rename_i decorated
      obtain ⟨task, made, entered⟩ := bind_eq_ok.mp visited
      cases entered
      exact .task enters place name task rfl made (if_pos decorated) _ (.inr ⟨name, rfl, rfl⟩)
    · rename_i undecorated
      cases visited
      exact .stays enters (.inr (if_neg undecorated))
  · cases visited
    exact .stays enters (.inl rfl)

private theorem visitItems_ok {range : TextRange} {items : List WithItem} {entered : Walker × Option Nat}
    (visited : visitItems lines range walker dagIdx items = .ok entered) :
    entered = (walker, dagIdx) ∧ items.countP WithItem.opensDag = 0 ∨
      ∃ others dag, (∀ new ∈ others ++ [dag], new.IsBare) ∧ items.countP WithItem.opensDag = others.length + 1 ∧
        entered = ({ walker with dags := walker.dags ++ (others ++ [dag]) },
          some (walker.dags.length + others.length)) := by
  induction items generalizing walker dagIdx with
  | nil =>
    cases visited
    exact .inl ⟨rfl, rfl⟩
  | cons item rest ih =>
    have passed (plain : item.opensDag = false) : (item :: rest).countP WithItem.opensDag =
        rest.countP WithItem.opensDag :=
      List.countP_cons_of_neg (by simp [plain])
    unfold visitItems at visited
    split at visited
    · rename_i call expr
      obtain ⟨found, parsed, visited⟩ := bind_eq_ok.mp visited
      rcases parseDagCall_ok parsed with ⟨plain, rfl⟩ | ⟨callable, dag, rfl, bare⟩
      · rw [passed (by rw [WithItem.opensDag, expr]; exact plain)]
        exact ih visited
      · have opens : item.opensDag = true := by
          rw [WithItem.opensDag, expr]
          exact callable
        rw [List.countP_cons_of_pos opens]
        have placed : ExtractedDag.IsBare { dag with sourceSpan := some (lines.spanOf range) } := bare
        refine .inr ?_
        rcases ih visited with ⟨rfl, none⟩ | ⟨others, last, allBare, count, rfl⟩
        · exact ⟨[], _, List.forall_mem_singleton.mpr placed, by rw [none]; rfl, rfl⟩
        · refine ⟨_ :: others, last, List.forall_mem_cons.mpr ⟨placed, allBare⟩, by rw [count]; rfl, ?_⟩
          simp [pushDag, Nat.add_assoc, Nat.add_comm 1]
    · rename_i other
      rw [passed]
      · exact ih visited
      · unfold WithItem.opensDag
        split
        · rename_i call expr
          exact absurd expr (other call)
        · rfl

private theorem functionDag_bare {range : TextRange} {name : String} {decorator : DagDecoratorMatch}
    {dag : ExtractedDag}
    (made : functionDag lines range name decorator = .ok dag) : dag.IsBare := by
  obtain ⟨dagId, _, made⟩ := bind_eq_ok.mp made
  cases decorator with
  | bare =>
    cases made
    exact ⟨rfl, rfl⟩
  | call call => exact mergeDagKwargs_ok made

/-- What a visit of a statement does: it goes through the body after a step, or in a scope of its own, which
may be one of the last of the DAGs that the statement opens. -/
inductive Visit (lines : LineIndex) (walker : Walker) (dagIdx : Option Nat) (stmt : Stmt) : Walker → Prop where
  | plain (middle after : Walker) (plain : stmt.isScope = false)
    (step : Step walker dagIdx stmt.taskId stmt.entersTask stmt.givenName middle)
    (body : visitStmts lines middle dagIdx stmt.body = .ok after) : Visit lines walker dagIdx stmt after
  | block (last : Walker) (scope : stmt.isScope = true) (closed : stmt.opensDag = false)
    (body : visitStmts lines walker dagIdx stmt.body = .ok last) :
    Visit lines walker dagIdx stmt (last.truncate walker.taskAliases.length)
  | opens (others : List ExtractedDag) (dag : ExtractedDag) (last : Walker) (scope : stmt.isScope = true)
    (opens : stmt.opensDag = true) (bare : ∀ new ∈ others ++ [dag], new.IsBare)
      (count : stmt.dagCount = others.length + 1)
    (body : visitStmts lines { walker with dags := walker.dags ++ (others ++ [dag]) }
      (some (walker.dags.length + others.length)) stmt.body = .ok last) :
    Visit lines walker dagIdx stmt (last.truncate walker.taskAliases.length)

/-- Every visit of a statement is one of these. -/
theorem visit_of_ok {stmt : Stmt} (visited : visitStmt lines walker dagIdx stmt = .ok after) :
    Visit lines walker dagIdx stmt after := by
  cases stmt with
  | stmtWith range items body =>
    obtain ⟨entered, opened, visited⟩ := bind_eq_ok.mp visited
    obtain ⟨last, ran, done⟩ := bind_eq_ok.mp visited
    cases done
    have opens : items.any WithItem.opensDag = true ↔ 0 < items.countP WithItem.opensDag := by
      rw [List.countP_pos_iff, List.any_eq_true]
    rcases visitItems_ok opened with ⟨rfl, none⟩ | ⟨others, dag, bare, count, rfl⟩
    · refine .block last rfl (Bool.eq_false_iff.mpr fun opened => ?_) ran
      have some := opens.mp opened
      omega
    · exact .opens others dag last rfl (opens.mpr (by omega)) bare count ran
  | functionDef range name decorators signature body =>
    simp only [visitStmt] at visited
    split at visited
    · rename_i decorator found
      obtain ⟨dag, made, visited⟩ := bind_eq_ok.mp visited
      obtain ⟨last, ran, done⟩ := bind_eq_ok.mp visited
      cases done
      have opens : (Stmt.functionDef range name decorators signature body).opensDag = true := by
        obtain ⟨decorator, member, matched⟩ := List.exists_of_findSome?_eq_some found
        exact List.any_eq_true.mpr ⟨decorator, member, by rw [matched]; rfl⟩
      exact .opens [] dag last opens opens (List.forall_mem_singleton.mpr (functionDag_bare made))
        (if_pos opens) ran
    · rename_i absent
      obtain ⟨middle, head, visited⟩ := bind_eq_ok.mp visited
      have plain : (Stmt.functionDef range name decorators signature body).opensDag = false := by
        refine List.any_eq_false.mpr fun decorator member matched => ?_
        rw [List.findSome?_eq_none_iff.mp absent decorator member] at matched
        cases matched
      exact .plain middle after plain (visitTaskFunction_step plain head) visited
  | assign targets value => exact .plain after after rfl (visitAssign_step visited) rfl
  | annAssign target value =>
    cases value with
    | none =>
      cases visited
      exact .plain walker walker rfl (.stays rfl (.inr rfl)) rfl
    | some value =>
      have step := visitAssign_step visited
      refine .plain after after rfl ?_ rfl
      cases value <;> exact step
  | expr value => exact .plain after after rfl (visitExprStmt_step visited) rfl
  | other =>
    cases visited
    exact .plain walker walker rfl (.stays rfl (.inr rfl)) rfl
  | classDef | stmtIf | stmtFor | stmtWhile | stmtTry =>
    exact .plain walker after rfl (.stays rfl (.inr rfl)) visited

end Walker

end FerroProtocols.Airflow
