import FerroProtocols.Airflow.Steps

/-! The tasks of a DAG, and which of them the extractor enters. -/

namespace FerroProtocols.Airflow

open Distinct Fallible Splice

/-- A task that is stated somewhere in the body of a DAG, and whether the walk enters it. -/
structure TaskSite where
  id : String
  reached : Bool
  deriving DecidableEq, Repr

namespace Stmt

/-- The DAGs that the walk finds at a statement, each with its body. Of several DAGs in one `with` statement,
each has only the next one in its body. A DAG that is assigned has none. -/
def dagBodies : Stmt → List (List Stmt)
  | .stmtWith _ items body =>
    if items.any WithItem.opensDag then List.replicate (items.countP WithItem.opensDag - 1) [] ++ [body] else []
  | .functionDef range name decorators signature body =>
    if (Stmt.functionDef range name decorators signature body).opensDag then [body] else []
  | .assign _ (.call call) | .annAssign _ (some (.call call)) => if isDagCallable call.func then [[]] else []
  | _ => []

end Stmt

section Sites

/-- Tasks are looked for in all blocks except those of further DAGs, and entered in the first ones. -/
def taskContext (reached : Bool) (stmt : Stmt) (kind : BlockKind) : Option Bool :=
  if stmt.opensDag then none else some (reached && kind = .body)

/-- The task that a statement itself states. -/
def ownSite (reached : Bool) (stmt : Stmt) : List TaskSite :=
  stmt.taskId.toList.map fun id => ⟨id, reached && stmt.entersTask⟩

/-- The tasks that are stated in a block at any depth, in the order of the source. -/
def taskSites (reached : Bool) (stmts : List Stmt) : List TaskSite := Stmt.gather taskContext ownSite reached stmts

/-- The bodies of the DAGs that the walk finds in a block, in the order of the source. -/
def dagBodies (stmts : List Stmt) : List (List Stmt) :=
  Stmt.gather (fun _ _ kind => if kind = .body then some () else none) (fun _ stmt => stmt.dagBodies) () stmts

/-- The tasks of a list that are entered. -/
def reachedOf (sites : List TaskSite) : List String := (sites.filter TaskSite.reached).map TaskSite.id

/-- The tasks in a block that are entered. -/
def reachedTasks (stmts : List Stmt) : List String := reachedOf (taskSites true stmts)

/-- Sites are reached or not one by one. -/
@[simp]
theorem reachedOf_append (first second : List TaskSite) :
    reachedOf (first ++ second) = reachedOf first ++ reachedOf second := by
  simp [reachedOf]

private theorem reachedOf_flatMap {β : Type} (list : List β) (sites : β → List TaskSite) :
    reachedOf (list.flatMap sites) = list.flatMap fun item => reachedOf (sites item) := by
  induction list with
  | nil => rfl
  | cons item rest ih => rw [List.flatMap_cons, reachedOf_append, ih, List.flatMap_cons]

private theorem reachedOf_block {reached : Bool} {stmt : Stmt} {block : BlockKind × List Stmt}
    (unreached : reached = false ∨ block.1 ≠ .body) (inner : reachedOf (taskSites false block.2) = []) :
    reachedOf ((taskContext reached stmt block.1).elim [] fun context => taskSites context block.2) = [] := by
  have context : (reached && decide (block.1 = .body)) = false := by
    rcases unreached with same | other
    · rw [same, Bool.false_and]
    · rw [decide_eq_false other, Bool.and_false]
  cases opens : stmt.opensDag with
  | true => simp [taskContext, opens, reachedOf]
  | false => simp [taskContext, opens, context, inner]

private theorem reachedOf_taskSites_false (stmts : List Stmt) : reachedOf (taskSites false stmts) = [] := by
  induction stmts using Stmt.block_induction with
  | nil => rfl
  | cons stmt rest inner ih =>
    have own : reachedOf (ownSite false stmt) = [] := by
      cases found : stmt.taskId <;> simp [ownSite, reachedOf, found]
    have blocks : reachedOf (Stmt.gatherBlocks taskContext ownSite false stmt) = [] := by
      rw [Stmt.gatherBlocks_eq, reachedOf_flatMap, List.flatMap_eq_nil_iff]
      intro block member
      exact reachedOf_block (.inl rfl) (inner block member)
    unfold taskSites at ih ⊢
    rw [Stmt.gather, reachedOf_append, reachedOf_append, own, blocks, ih]
    rfl

private theorem reachedTasks_cons (stmt : Stmt) (rest : List Stmt) :
    reachedTasks (stmt :: rest) = reachedOf (ownSite true stmt) ++
      ((if stmt.opensDag then [] else reachedTasks stmt.body) ++ reachedTasks rest) := by
  have passed (others : List (BlockKind × List Stmt)) (other : ∀ block ∈ others, block.1 ≠ .body) :
      reachedOf (others.flatMap fun block =>
        (taskContext true stmt block.1).elim [] fun context => taskSites context block.2) = [] := by
    rw [reachedOf_flatMap, List.flatMap_eq_nil_iff]
    intro block member
    exact reachedOf_block (.inr (other block member)) (reachedOf_taskSites_false block.2)
  have blocks : reachedOf (Stmt.gatherBlocks taskContext ownSite true stmt) =
      if stmt.opensDag then [] else reachedTasks stmt.body := by
    rw [Stmt.gatherBlocks_eq]
    obtain ⟨others, other, same | ⟨same, empty⟩⟩ := stmt.blocks_eq
    · rw [same, List.flatMap_cons, reachedOf_append]
      unfold taskSites at passed
      rw [passed others other, List.append_nil]
      cases opens : stmt.opensDag with
      | true => simp [taskContext, opens, reachedOf]
      | false => simp [taskContext, opens, reachedTasks, taskSites]
    · unfold taskSites at passed
      rw [same, passed others other, empty]
      split <;> rfl
  unfold reachedTasks at blocks ⊢
  unfold taskSites at blocks ⊢
  rw [Stmt.gather, reachedOf_append, reachedOf_append, blocks]

private theorem dagBodies_cons (stmt : Stmt) (rest : List Stmt) :
    dagBodies (stmt :: rest) = stmt.dagBodies ++ (dagBodies stmt.body ++ dagBodies rest) := by
  rw [dagBodies, Stmt.gather, Stmt.gatherBlocks_of_body fun kind other => if_neg other]
  rfl

end Sites

namespace Walker

/-- The tasks of the DAGs, by their texts. -/
def tasks (walker : Walker) : List (List String) := walker.dags.map fun dag => dag.taskIds.map SafeIdentifier.value

/-- The tasks with more of them in the DAG that the walk is in. -/
def entered (dagIdx : Option Nat) (ids : List String) (tasks : List (List String)) : List (List String) :=
  dagIdx.elim tasks fun place => tasks.modify place fun own => pushAll own ids

/-- The walk has entered tasks in the DAG that it is in, and has found DAGs with the tasks of their bodies. -/
def Collects (before : Walker) (dagIdx : Option Nat) (ids : List String) (bodies : List (List Stmt))
    (after : Walker) : Prop :=
  after.tasks = entered dagIdx ids before.tasks ++ bodies.map fun body => pushAll [] (reachedTasks body)

/-- The DAG that the walk is in has been found. -/
def Inside (walker : Walker) (dagIdx : Option Nat) : Prop :=
  ∀ place, dagIdx = some place → place < walker.tasks.length

variable {walker before middle after : Walker} {dagIdx : Option Nat}

private theorem length_entered (ids : List String) (tasks : List (List String)) :
    (entered dagIdx ids tasks).length = tasks.length := by
  cases dagIdx with
  | none => rfl
  | some place => exact List.length_modify ..

private theorem entered_nil (tasks : List (List String)) : entered dagIdx [] tasks = tasks := by
  cases dagIdx with
  | none => rfl
  | some place => exact List.modify_id place tasks

/-- The walk stays in a DAG that has been found. -/
theorem Collects.inside {ids : List String} {bodies : List (List Stmt)}
    (collects : Collects before dagIdx ids bodies after)
    (inside : Inside before dagIdx) : Inside after dagIdx := by
  intro place same
  have length := congrArg List.length collects
  rw [List.length_append, length_entered] at length
  have found := inside place same
  omega

/-- Nothing happens where nothing is collected. -/
theorem Collects.refl : Collects walker dagIdx [] [] walker := by
  rw [Collects, entered_nil, List.map_nil, List.append_nil]

/-- What is collected one after the other. -/
theorem Collects.trans {ids later : List String} {bodies others : List (List Stmt)}
    (first : Collects before dagIdx ids bodies middle) (inside : Inside before dagIdx)
    (second : Collects middle dagIdx later others after) :
    Collects before dagIdx (ids ++ later) (bodies ++ others) after := by
  unfold Collects at first second ⊢
  rw [second, first, List.map_append, ← List.append_assoc]
  congr 1
  cases dagIdx with
  | none => rfl
  | some place =>
    -- The DAG that the walk is in stands before those that were found since.
    have found : place < (entered (some place) ids before.tasks).length := by
      rw [length_entered]
      exact inside place rfl
    show ((entered (some place) ids before.tasks ++ _).modify place fun own => pushAll own later) = _
    rw [modify_append_left found]
    congr 1
    show (before.tasks.modify place _).modify place _ = _
    rw [List.modify_modify_eq]
    congr 1
    funext own
    exact (pushAll_append ids later).symm

private theorem tasks_updateDag {place : Nat} {change : ExtractedDag → ExtractedDag}
    (same : ∀ dag, (change dag).taskIds = dag.taskIds) : (walker.updateDag place change).tasks = walker.tasks := by
  have seen :=
    @map_modify _ _ walker.dags place change (fun dag => dag.taskIds.map SafeIdentifier.value) id fun dag => by
    rw [same]
    rfl
  rw [List.modify_id] at seen
  exact seen

private theorem tasks_pushTask (place : Nat) (task : TaskId) :
    (walker.pushTask place task).tasks = walker.tasks.modify place fun own => pushUnique own task.value := by
  refine map_modify fun dag => ?_
  refine map_pushUnique fun left right same => ?_
  cases left
  cases right
  cases same
  rfl

private theorem collects_task {value : String} {place : Nat} {task : TaskId} (made : makeTaskId value = .ok task)
    (shown : after.tasks = (walker.pushTask place task).tasks) : Collects walker (some place) [value] [] after := by
  have named : task.value = value := value_of_makeId made
  rw [Collects, shown, tasks_pushTask, named, List.map_nil, List.append_nil]
  rfl

private theorem tasks_pushDag {dag : ExtractedDag} (empty : dag.taskIds = []) :
    (walker.pushDag dag).tasks = walker.tasks ++ [[]] := by
  rw [tasks, pushDag, List.map_append, List.map_singleton, empty]
  rfl

private theorem reachedOf_ownSite (stmt : Stmt) :
    reachedOf (ownSite true stmt) = if stmt.entersTask then stmt.taskId.toList else [] := by
  cases found : stmt.taskId with
  | none => simp [ownSite, found, reachedOf]
  | some id => cases enters : stmt.entersTask <;> simp [ownSite, found, enters, reachedOf]

private theorem collects_of_tasks_eq (same : after.tasks = walker.tasks) : Collects walker dagIdx [] [] after := by
  rw [Collects, same, entered_nil, List.map_nil, List.append_nil]

private theorem collects_step {stated name : Option String} {enters : Bool}
    (step : Step walker dagIdx stated enters name after) :
    Collects walker dagIdx (if enters then stated.toList else []) (if enters then [] else [[]]) after := by
  cases step with
  | stays plain idle =>
    rw [plain]
    rcases idle with rfl | rfl
    · exact (List.append_nil _).symm
    · exact .refl
  | finds dag bare other =>
    rw [other, Collects, tasks_pushDag bare.1]
    simp [entered_nil]
    rfl
  | states plain place change inside silent grown =>
    rw [plain, silent]
    exact collects_of_tasks_eq (tasks_updateDag fun _ => rfl)
  | task plain place value task inside made own after named =>
    rw [plain, own, inside]
    refine collects_task made ?_
    rcases named with ⟨_, rfl⟩ | ⟨given, _, rfl⟩ <;> rfl

variable {lines : LineIndex}

private theorem collects_dag {place count : Nat} {body : List Stmt}
    (found : before.tasks = walker.tasks ++ List.replicate count [] ++ [[]])
    (last : place = walker.tasks.length + count)
    (inner : Collects before (some place) (reachedTasks body) (dagBodies body) after) :
    Collects walker dagIdx [] (List.replicate count [] ++ [body] ++ dagBodies body) after := by
  have length : place = (walker.tasks ++ List.replicate count []).length := by
    rw [last, List.length_append, List.length_replicate]
  have entered : entered (some place) (reachedTasks body) before.tasks =
      walker.tasks ++ List.replicate count [] ++ [pushAll [] (reachedTasks body)] := by
    rw [found, length]
    exact modify_append_length []
  rw [Collects, inner, entered, entered_nil, List.map_append, List.map_append, List.map_replicate, List.append_assoc,
    List.append_assoc, List.append_assoc]
  rfl

/-- Wherever the walk gets to a block from, it enters the tasks and finds the DAGs in it. -/
def Gathered (lines : LineIndex) (stmts : List Stmt) : Prop :=
  ∀ ⦃walker after : Walker⦄ ⦃dagIdx : Option Nat⦄, Inside walker dagIdx →
    visitStmts lines walker dagIdx stmts = .ok after →
    Collects walker dagIdx (reachedTasks stmts) (dagBodies stmts) after

private theorem gathered_nil : Gathered lines [] := by
  intro walker after dagIdx _ visited
  cases visited
  exact .refl

private theorem dagBodies_of_plain {stmt : Stmt} (plain : stmt.isScope = false) :
    stmt.opensDag = false ∧ stmt.dagBodies = if stmt.entersTask then [] else [[]] := by
  cases stmt with
  | stmtWith => cases plain
  | functionDef => exact ⟨plain, by simp_all [Stmt.isScope, Stmt.dagBodies, Stmt.entersTask]⟩
  | assign targets value =>
    refine ⟨rfl, ?_⟩
    cases value with
    | call call => cases callable : isDagCallable call.func <;> simp [Stmt.dagBodies, Stmt.entersTask, callable]
    | _ => rfl
  | annAssign target value =>
    refine ⟨rfl, ?_⟩
    rcases value with _ | value
    · rfl
    · cases value with
      | call call => cases callable : isDagCallable call.func <;> simp [Stmt.dagBodies, Stmt.entersTask, callable]
      | _ => rfl
  | _ => exact ⟨rfl, rfl⟩

private theorem dagBodies_of_scope {stmt : Stmt} (scope : stmt.isScope = true) : reachedOf (ownSite true stmt) = [] ∧
    stmt.dagBodies = if stmt.opensDag then List.replicate (stmt.dagCount - 1) [] ++ [stmt.body] else [] := by
  cases stmt with
  | stmtWith => exact ⟨rfl, rfl⟩
  | functionDef =>
    rw [reachedOf_ownSite]
    simp_all [Stmt.isScope, Stmt.dagBodies, Stmt.entersTask, Stmt.dagCount, Stmt.countDags, Stmt.body]
  | _ => cases scope

private theorem tasks_found {dags : List ExtractedDag} (bare : ∀ dag ∈ dags, dag.IsBare) :
    ({ walker with dags := walker.dags ++ dags } : Walker).tasks =
      walker.tasks ++ List.replicate dags.length [] := by
  rw [tasks, List.map_append, tasks]
  congr 1
  refine List.eq_replicate_iff.mpr ⟨List.length_map _, fun own member => ?_⟩
  obtain ⟨dag, found, rfl⟩ := List.mem_map.mp member
  rw [(bare dag found).1]
  rfl

private theorem collects_visitStmt {stmt : Stmt} (inner : Gathered lines stmt.body)
    (inside : Inside walker dagIdx) (visited : visitStmt lines walker dagIdx stmt = .ok after) :
    Collects walker dagIdx (reachedOf (ownSite true stmt) ++ if stmt.opensDag then [] else reachedTasks stmt.body)
      (stmt.dagBodies ++ dagBodies stmt.body) after := by
  cases visit_of_ok visited with
  | plain middle _ plain step body =>
    obtain ⟨closed, bodies⟩ := dagBodies_of_plain plain
    have first := collects_step step
    rw [reachedOf_ownSite, closed, bodies]
    exact first.trans inside (inner (first.inside inside) body)
  | block last scope closed body =>
    obtain ⟨own, bodies⟩ := dagBodies_of_scope scope
    rw [own, bodies, closed]
    have collected : Collects walker dagIdx _ _ last := inner inside body
    exact collected
  | opens others dag last scope opens bare count body =>
    obtain ⟨own, bodies⟩ := dagBodies_of_scope scope
    have tasks := @tasks_found walker _ bare
    have found : walker.dags.length = walker.tasks.length := (List.length_map _).symm
    rw [List.length_append, List.length_singleton, List.replicate_succ', ← List.append_assoc walker.tasks] at tasks
    rw [own, bodies, opens, if_pos rfl, if_pos rfl, count, Nat.add_sub_cancel]
    -- The aliases that are dropped at the end are no tasks.
    show Collects walker dagIdx _ _ last
    rw [found] at body
    refine collects_dag tasks rfl (inner ?_ body)
    intro other same
    cases same
    rw [tasks, List.length_append, List.length_append, List.length_replicate, List.length_singleton]
    omega

/-- Whatever its nesting, the tasks of a block are entered and its DAGs are found. -/
theorem gathered (stmts : List Stmt) : Gathered lines stmts := by
  induction stmts using Stmt.block_induction with
  | nil => exact gathered_nil
  | cons stmt rest inner ih =>
    intro walker after dagIdx inside visited
    obtain ⟨middle, first, later⟩ := bind_eq_ok.mp visited
    have own := collects_visitStmt (Stmt.holds_body gathered_nil inner) inside first
    rw [reachedTasks_cons, dagBodies_cons, ← List.append_assoc, ← List.append_assoc]
    exact own.trans inside (ih (own.inside inside) later)

end Walker

/-- The tasks of a DAG are those of its body that the walk gets to, in the order in which they come first.
They are exactly those of the body if the others are among them, and in the same order. -/
theorem tasks_complete {ruff : Ruff} {spawnError : Option String} {source : String} {dags : List ExtractedDag}
    (accepted : extractAll ruff spawnError source = .ok dags) :
    ∃ module, ruff.parseModule source = .returned (.ok module) ∧ dags.length = (dagBodies module).length ∧
      ∀ (place : Nat) (body : List Stmt), (dagBodies module)[place]? = some body → ∃ dag, dags[place]? = some dag ∧
        dag.taskIds.Nodup ∧ (dag.taskIds.map SafeIdentifier.value =
          ((taskSites true body).map TaskSite.id).eraseDups ↔
          (reachedTasks body).eraseDups = ((taskSites true body).map TaskSite.id).eraseDups) := by
  obtain ⟨module, walker, parsed, visited, same⟩ := extractAll_ok accepted
  have collects := Walker.gathered module (fun place impossible => (by cases impossible)) visited
  have tasks : dags.map (fun dag => dag.taskIds.map SafeIdentifier.value) =
      (dagBodies module).map fun body => pushAll [] (reachedTasks body) := by
    rw [same]
    exact collects
  refine ⟨module, parsed, ?_, fun place body found => ?_⟩
  · have lengths := congrArg List.length tasks
    rw [List.length_map, List.length_map] at lengths
    exact lengths
  · have there := congrArg (·[place]?) tasks
    simp only [List.getElem?_map, found, Option.map_some] at there
    obtain ⟨dag, dagFound, own⟩ := Option.map_eq_some_iff.mp there
    refine ⟨dag, dagFound, ?_, by rw [own, pushAll_nil]⟩
    have distinct : (pushAll [] (reachedTasks body)).Nodup := nodup_pushAll List.nodup_nil
    rw [← own] at distinct
    exact distinct.of_map

section Runs

/-- A node that stands somewhere. -/
def anywhere : TextRange := ⟨0, 0⟩

/-- A call of a name with keywords that are literals. -/
def callOf (name : String) (keywords : List (String × String)) : Expr :=
  .call ⟨anywhere, .name anywhere name, [], keywords.map fun keyword =>
    ⟨some keyword.1, .stringLiteral anywhere keyword.2⟩⟩

/-- A block of a DAG. -/
def withDag (body : List Stmt) : Stmt := .stmtWith anywhere [⟨callOf "DAG" [("dag_id", "d")], none⟩] body

/-- A parser that reads one source as its module. -/
def Ruff.reading (source : String) (module : List Stmt) : Ruff :=
  ⟨fun _ => [], fun text => .returned (if text = source then .ok module else .error "unknown source")⟩

/-- The source of a block of a DAG. -/
def dagText (body : String) : String := "with DAG(dag_id=\"d\"):\n" ++ body

/-- An operator in both branches, and a decorated function after them. -/
def nestedTasks : List Stmt :=
  [.stmtIf (.name anywhere "x") [.assign [.name anywhere "b"] (callOf "BashOperator" [("task_id", "b")])]
      [⟨none, [.expr (callOf "BashOperator" [("task_id", "b")])]⟩],
    .functionDef anywhere "c" [⟨.name anywhere "task"⟩] [] [.expr (callOf "BashOperator" [("task_id", "a")])]]

/-- Their source. -/
def nestedText : String :=
  dagText ("  if x: b = BashOperator(task_id=\"b\")\n  else: BashOperator(task_id=\"b\")\n" ++
  "  @task\n  def c(): BashOperator(task_id=\"a\")\n")

/-- An operator in the branch that is taken otherwise. -/
def taskInElse : List Stmt :=
  [.stmtIf (.name anywhere "x") [.other [] []] [⟨none, [.expr (callOf "BashOperator" [("task_id", "t")])]⟩]]

/-- Its source. -/
def elseText : String := dagText "  if x: pass\n  else: BashOperator(task_id=\"t\")\n"

/-- Tasks in a nested block and in a function are all found, and the repeated one only once. -/
theorem tasks_complete_nested :
    ∃ dags dag, extractAll (.reading nestedText [withDag nestedTasks]) none nestedText = .ok dags ∧
      dags[0]? = some dag ∧
      dag.taskIds.map SafeIdentifier.value = ["b", "c", "a"] := by
  obtain ⟨ok, reached, ids⟩ : (extractAll
    (.reading nestedText [withDag nestedTasks]) none nestedText).toOption.isSome = true ∧
      (reachedTasks nestedTasks).eraseDups = ((taskSites true nestedTasks).map TaskSite.id).eraseDups ∧
      ((taskSites true nestedTasks).map TaskSite.id).eraseDups = ["b", "c", "a"] := by
    decide +kernel
  obtain ⟨dags, accepted⟩ := exists_of_isSome ok
  obtain ⟨module, parsed, _, complete⟩ := tasks_complete accepted
  cases parsed
  obtain ⟨dag, found, _, tasks⟩ := complete 0 nestedTasks rfl
  exact ⟨dags, dag, accepted, found, by rw [tasks.mpr reached, ids]⟩

/-- A task in an `else` is not entered. -/
theorem task_in_else_missed :
    (dagBodies [withDag taskInElse])[0]? = some taskInElse ∧ (taskSites true taskInElse).map TaskSite.id = ["t"] ∧
      ((extractAll (.reading elseText [withDag taskInElse]) none elseText).toOption.map fun dags =>
        dags.map fun dag => dag.taskIds.map SafeIdentifier.value) = some [[]] :=
  ⟨rfl, by decide +kernel, by decide +kernel⟩

end Runs

end FerroProtocols.Airflow
