import FerroProtocols.Airflow.Tasks

/-! The edges that chains of `>>` and `<<` state, against what the extractor collects. -/

namespace FerroProtocols.Airflow

open Distinct

/-- What an expression of operators over tasks has as its value, and the edges that it states. -/
structure Dependencies where
  tasks : List TaskId
  edges : List Edge

/-- The edges that an operator states between the tasks on both sides. -/
def statedEdges (op : Operator) (left right : List TaskId) : List Edge :=
  match op with
  | .rShift => left.flatMap fun upstream => right.map fun downstream => (upstream, downstream)
  | .lShift => right.flatMap fun upstream => left.map fun downstream => (upstream, downstream)
  | .other => []

variable (aliases : List (String × TaskId))

/-- The task that a name is bound to. -/
def namedTask : Expr → Option TaskId
  | .name _ id => Walker.lookup aliases id
  | _ => none

/-- The value of an expression of operators over names and lists of names, if all names are bound. The value
of an operator is the one of its right operand. -/
def evalShift : Expr → Option Dependencies
  | .name range id => (namedTask aliases (.name range id)).map fun task => ⟨[task], []⟩
  | .list _ elts => (elts.mapM (namedTask aliases)).map fun tasks => ⟨tasks, []⟩
  | .tuple _ elts => (elts.mapM (namedTask aliases)).map fun tasks => ⟨tasks, []⟩
  | .binOp _ left op right =>
    if op.isShift then
      (evalShift left).bind fun first => (evalShift right).map fun second =>
        ⟨second.tasks, first.edges ++ second.edges ++ statedEdges op first.tasks second.tasks⟩
    else none
  | _ => none

/-- The tasks that an expression has as its value. -/
def shiftValue (expr : Expr) : List TaskId := ((evalShift aliases expr).map Dependencies.tasks).getD []

/-- The edges that are stated within an expression. -/
def shiftStated (expr : Expr) : List Edge := ((evalShift aliases expr).map Dependencies.edges).getD []

/-- The edges that the operators on the left state. -/
def spineEdges : Expr → List Edge
  | .binOp _ left op right => statedEdges op (shiftValue aliases left) (shiftValue aliases right) ++ spineEdges left
  | _ => []

/-- The edges that are stated within the right operands of these operators. -/
def innerEdges : Expr → List Edge
  | .binOp _ left _ right => shiftStated aliases right ++ innerEdges left
  | _ => []

/-- The number of operators in an expression. -/
def shiftCount : Expr → Nat
  | .binOp _ left _ right => shiftCount left + shiftCount right + 1
  | _ => 0

variable {aliases}

variable {value : Dependencies} {depth : Nat} {expr : Expr}

private theorem evalShift_binOp {range : TextRange} {left right : Expr} {op : Operator}
    (evaluated : evalShift aliases (.binOp range left op right) = some value) :
    op.isShift = true ∧ ∃ first second, evalShift aliases left = some first ∧ evalShift aliases right = some second ∧
      value.tasks = second.tasks ∧
      value.edges = first.edges ++ second.edges ++ statedEdges op first.tasks second.tasks := by
  rw [evalShift] at evaluated
  split at evaluated
  · rename_i shift
    obtain ⟨first, onLeft, evaluated⟩ := Option.bind_eq_some_iff.mp evaluated
    obtain ⟨second, onRight, same⟩ := Option.map_eq_some_iff.mp evaluated
    cases same
    exact ⟨shift, first, second, onLeft, onRight, rfl, rfl⟩
  · cases evaluated

private theorem mem_shiftEdges {op : Operator} (shift : op.isShift = true) {left right : List TaskId} {edge : Edge} :
    edge ∈ Walker.shiftEdges op left right ↔ edge ∈ statedEdges op left right := by
  cases op with
  | rShift => simp [Walker.shiftEdges, Walker.shiftEdge, statedEdges]
  | lShift =>
    -- The tasks are gone through in the other order.
    simp only [Walker.shiftEdges, Walker.shiftEdge, statedEdges, List.mem_flatMap, List.mem_map]
    constructor
    · rintro ⟨first, onLeft, second, onRight, same⟩
      exact ⟨second, onRight, first, onLeft, same⟩
    · rintro ⟨second, onRight, first, onLeft, same⟩
      exact ⟨first, onLeft, second, onRight, same⟩
  | other => cases shift

private theorem resolveToTaskId_eq (shallow : depth ≤ maxWalkDepth) {task : TaskId}
    (named : namedTask aliases expr = some task) : Walker.resolveToTaskId aliases depth expr = some task := by
  cases expr with
  | name range id =>
    rw [Walker.resolveToTaskId, if_neg (by omega)]
    exact named
  | _ => cases named

private theorem filterMap_resolve_eq (shallow : depth ≤ maxWalkDepth) {elts : List Expr} {tasks : List TaskId}
    (named : elts.mapM (namedTask aliases) = some tasks) :
    elts.filterMap (Walker.resolveToTaskId aliases depth) = tasks := by
  induction elts generalizing tasks with
  | nil =>
    cases named
    rfl
  | cons first rest ih =>
    rw [List.mapM_cons] at named
    obtain ⟨task, own, named⟩ := Option.bind_eq_some_iff.mp named
    obtain ⟨others, later, same⟩ := Option.bind_eq_some_iff.mp named
    cases same
    rw [List.filterMap_cons, resolveToTaskId_eq shallow own, ih later]

private theorem shift_induction {holds : Expr → Prop}
    (leaf : ∀ expr, (∀ range left op right, expr ≠ .binOp range left op right) → holds expr)
    (node : ∀ range left op right, holds left → holds right → holds (.binOp range left op right)) (expr : Expr) :
    holds expr := by
  fun_induction shiftCount expr with
  | case1 range left op right onLeft onRight => exact node range left op right onLeft onRight
  | case2 expr other => exact leaf expr other

private theorem terminalTaskIds_eq
    (evaluated : evalShift aliases expr = some value) (shallow : depth + shiftCount expr < maxWalkDepth) :
    Walker.terminalTaskIds aliases depth expr = value.tasks := by
  induction expr using shift_induction generalizing depth value with
  | node range left op right _ onRight =>
    -- The value is the one of the right operand, which is one step further down.
    obtain ⟨shift, first, second, _, evaluated, tasks, _⟩ := evalShift_binOp evaluated
    rw [shiftCount] at shallow
    rw [Walker.terminalTaskIds, if_neg (by omega), tasks]
    simp only [shift, if_true]
    exact onRight evaluated (by omega)
  | leaf expr _ =>
    have deep : ¬ maxWalkDepth < depth := by omega
    have next : depth + 1 ≤ maxWalkDepth := by omega
    cases expr with
    | name range id =>
      obtain ⟨task, named, same⟩ := Option.map_eq_some_iff.mp evaluated
      cases same
      simp [Walker.terminalTaskIds, deep, resolveToTaskId_eq next named]
    | list | tuple =>
      obtain ⟨tasks, named, same⟩ := Option.map_eq_some_iff.mp evaluated
      cases same
      rw [Walker.terminalTaskIds, if_neg deep]
      exact filterMap_resolve_eq next named
    | binOp range left op right => grind
    | _ => cases evaluated

variable {range : TextRange} {left right : Expr} {op : Operator} {edges : List Edge} {edge : Edge}

private theorem mem_foldl_shiftEdges (evaluated : evalShift aliases (.binOp range left op right) = some value)
    (shallow : depth + shiftCount (.binOp range left op right) ≤ maxWalkDepth) :
    edge ∈ (Walker.shiftEdges op (Walker.terminalTaskIds aliases depth left)
        (Walker.terminalTaskIds aliases depth right)).foldl pushUniqueEdge edges ↔
      edge ∈ edges ∨ edge ∈ statedEdges op (shiftValue aliases left) (shiftValue aliases right) := by
  obtain ⟨shift, first, second, onLeft, onRight, _⟩ := evalShift_binOp evaluated
  rw [shiftCount] at shallow
  rw [terminalTaskIds_eq onLeft (by omega), terminalTaskIds_eq onRight (by omega), shiftValue, shiftValue,
    onLeft, onRight]
  show edge ∈ pushAll edges _ ↔ _
  rw [mem_pushAll, mem_shiftEdges shift]
  rfl

private theorem mem_collectShiftEdges (evaluated : evalShift aliases (.binOp range left op right) = some value)
    (shallow : depth + shiftCount (.binOp range left op right) ≤ maxWalkDepth) :
    edge ∈ Walker.collectShiftEdges aliases left op right depth edges ↔
      edge ∈ edges ∨ edge ∈ spineEdges aliases (.binOp range left op right) := by
  induction left using shift_induction generalizing range right op value depth edges with
  | leaf left other =>
    have own := @mem_foldl_shiftEdges aliases value depth range left right op edges edge evaluated shallow
    have bottom : spineEdges aliases left = [] := by
      cases left with
      | binOp range left op right => exact absurd rfl (other range left op right)
      | _ => rfl
    have stops : Walker.collectShiftEdges aliases left op right depth edges =
        (Walker.shiftEdges op (Walker.terminalTaskIds aliases depth left)
          (Walker.terminalTaskIds aliases depth right)).foldl pushUniqueEdge edges := by
      rw [shiftCount] at shallow
      rw [Walker.collectShiftEdges, if_neg (by omega)]
      cases left with
      | binOp range left op right => exact absurd rfl (other range left op right)
      | _ => rfl
    rw [stops, own, spineEdges, bottom, List.append_nil]
  | node range₂ left₂ op₂ right₂ onward _ =>
    have own := @mem_foldl_shiftEdges aliases value depth range _ right op edges edge evaluated shallow
    obtain ⟨_, first, _, onLeft, _⟩ := evalShift_binOp evaluated
    obtain ⟨shift, _⟩ := evalShift_binOp onLeft
    rw [shiftCount] at shallow
    have goes : Walker.collectShiftEdges aliases (.binOp range₂ left₂ op₂ right₂) op right depth edges =
        Walker.collectShiftEdges aliases left₂ op₂ right₂ (depth + 1)
          ((Walker.shiftEdges op (Walker.terminalTaskIds aliases depth (.binOp range₂ left₂ op₂ right₂))
            (Walker.terminalTaskIds aliases depth right)).foldl pushUniqueEdge edges) := by
      rw [Walker.collectShiftEdges, if_neg (by omega)]
      simp [shift]
    have down : spineEdges aliases (.binOp range (.binOp range₂ left₂ op₂ right₂) op right) =
        statedEdges op (shiftValue aliases (.binOp range₂ left₂ op₂ right₂)) (shiftValue aliases right) ++
          spineEdges aliases (.binOp range₂ left₂ op₂ right₂) := rfl
    rw [goes, onward onLeft (by omega), own, down, List.mem_append, or_assoc]

private theorem mem_edges_iff (evaluated : evalShift aliases expr = some value) :
    edge ∈ value.edges ↔ edge ∈ spineEdges aliases expr ∨ edge ∈ innerEdges aliases expr := by
  induction expr using shift_induction generalizing value with
  | leaf expr other =>
    have none : value.edges = [] ∧ spineEdges aliases expr = [] ∧ innerEdges aliases expr = [] := by
      cases expr with
      | name range id =>
        obtain ⟨task, _, same⟩ := Option.map_eq_some_iff.mp evaluated
        cases same
        exact ⟨rfl, rfl, rfl⟩
      | list | tuple =>
        obtain ⟨tasks, _, same⟩ := Option.map_eq_some_iff.mp evaluated
        cases same
        exact ⟨rfl, rfl, rfl⟩
      | binOp range left op right => exact absurd rfl (other range left op right)
      | _ => cases evaluated
    rw [none.1, none.2.1, none.2.2]
    simp
  | node range left op right onward _ =>
    obtain ⟨_, first, second, onLeft, onRight, _, edges⟩ := evalShift_binOp evaluated
    have values : shiftValue aliases left = first.tasks ∧ shiftValue aliases right = second.tasks ∧
        shiftStated aliases right = second.edges := by
      simp [shiftValue, shiftStated, onLeft, onRight]
    rw [edges, spineEdges, innerEdges, values.1, values.2.1, values.2.2]
    simp only [List.mem_append, onward onLeft]
    grind

private theorem visitExprStmt_shift {walker : Walker} {place : Nat} {dag : ExtractedDag}
    (there : walker.dags[place]? = some dag) (evaluated : evalShift walker.taskAliases expr = some value)
    (few : shiftCount expr ≤ maxWalkDepth) :
    ∃ after updated, walker.visitExprStmt expr (some place) = .ok after ∧ after.dags[place]? = some updated ∧
      ∀ edge, edge ∈ updated.depsEdges ↔ edge ∈ dag.depsEdges ∨ edge ∈ spineEdges walker.taskAliases expr := by
  cases expr with
  | binOp range left op right =>
    obtain ⟨shift, _⟩ := evalShift_binOp evaluated
    refine ⟨walker.updateDag place fun dag =>
        { dag with depsEdges := Walker.collectShiftEdges walker.taskAliases left op right 0 dag.depsEdges },
      { dag with depsEdges := Walker.collectShiftEdges walker.taskAliases left op right 0 dag.depsEdges }, ?_, ?_,
      fun edge => mem_collectShiftEdges evaluated (by omega)⟩
    · simp [Walker.visitExprStmt, shift]
    · simp [Walker.updateDag, there]
  | name | list | tuple => exact ⟨walker, dag, rfl, there, fun edge => by simp [spineEdges]⟩
  | _ => cases evaluated

/-- A chain of operators over names and lists of names that are bound to tasks adds exactly the edges that it
states, if and only if all edges stated within right operands were there before or are stated by the operators
on the left. -/
theorem dependencies_exact_iff {walker : Walker} {place : Nat} {dag : ExtractedDag} {expr : Expr}
    {value : Dependencies}
    (there : walker.dags[place]? = some dag) (evaluated : evalShift walker.taskAliases expr = some value)
    (few : shiftCount expr ≤ 1000) :
    ∃ after updated, walker.visitExprStmt expr (some place) = .ok after ∧ after.dags[place]? = some updated ∧
      ((∀ edge, edge ∈ updated.depsEdges ↔ edge ∈ dag.depsEdges ∨ edge ∈ value.edges) ↔
        ∀ edge ∈ innerEdges walker.taskAliases expr,
          edge ∈ dag.depsEdges ∨ edge ∈ spineEdges walker.taskAliases expr) := by
  have shallow : shiftCount expr ≤ maxWalkDepth := Nat.le_trans few (by decide)
  obtain ⟨after, updated, visited, found, edges⟩ := visitExprStmt_shift there evaluated shallow
  refine ⟨after, updated, visited, found, ?_⟩
  simp only [edges, mem_edges_iff evaluated]
  constructor
  · intro same edge inner
    exact (same edge).mpr (.inr (.inr inner))
  · intro among edge
    constructor
    · rintro (before | spine)
      · exact .inl before
      · exact .inr (.inl spine)
    · rintro (before | spine | inner)
      · exact .inl before
      · exact .inr spine
      · exact among edge inner

section Runs

/-- A walk in a DAG with three tasks, each bound to its own name. -/
def threeTasks : Walker :=
  let a : TaskId := ⟨"a", by decide⟩
  let b : TaskId := ⟨"b", by decide⟩
  let c : TaskId := ⟨"c", by decide⟩
  ⟨[{ ExtractedDag.default with taskIds := [a, b, c] }], [("a", a), ("b", b), ("c", c)]⟩

/-- One name before another. -/
def before (left right : Expr) : Expr := .binOp anywhere left .rShift right

/-- A chain as it is written without parentheses. -/
def plainChain : Expr := before (before (.name anywhere "a") (.name anywhere "b")) (.name anywhere "c")

/-- A chain with parentheses on the right. -/
def nestedChain : Expr := before (.name anywhere "a") (before (.name anywhere "b") (.name anywhere "c"))

/-- An edge by the texts of its tasks. -/
def edgeTexts (edge : Edge) : String × String := (edge.1.value, edge.2.value)

/-- A chain without parentheses adds what it states. -/
theorem dependencies_exact_iff_chain :
    ∃ after updated value, evalShift threeTasks.taskAliases plainChain = some value ∧
      value.edges.map edgeTexts = [("a", "b"), ("b", "c")] ∧
        threeTasks.visitExprStmt plainChain (some 0) = .ok after ∧
      after.dags[0]? = some updated ∧ ∀ edge, edge ∈ updated.depsEdges ↔ edge ∈ value.edges := by
  obtain ⟨stated, inner, few⟩ : ((evalShift threeTasks.taskAliases plainChain).map fun value =>
    value.edges.map edgeTexts) =
      some [("a", "b"), ("b", "c")] ∧ innerEdges threeTasks.taskAliases plainChain = [] ∧
      shiftCount plainChain ≤ 1000 := by
    decide +kernel
  obtain ⟨value, valued, texts⟩ := Option.map_eq_some_iff.mp stated
  obtain ⟨after, updated, visited, found, edges⟩ := @dependencies_exact_iff threeTasks 0 _ _ _ rfl valued few
  refine ⟨after, updated, value, valued, texts, visited, found, fun edge => ?_⟩
  rw [edges.mpr (by rw [inner]; exact fun edge impossible => (by cases impossible)) edge]
  exact or_iff_right List.not_mem_nil

/-- With parentheses on the right, an edge that is stated is not collected. -/
theorem nested_chain_incomplete : shiftCount nestedChain = 2 ∧
      ((evalShift threeTasks.taskAliases nestedChain).map fun value => value.edges.map edgeTexts) =
        some [("b", "c"), ("a", "c")] ∧ ((threeTasks.visitExprStmt nestedChain (some 0)).toOption.map fun after =>
        after.dags.map fun dag => dag.depsEdges.map edgeTexts) = some [[("a", "c")]] := by
  decide +kernel

end Runs

end FerroProtocols.Airflow
