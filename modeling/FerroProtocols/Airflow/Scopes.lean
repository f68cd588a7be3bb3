import FerroProtocols.Airflow.Tasks

/-! The names that are bound during the walk, and that no statement of a module leaves any to the next one. -/

namespace FerroProtocols.Airflow

open Fallible

namespace Stmt

/-- The name that the walk binds to a task at a statement, with the text of the task. -/
def binding (stmt : Stmt) : Option (String × String) :=
  if stmt.entersTask then stmt.givenName.bind fun name => stmt.taskId.map fun id => (name, id) else none

end Stmt

/-- The bindings that are left after a block in a DAG. -/
def leftBindings (stmts : List Stmt) : List (String × String) :=
  Stmt.gather (fun _ stmt kind => if kind = .body ∧ stmt.isScope = false then some () else none)
    (fun _ stmt => stmt.binding.toList) () stmts

/-- The bindings of a statement, unless they are dropped, and then those of the others. -/
theorem leftBindings_cons (stmt : Stmt) (rest : List Stmt) : leftBindings (stmt :: rest) =
    stmt.binding.toList ++ ((if stmt.isScope then [] else leftBindings stmt.body) ++ leftBindings rest) := by
  rw [leftBindings, Stmt.gather, Stmt.gatherBlocks_of_body fun kind other => if_neg fun into => other into.1]
  cases stmt.isScope <;> rfl

namespace Walker

variable {lines : LineIndex} {walker middle after : Walker} {dagIdx : Option Nat}

section Aliases

variable {first second : List (String × String)} {stmt : Stmt}

/-- Names have been bound, in a DAG only. -/
def Binds (before : Walker) (dagIdx : Option Nat) (bindings : List (String × String)) (after : Walker) : Prop :=
  ∃ more, after.taskAliases = before.taskAliases ++ more ∧
    more.map (fun binding => (binding.1, binding.2.value)) = if dagIdx.isSome then bindings else []

/-- Nothing has been bound. -/
theorem Binds.none (same : after.taskAliases = walker.taskAliases) : Binds walker dagIdx [] after :=
  ⟨[], by rw [same, List.append_nil], by simp⟩

/-- What has been bound one after the other. -/
theorem Binds.trans (before : Binds walker dagIdx first middle) (later : Binds middle dagIdx second after) :
    Binds walker dagIdx (first ++ second) after := by
  obtain ⟨more, aliases, texts⟩ := before
  obtain ⟨others, grown, names⟩ := later
  refine ⟨more ++ others, by rw [grown, aliases, List.append_assoc], ?_⟩
  rw [List.map_append, texts, names]
  split <;> rfl

private theorem binds_step (step : Step walker dagIdx stmt.taskId stmt.entersTask stmt.givenName after) :
    Binds walker dagIdx stmt.binding.toList after := by
  have silent (idle : stmt.taskId = Option.none) : stmt.binding = Option.none := by simp [Stmt.binding, idle]
  cases step with
  | stays plain idle =>
    rcases idle with rfl | idle
    · exact ⟨[], (List.append_nil _).symm, rfl⟩
    · rw [silent idle]
      exact .none rfl
  | finds dag bare other =>
    rw [Stmt.binding, if_neg (Bool.eq_false_iff.mp other)]
    exact .none rfl
  | states plain place change inside idle grown =>
    rw [silent idle]
    exact .none rfl
  | task plain place value task inside made own after named =>
    rcases named with ⟨unnamed, rfl⟩ | ⟨given, named, rfl⟩
    · rw [Stmt.binding, if_pos plain, unnamed]
      exact .none rfl
    · rw [Stmt.binding, if_pos plain, named, own, inside]
      exact ⟨[(given, task)], rfl, by rw [← value_of_makeId made]; rfl⟩

/-- Visits of a block bind what is left after it. -/
def BindsBlock (lines : LineIndex) (stmts : List Stmt) : Prop :=
  ∀ ⦃walker after dagIdx⦄, visitStmts lines walker dagIdx stmts = .ok after →
    Binds walker dagIdx (leftBindings stmts) after

private theorem bindsBlock_nil : BindsBlock lines [] := by
  intro walker after dagIdx visited
  cases visited
  exact .none rfl

private theorem binds_visitStmt (body : BindsBlock lines stmt.body)
    (visited : visitStmt lines walker dagIdx stmt = .ok after) :
    Binds walker dagIdx (stmt.binding.toList ++ if stmt.isScope then [] else leftBindings stmt.body) after := by
  have kept {begun last : Walker} {inner : Option Nat} (ran : visitStmts lines begun inner stmt.body = .ok last)
      (same : begun.taskAliases = walker.taskAliases) :
      (last.truncate walker.taskAliases.length).taskAliases = walker.taskAliases := by
    obtain ⟨more, aliases, _⟩ := body ran
    rw [truncate, aliases, same, List.take_left']
    rfl
  have unbound (scope : stmt.isScope = true) : stmt.binding = Option.none := by
    cases stmt with
    | stmtWith => simp [Stmt.binding, Stmt.givenName]
    | functionDef => simp_all [Stmt.binding, Stmt.isScope, Stmt.entersTask]
    | _ => cases scope
  cases visit_of_ok visited with
  | plain middle after plain step ran =>
    rw [plain]
    exact (binds_step step).trans (body ran)
  | block last scope closed ran | opens others dag last scope opens bare count ran =>
    rw [scope, unbound scope]
    exact .none (kept ran rfl)

/-- Every block does, whatever its nesting. -/
theorem bindsBlock (stmts : List Stmt) : BindsBlock lines stmts := by
  induction stmts using Stmt.block_induction with
  | nil => exact bindsBlock_nil
  | cons stmt rest inner ih =>
    intro walker after dagIdx visited
    obtain ⟨middle, first, visited⟩ := bind_eq_ok.mp visited
    rw [leftBindings_cons, ← List.append_assoc]
    exact (binds_visitStmt (Stmt.holds_body bindsBlock_nil inner) first).trans (ih visited)

end Aliases

section Behind

variable {found : List ExtractedDag} {stmts : List Stmt}

/-- A walk with DAGs that were found before it began. -/
def behind (found : List ExtractedDag) (walker : Walker) : Walker := { walker with dags := found ++ walker.dags }

/-- The place of a DAG behind those that were found before. -/
def placeBehind (found : List ExtractedDag) (dagIdx : Option Nat) : Option Nat := dagIdx.map (found.length + ·)

private theorem behind_pushDag (dag : ExtractedDag) :
    (walker.behind found).pushDag dag = (walker.pushDag dag).behind found := by
  simp [behind, pushDag]

private theorem behind_updateDag (place : Nat) (change : ExtractedDag → ExtractedDag) :
    (walker.behind found).updateDag
    (found.length + place) change = (walker.updateDag place change).behind found := by
  simp [behind, updateDag, List.modify_eq_take_drop, List.take_length_add_append, List.drop_length_add_append]

private theorem length_behind : (walker.behind found).dags.length = found.length + walker.dags.length :=
  List.length_append

private theorem visitAssign_behind (targets : List Expr) (value : Expr) (dagIdx : Option Nat) :
    (walker.behind found).visitAssign targets value (placeBehind found dagIdx) =
      (walker.visitAssign targets value dagIdx).map (behind found) := by
  cases value with
  | call call =>
    refine bind_map (map_id_eq _) fun made => ?_
    rcases made with _ | dag
    · rcases callTaskId call with _ | taskId
      · rfl
      · rcases singleTargetName targets with _ | name
        · rfl
        · rcases dagIdx with _ | place
          · rfl
          · exact bind_map (map_id_eq _) fun task =>
              congrArg (fun walker => Except.ok (walker.bind name task)) (behind_updateDag place _)
    · exact congrArg Except.ok (behind_pushDag dag)
  | _ => rfl

private theorem visitExprStmt_behind (expr : Expr) (dagIdx : Option Nat) :
    (walker.behind found).visitExprStmt expr (placeBehind found dagIdx) =
      (walker.visitExprStmt expr dagIdx).map (behind found) := by
  rcases dagIdx with _ | place
  · rfl
  · cases expr with
    | call call =>
      simp only [visitExprStmt, placeBehind, Option.map_some]
      rcases callTaskId call with _ | taskId
      · simp only
        split
        · split
          · exact congrArg Except.ok (behind_updateDag place _)
          · rfl
        · rfl
      · exact bind_map (map_id_eq _) fun task => congrArg Except.ok (behind_updateDag place _)
    | binOp range left op right =>
      simp only [visitExprStmt, placeBehind, Option.map_some]
      split
      · exact congrArg Except.ok (behind_updateDag place _)
      · rfl
    | _ => rfl

private theorem visitTaskFunction_behind (name : String) (decorators : List Decorator) (dagIdx : Option Nat) :
    (walker.behind found).visitTaskFunction name decorators (placeBehind found dagIdx) =
      (walker.visitTaskFunction name decorators dagIdx).map (behind found) := by
  rcases dagIdx with _ | place
  · rfl
  · simp only [visitTaskFunction, placeBehind, Option.map_some]
    split
    · exact bind_map (map_id_eq _) fun task =>
        congrArg (fun walker => Except.ok (walker.bind name task)) (behind_updateDag place _)
    · rfl

private theorem visitItems_behind (range : TextRange) (items : List WithItem) (dagIdx : Option Nat) :
    visitItems lines range (walker.behind found) (placeBehind found dagIdx) items =
      (visitItems lines range walker dagIdx items).map fun entered =>
        (entered.1.behind found, placeBehind found entered.2) := by
  induction items generalizing walker dagIdx with
  | nil => rfl
  | cons item rest ih =>
    simp only [visitItems]
    split
    · refine bind_map (map_id_eq _) fun made => ?_
      rcases made with _ | dag
      · exact ih dagIdx
      · simp only [behind_pushDag, length_behind]
        exact ih (some walker.dags.length)
    · exact ih dagIdx

/-- The walk over a block is the same behind any DAGs that were found before. -/
def Composes (lines : LineIndex) (found : List ExtractedDag) (stmts : List Stmt) : Prop :=
  ∀ (walker : Walker) (dagIdx : Option Nat),
    visitStmts lines (walker.behind found) (placeBehind found dagIdx) stmts =
    (visitStmts lines walker dagIdx stmts).map (behind found)

/-- A statement is visited alike behind DAGs that were found before, which stay as they are. -/
private theorem visitStmt_behind {stmt : Stmt} (body : Composes lines found stmt.body) (walker : Walker)
    (dagIdx : Option Nat) :
    visitStmt lines (walker.behind found) (placeBehind found dagIdx) stmt =
      (visitStmt lines walker dagIdx stmt).map (behind found) := by
  cases stmt with
  | stmtWith range items =>
    rw [visitStmt, visitStmt]
    exact bind_map (visitItems_behind range items dagIdx) fun entered =>
      bind_map (body entered.1 entered.2) fun last => rfl
  | functionDef range name decorators =>
    simp only [visitStmt]
    split
    · refine bind_map (map_id_eq _) fun dag => ?_
      rw [behind_pushDag, length_behind]
      exact bind_map (body (walker.pushDag dag) (some walker.dags.length)) fun last => rfl
    · exact bind_map (visitTaskFunction_behind name decorators dagIdx) fun middle => body middle dagIdx
  | assign targets value => exact visitAssign_behind targets value dagIdx
  | annAssign target value =>
    cases value with
    | none => rfl
    | some value => exact visitAssign_behind [target] value dagIdx
  | expr value => exact visitExprStmt_behind value dagIdx
  | other => rfl
  | classDef | stmtIf | stmtFor | stmtWhile | stmtTry => exact body walker dagIdx

private theorem composes (stmts : List Stmt) : Composes lines found stmts := by
  induction stmts using Stmt.block_induction with
  | nil => exact fun _ _ => rfl
  | cons stmt rest inner ih =>
    intro walker dagIdx
    exact bind_map (visitStmt_behind (Stmt.holds_body (fun _ _ => rfl) inner) walker dagIdx) fun middle =>
      ih middle dagIdx

private theorem visitStmts_none (visited : visitStmts lines walker none stmts = .ok after)
    (free : walker.taskAliases = []) :
    ∃ alone, List.Forall₂ (fun stmt part => visitStmt lines .new none stmt = .ok part) stmts alone ∧
      after.dags = walker.dags ++ alone.flatMap dags ∧ ∀ part ∈ alone, part.taskAliases = [] := by
  induction stmts generalizing walker with
  | nil =>
    cases visited
    exact ⟨[], .nil, (List.append_nil _).symm, by simp⟩
  | cons stmt rest ih =>
    obtain ⟨middle, first, later⟩ := bind_eq_ok.mp visited
    -- The first statement is visited as by itself, behind what was found before it.
    have apart : walker = behind walker.dags .new := by rw [behind, new, List.append_nil, ← free]
    rw [apart] at first
    have begun := first.symm.trans (visitStmt_behind (composes stmt.body) .new none)
    cases own : visitStmt lines .new none stmt with
    | error error =>
      rw [own] at begun
      cases begun
    | ok part =>
      rw [own] at begun
      cases begun
      obtain ⟨more, bound, nothing⟩ := binds_visitStmt (bindsBlock stmt.body) own
      have unbound : part.taskAliases = [] := by
        rw [bound, List.map_eq_nil_iff.mp nothing]
        rfl
      obtain ⟨alone, each, found, empty⟩ := ih later unbound
      refine ⟨part :: alone, .cons own each, ?_, List.forall_mem_cons.mpr ⟨unbound, empty⟩⟩
      rw [found, List.flatMap_cons, behind, List.append_assoc]

end Behind

end Walker

/-- The DAGs of a module are those of its statements, each taken alone, and no statement leaves a name to the
next one. -/
theorem extraction_compositional {lines : LineIndex} {module : List Stmt} {walker : Walker}
    (visited : Walker.visitStmts lines .new none module = .ok walker) : walker.taskAliases = [] ∧ ∃ alone,
      List.Forall₂ (fun stmt part => Walker.visitStmts lines .new none [stmt] = .ok part) module alone ∧
        walker.dags = alone.flatMap Walker.dags ∧ ∀ part ∈ alone, part.taskAliases = [] := by
  obtain ⟨more, bound, nothing⟩ := Walker.bindsBlock module visited
  obtain ⟨alone, each, found, empty⟩ := Walker.visitStmts_none visited rfl
  refine ⟨by rw [bound, List.map_eq_nil_iff.mp nothing]; rfl, alone, each.imp fun stmt part own => ?_, found, empty⟩
  rw [Walker.visitStmts, own]
  rfl

/-- Two DAGs in a module, each with tasks of the same names. -/
def repeatedDags : List Stmt := [withDag nestedTasks, withDag nestedTasks]

/-- Two DAGs with tasks of the same names are found as each by itself. -/
theorem extraction_compositional_two : ∃ alone, alone.length = 2 ∧ List.Forall₂
    (fun stmt part => Walker.visitStmts (.new "") .new none [stmt] = .ok part) repeatedDags alone := by
  have evaluated : (Walker.visitStmts (.new "") .new none repeatedDags).toOption.isSome = true := by
    decide +kernel
  obtain ⟨walker, visited⟩ := exists_of_isSome evaluated
  obtain ⟨_, alone, each, _⟩ := extraction_compositional visited
  exact ⟨alone, each.length_eq.symm, each⟩

end FerroProtocols.Airflow
