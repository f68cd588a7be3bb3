import FerroProtocols.Airflow.Tasks

/-! The DAGs that are found are closed: their edges are between their own tasks. -/

namespace FerroProtocols.Airflow

open Distinct Fallible Splice

/-- The statements that open a DAG within the body of another one, at any depth. -/
def nestedDags (inside : Bool) (stmts : List Stmt) : List Stmt :=
  Stmt.gather (fun inside stmt _ => some (inside || stmt.opensDag))
    (fun inside stmt => [stmt].filter fun stmt => inside && stmt.opensDag)
    inside stmts

/-- A DAG whose edges are between its own tasks, without repetitions. -/
structure ExtractedDag.IsClosed (dag : ExtractedDag) : Prop where
  tasks : dag.taskIds.Nodup
  edges : dag.depsEdges.Nodup
  within : ∀ edge ∈ dag.depsEdges, edge.1 ∈ dag.taskIds ∧ edge.2 ∈ dag.taskIds

private theorem ExtractedDag.IsBare.isClosed {dag : ExtractedDag} (bare : dag.IsBare) : dag.IsClosed := by
  obtain ⟨tasks, edges⟩ := bare
  exact ⟨by simp [tasks], by simp [edges], by simp [edges]⟩

namespace Walker

variable {lines : LineIndex} {walker after : Walker} {dagIdx : Option Nat}

section Sound

variable {place : Nat} {stmt : Stmt}

/-- All DAGs are closed, and the names that are bound stand for tasks of the DAG that the walk is in. -/
structure Sound (walker : Walker) (dagIdx : Option Nat) : Prop where
  closed : ∀ dag ∈ walker.dags, dag.IsClosed
  inside : ∀ place, dagIdx = some place →
    ∃ dag, walker.dags[place]? = some dag ∧ ∀ task ∈ walker.taskAliases.map Prod.snd, task ∈ dag.taskIds
  outside : dagIdx = none → walker.taskAliases = []

private theorem sound_found {dags : List ExtractedDag} (sound : Sound walker dagIdx)
    (bare : ∀ dag ∈ dags, dag.IsBare) :
    Sound { walker with dags := walker.dags ++ dags } dagIdx := by
  refine ⟨fun dag member => ?_, fun place here => ?_, sound.outside⟩
  · exact (List.mem_append.mp member).elim (sound.closed dag) fun new => (bare dag new).isClosed
  · obtain ⟨dag, there, own⟩ := sound.inside place here
    exact ⟨dag, (List.getElem?_append_left (List.getElem?_eq_some_iff.mp there).1).trans there, own⟩

private theorem sound_updateDag {change : ExtractedDag → ExtractedDag} (sound : Sound walker (some place))
    (closed : ∀ dag : ExtractedDag, dag.IsClosed → (∀ task ∈ walker.taskAliases.map Prod.snd, task ∈ dag.taskIds) →
      (change dag).IsClosed) (kept : ∀ dag, dag.taskIds ⊆ (change dag).taskIds) :
    Sound (walker.updateDag place change) (some place) := by
  obtain ⟨dag, there, own⟩ := sound.inside place rfl
  refine ⟨fun other member => ?_, fun here same => ?_, fun impossible => (by cases impossible)⟩
  · rcases mem_modify member with known | ⟨old, found, rfl⟩
    · exact sound.closed other known
    · cases there.symm.trans found
      exact closed dag (sound.closed dag (List.mem_of_getElem? there)) own
  · cases same
    exact ⟨change dag, by simp [updateDag, there], fun task member => kept dag (own task member)⟩

private theorem sound_pushTask {task : TaskId} (sound : Sound walker (some place)) :
    Sound (walker.pushTask place task) (some place) ∧
      ∃ dag, (walker.pushTask place task).dags[place]? = some dag ∧ task ∈ dag.taskIds := by
  have pushed {known : List TaskId} {other : TaskId} : other ∈ pushUniqueTask known task ↔ other ∈ known ∨
      other ∈ [task] :=
    @mem_pushAll _ _ known [task] other
  refine ⟨sound_updateDag sound (fun dag closed _ =>
    ⟨@nodup_pushAll _ _ _ [task] closed.tasks, closed.edges, ?_⟩) ?_, ?_⟩
  · intro edge member
    obtain ⟨first, second⟩ := closed.within edge member
    exact ⟨pushed.mpr (.inl first), pushed.mpr (.inl second)⟩
  · exact fun dag other member => pushed.mpr (.inl member)
  · obtain ⟨dag, there, _⟩ := sound.inside place rfl
    exact ⟨{ dag with taskIds := pushUniqueTask dag.taskIds task }, by simp [pushTask, updateDag, there],
      pushed.mpr (.inr (List.mem_singleton.mpr rfl))⟩

private theorem sound_step {stated name : Option String} {enters : Bool} (sound : Sound walker dagIdx)
    (step : Step walker dagIdx stated enters name after) : Sound after dagIdx := by
  cases step with
  | stays => exact sound
  | finds dag bare other => exact sound_found sound (List.forall_mem_singleton.mpr bare)
  | states plain place change inside silent grown =>
    subst inside
    refine sound_updateDag sound (fun dag closed own => ⟨closed.tasks, (grown _).nodup closed.edges, ?_⟩)
      fun dag => List.Subset.refl _
    intro edge member
    rcases (grown _).resolved edge member with known | ⟨first, second⟩
    · exact closed.within edge known
    · exact ⟨own _ first, own _ second⟩
  | task plain place value task inside made stated after named =>
    subst inside
    obtain ⟨pushed, dag, there, own⟩ := @sound_pushTask _ _ task sound
    rcases named with ⟨_, rfl⟩ | ⟨given, _, rfl⟩
    · exact pushed
    · refine ⟨pushed.closed, fun other same => ?_, fun impossible => (by cases impossible)⟩
      cases same
      obtain ⟨same, found, bound⟩ := pushed.inside place rfl
      cases there.symm.trans found
      refine ⟨dag, there, fun task member => ?_⟩
      rw [bind, List.map_append, List.mem_append] at member
      exact member.elim (bound task) fun last => List.mem_singleton.mp last ▸ own

private theorem sound_truncate (length : Nat) (sound : Sound walker dagIdx) :
    Sound (walker.truncate length) dagIdx := by
  refine ⟨sound.closed, fun place here => ?_, fun outside => ?_⟩
  · obtain ⟨dag, there, own⟩ := sound.inside place here
    exact ⟨dag, there, fun task member => own task (List.map_subset _ (List.take_subset _ _) member)⟩
  · rw [truncate, sound.outside outside, List.take_nil]

/-- Visits of a block keep the walk sound, unless a DAG is opened in another one. -/
def SoundBlock (lines : LineIndex) (stmts : List Stmt) : Prop :=
  ∀ ⦃walker after dagIdx⦄, visitStmts lines walker dagIdx stmts = .ok after → nestedDags dagIdx.isSome stmts = [] →
    Sound walker dagIdx → Sound after dagIdx

private theorem soundBlock_nil : SoundBlock lines [] := by
  intro walker after dagIdx visited apart sound
  cases visited
  exact sound

private theorem nestedDags_cons {inside : Bool} {rest : List Stmt} (apart : nestedDags inside (stmt :: rest) = []) :
    (inside = true → stmt.opensDag = false) ∧ nestedDags (inside || stmt.opensDag) stmt.body = [] ∧
      nestedDags inside rest = [] := by
  rw [nestedDags, Stmt.gather, List.append_eq_nil_iff, List.append_eq_nil_iff, Stmt.gatherBlocks_eq,
    List.flatMap_eq_nil_iff] at apart
  obtain ⟨own, blocks, later⟩ := apart
  refine ⟨fun within => ?_, ?_, later⟩
  · simpa [within] using own
  · obtain ⟨others, _, same | ⟨_, empty⟩⟩ := stmt.blocks_eq
    · exact blocks (.body, stmt.body) (by rw [same]; exact List.mem_cons_self)
    · rw [empty]
      rfl

private theorem sound_visitStmt (body : SoundBlock lines stmt.body)
    (alone : dagIdx.isSome = true → stmt.opensDag = false)
    (apart : nestedDags (dagIdx.isSome || stmt.opensDag) stmt.body = []) (sound : Sound walker dagIdx)
    (visited : visitStmt lines walker dagIdx stmt = .ok after) : Sound after dagIdx := by
  cases visit_of_ok visited with
  | plain middle after plain step ran =>
    have closed : stmt.opensDag = false := by
      cases stmt with
      | stmtWith => cases plain
      | functionDef => exact plain
      | _ => rfl
    rw [closed, Bool.or_false] at apart
    exact body ran apart (sound_step sound step)
  | block last scope closed ran =>
    rw [closed, Bool.or_false] at apart
    exact sound_truncate _ (body ran apart sound)
  | opens others dag last scope opens bare count ran =>
    rw [opens, Bool.or_true] at apart
    cases dagIdx with
    | some place => cases opens.symm.trans (alone rfl)
    | none =>
      have free := sound.outside rfl
      have begun := sound_found sound bare
      have inner : Sound { walker with dags := walker.dags ++ (others ++ [dag]) }
          (some (walker.dags.length + others.length)) := by
        refine ⟨begun.closed, fun place same => ?_, fun impossible => (by cases impossible)⟩
        cases same
        exact ⟨dag, by simp, by simp [free]⟩
      refine ⟨(body ran apart inner).closed, fun place impossible => (by cases impossible), fun _ => ?_⟩
      rw [truncate, free]
      rfl

private theorem soundBlock (stmts : List Stmt) : SoundBlock lines stmts := by
  induction stmts using Stmt.block_induction with
  | nil => exact soundBlock_nil
  | cons stmt rest inner ih =>
    intro walker after dagIdx visited apart sound
    obtain ⟨alone, within, later⟩ := nestedDags_cons apart
    obtain ⟨middle, first, visited⟩ := bind_eq_ok.mp visited
    exact ih visited later (sound_visitStmt (Stmt.holds_body soundBlock_nil inner) alone within sound first)

end Sound

end Walker

/-- If no DAG is opened in another one, the edges of every DAG are between its own tasks, and neither are
repeated. -/
theorem edges_within_dag {ruff : Ruff} {spawnError : Option String} {source : String} {module : List Stmt}
    {dags : List ExtractedDag} (parsed : ruff.parseModule source = .returned (.ok module))
    (apart : nestedDags false module = [])
    (accepted : extractAll ruff spawnError source = .ok dags) :
    ∀ dag ∈ dags, dag.taskIds.Nodup ∧ dag.depsEdges.Nodup ∧
      ∀ edge ∈ dag.depsEdges, edge.1 ∈ dag.taskIds ∧ edge.2 ∈ dag.taskIds := by
  obtain ⟨other, walker, again, visited, rfl⟩ := extractAll_ok accepted
  cases parsed.symm.trans again
  have sound := Walker.soundBlock module visited apart
    ⟨by simp [Walker.new], fun _ impossible => (by cases impossible), fun _ => rfl⟩
  intro dag member
  obtain ⟨tasks, edges, within⟩ := sound.closed dag member
  exact ⟨tasks, edges, within⟩

/-- Two tasks, the one before the other. -/
def linkedTasks : List Stmt :=
  [.assign [.name anywhere "a"] (callOf "BashOperator" [("task_id", "t")]),
    .assign [.name anywhere "b"] (callOf "BashOperator" [("task_id", "u")]),
    .expr (.binOp anywhere (.name anywhere "a") .rShift (.name anywhere "b"))]

/-- Their source. -/
def linkedText : String :=
  dagText "  a = BashOperator(task_id=\"t\")\n  b = BashOperator(task_id=\"u\")\n  a >> b\n"

/-- The edges of two DAGs with tasks of the same names stay apart. -/
theorem edges_within_dag_two : ∃ dags : List ExtractedDag, dags.map (fun dag => dag.depsEdges.length) = [1, 1] ∧
    ∀ dag ∈ dags, ∀ edge ∈ dag.depsEdges, edge.1 ∈ dag.taskIds ∧ edge.2 ∈ dag.taskIds := by
  have evaluated : (extractAll (.reading (linkedText ++ linkedText) [withDag linkedTasks, withDag linkedTasks]) none
      (linkedText ++ linkedText)).toOption.map
      (fun dags => dags.map fun dag => dag.depsEdges.length) = some [1, 1] := by
    decide +kernel
  obtain ⟨dags, accepted, counts⟩ := Option.map_eq_some_iff.mp evaluated
  refine ⟨dags, counts, fun dag member => ?_⟩
  exact (edges_within_dag (congrArg Outcome.returned (if_pos rfl)) (by decide +kernel)
    (ok_of_toOption accepted) dag member).2.2

end FerroProtocols.Airflow
