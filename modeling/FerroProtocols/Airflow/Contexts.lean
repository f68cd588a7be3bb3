import Mathlib.Algebra.Order.Ring.Nat
import FerroProtocols.Airflow.Markers
import FerroProtocols.Airflow.Tasks

/-! Where markers are emitted, and what becomes of the count of DAGs. -/

namespace FerroProtocols.Airflow

open Stmt

/-- The markers that are emitted only in a DAG. -/
def DynamicMarker.needsDag : DynamicMarker → Bool
  | .chainSplat _ _ | .unsupportedTaskFlow _ _ | .forLoopTaskGeneration _ _ => true
  | .pathStemDagId _ _ | .fStringTaskId _ _ _ | .dynamicScheduleExpr _ _ | .importTimeBranching _ _ => false

namespace Stmt

/-- A statement opens a DAG for the visitor: a `with` statement with a DAG, or a function that is decorated as
one. -/
def opensContext : Stmt → Bool
  | .stmtWith _ items _ => items.any WithItem.opensDag
  | .functionDef _ _ decorators _ _ => decorators.any fun decorator => isDagDecorator decorator.expression
  | _ => false

/-- The number of DAGs that a statement opens for the visitor. -/
def openedDags : Stmt → Nat := countDags opensContext

/-- The blocks that the visitor goes into. -/
def visitedBlocks : Stmt → List (List Stmt)
  | .stmtWith _ _ body | .functionDef _ _ _ _ body | .classDef _ _ body | .stmtFor _ _ body _ | .stmtWhile _ body _
  | .stmtTry body _ _ _ => [body]
  | .stmtIf _ body clauses => body :: clauses.map Clause.body
  | .assign _ _ | .annAssign _ _ | .expr _ | .other _ _ => []

/-- The decorators of a function. -/
def decorators : Stmt → List Decorator
  | .functionDef _ _ decorators _ _ => decorators
  | _ => []

/-- The call that a statement makes or assigns. -/
def madeCall : Stmt → Option ExprCall
  | .expr (.call call) | .assign _ (.call call) => some call
  | _ => none

/-- A marker is for a construct of a statement: a starred argument of a chain, a decorator of tasks, or an
operator that is made right in a loop. -/
def Marked (lines : LineIndex) (stmt : Stmt) : DynamicMarker → Prop
  | .chainSplat line col => ∃ expr ∈ stmt.exprs, ∃ call, Expr.Within (.call call) expr ∧
      calleeIsChainHelper call.func = true ∧
      ∃ argument ∈ call.args, isStarred argument = true ∧ lines.lineCol argument.range.start = (line, col)
  | .unsupportedTaskFlow line col => ∃ decorator ∈ stmt.decorators, ∃ call, decorator.expression = .call call ∧
      isTaskDecoratorCall call = true ∧ lines.lineCol call.range.start = (line, col)
  | .forLoopTaskGeneration line col => ∃ target iter body orelse, stmt = .stmtFor target iter body orelse ∧
      ∃ inner ∈ body, ∃ call, inner.madeCall = some call ∧ isOperatorConstructor call.func = true ∧
        lines.lineCol call.range.start = (line, col)
  | _ => True

end Stmt

/-- A statement that opens a DAG, or that lies in a block of one. -/
def contextSite (inside : Bool) (stmt : Stmt) : List Stmt := if inside || stmt.opensContext then [stmt] else []

/-- The statements of a block, at any depth, that open a DAG or lie in one. -/
def contextStmts (inside : Bool) (stmts : List Stmt) : List Stmt :=
  Stmt.gather (fun inside stmt _ => some (inside || stmt.opensContext)) contextSite inside stmts

/-- The statements that the visitor gets to: those in first blocks and in the branches of an `if`. -/
def visitedStmts (stmts : List Stmt) : List Stmt :=
  Stmt.gather (fun _ _ kind => if kind = .body ∨ kind = .elifElse then some () else none)
    (fun _ stmt => [stmt]) () stmts

/-- No statement that the visitor gets to has several DAGs. -/
def SingleDags (stmts : List Stmt) : Prop := ∀ stmt ∈ visitedStmts stmts, stmt.openedDags ≤ 1

/-- The DAGs beyond the first one of all statements that the visitor gets to. -/
def excess (stmts : List Stmt) : Nat := ((visitedStmts stmts).map fun stmt => stmt.openedDags - 1).sum

/-- An expression that lies within a part of another one lies within it. -/
theorem Expr.Within.trans {inner middle outer : Expr} (first : Expr.Within inner middle)
    (second : Expr.Within middle outer) :
    Expr.Within inner outer := by
  -- Induction on how far the middle lies below the outer expression.
  induction second with
  | itself => exact first
  | part among _ ih => exact .part among ih

namespace MarkerVisitor

variable {lines : LineIndex} {places : List Stmt} {before middle after visitor : MarkerVisitor} {stmt : Stmt}

/-- All markers that have come are for constructs of some statements, or may be anywhere. -/
def Finds (lines : LineIndex) (places : List Stmt) (before after : MarkerVisitor) : Prop :=
  ∀ marker ∈ after.markers, marker ∈ before.markers ∨ marker.needsDag = false ∨
    ∃ stmt ∈ places, stmt.Marked lines marker

/-- Markers have come, and the visitor is in as many DAGs as before. -/
structure Emits (lines : LineIndex) (places : List Stmt) (before after : MarkerVisitor) : Prop where
  ctx : after.inDagCtx = before.inDagCtx
  finds : Finds lines places before after

/-- Nothing has come. -/
theorem Finds.refl : Finds lines places visitor visitor := fun _ member => .inl member

/-- What has come one after the other. -/
theorem Finds.trans (first : Finds lines places before middle) (second : Finds lines places middle after) :
    Finds lines places before after := by
  intro marker member
  rcases second marker member with earlier | rest
  · exact first marker earlier
  · exact .inr rest

/-- Constructs of some statements are constructs of more statements. -/
theorem Finds.mono {more : List Stmt} (subset : ∀ stmt ∈ places, stmt ∈ more)
    (finds : Finds lines places before after) :
    Finds lines more before after := by
  intro marker member
  rcases finds marker member with earlier | anywhere | ⟨stmt, among, marked⟩
  · exact .inl earlier
  · exact .inr (.inl anywhere)
  · grind

/-- Nothing has come. -/
theorem Emits.refl : Emits lines places visitor visitor := ⟨rfl, .refl⟩

/-- What has come one after the other. -/
theorem Emits.trans (first : Emits lines places before middle) (second : Emits lines places middle after) :
    Emits lines places before after := ⟨second.ctx.trans first.ctx, first.finds.trans second.finds⟩

/-- What comes with each step of a fold comes with the fold. -/
theorem Emits.foldl {α : Type} {step : MarkerVisitor → α → MarkerVisitor} {items : List α}
    (each : ∀ item ∈ items, ∀ current : MarkerVisitor, current.inDagCtx = visitor.inDagCtx →
      Emits lines places current (step current item)) :
    Emits lines places visitor (items.foldl step visitor) := by
  -- The number of DAGs stays the same from step to step.
  induction items generalizing visitor with
  | nil => exact .refl
  | cons item rest ih =>
    have first := each item List.mem_cons_self visitor rfl
    refine first.trans (ih fun other member current same => ?_)
    exact each other (List.mem_cons_of_mem item member) current (same.trans first.ctx)

private theorem emits_push {marker : Nat → Nat → DynamicMarker} {range : TextRange}
    (allowed : (marker (lines.lineCol range.start).1 (lines.lineCol range.start).2).needsDag = false ∨
      ∃ stmt ∈ places, stmt.Marked lines (marker (lines.lineCol range.start).1 (lines.lineCol range.start).2)) :
    Emits lines places visitor (visitor.push lines marker range) := by
  refine ⟨rfl, fun found member => ?_⟩
  rcases List.mem_append.mp member with earlier | new
  · exact .inl earlier
  · grind

section Expressions

private theorem emits_flagFString (keyword : Keyword) :
    Emits lines places visitor (flagFString lines visitor keyword) := by
  unfold flagFString
  split
  · split
    · exact emits_push (.inl rfl)
    · exact .refl
  · exact .refl

private theorem emits_flagChain {call : ExprCall} {expr : Expr} (live : 0 < visitor.inDagCtx → stmt ∈ places)
    (own : expr ∈ stmt.exprs) (within : Expr.Within (.call call) expr) :
    Emits lines places visitor (visitor.flagChain lines call.func call.args) := by
  unfold flagChain
  split
  · rename_i flagged
    split
    · rename_i argument found
      refine emits_push (.inr ⟨stmt, live flagged.1, expr, own, call, within, flagged.2, argument, ?_, ?_, rfl⟩)
      · grind
      · exact List.find?_some found
    · exact .refl
  · exact .refl

/-- The arguments of a call are visited one after the other. -/
theorem visitArgs_eq (visitor : MarkerVisitor) (args : List Expr) :
    visitArgs lines visitor args = args.foldl (visitExpr lines) visitor := by
  induction args generalizing visitor with
  | nil => rfl
  | cons argument rest ih => rw [visitArgs, ih, List.foldl_cons]

/-- So are the values of its keywords. -/
theorem visitKeywords_eq (visitor : MarkerVisitor) (keywords : List Keyword) :
    visitKeywords lines visitor keywords = (keywords.map Keyword.value).foldl (visitExpr lines) visitor := by
  induction keywords generalizing visitor with
  | nil => rfl
  | cons keyword rest ih =>
    obtain ⟨arg, value⟩ := keyword
    rw [visitKeywords, ih, List.map_cons, List.foldl_cons]

private theorem emits_visitExpr {expr outer : Expr} (live : 0 < visitor.inDagCtx → stmt ∈ places)
    (own : outer ∈ stmt.exprs)
    (within : Expr.Within expr outer) : Emits lines places visitor (visitExpr lines visitor expr) := by
  -- The arguments of a call lie within the same expression of the statement.
  induction expr using Expr.call_induction generalizing visitor with
  | leaf expr other =>
    cases expr with
    | call call => exact absurd rfl (other call)
    | _ => exact .refl
  | call call inner =>
    obtain ⟨range, func, args, keywords⟩ := call
    have chain := @emits_flagChain lines places visitor stmt _ outer live own within
    have flagged : Emits lines places (visitor.flagChain lines func args)
        (keywords.foldl (flagFString lines) (visitor.flagChain lines func args)) :=
      Emits.foldl fun keyword _ current _ => emits_flagFString keyword
    have start := chain.trans flagged
    rw [visitExpr, visitCall, visitArgs_eq, visitKeywords_eq, ← List.foldl_append]
    refine start.trans (Emits.foldl fun argument member current same => ?_)
    refine inner argument member (fun positive => live ?_) ?_
    · rw [same, start.ctx] at positive
      exact positive
    · exact (Expr.Within.part (Expr.mem_parts_of_argument member) (.itself argument)).trans within

end Expressions

section Statements

private theorem emits_foldl_visitExpr {exprs : List Expr} (live : 0 < visitor.inDagCtx → stmt ∈ places)
    (own : ∀ expr ∈ exprs, expr ∈ stmt.exprs) : Emits lines places visitor (exprs.foldl (visitExpr lines) visitor) :=
  Emits.foldl fun expr member _ same => emits_visitExpr (fun positive => live (same ▸ positive)) (own expr member)
    (.itself expr)

private theorem emits_scanDagKwargs (call : ExprCall) :
    Emits lines places visitor (visitor.scanDagKwargs lines call) := by
  refine Emits.foldl fun keyword _ current _ => ?_
  unfold scanDagKwarg
  split
  · exact .refl
  · split
    · split
      · exact .refl
      · exact emits_push (.inl rfl)
    · split
      · exact emits_push (.inl rfl)
      · exact .refl

private theorem emits_flagBranchingInBody (body : List Stmt) :
    Emits lines places visitor (flagBranchingInBody lines visitor body) := by
  refine Emits.foldl fun inner _ current _ => ?_
  unfold flagBranchingStmt
  split
  · refine Emits.foldl fun item _ current _ => ?_
    unfold flagBranchingItem
    split
    · split
      · exact emits_push (.inl rfl)
      · exact .refl
    · exact .refl
  · exact .refl

private theorem emits_flagBranches (test : Expr) (body : List Stmt) (clauses : List Clause) :
    Emits lines places visitor (visitor.flagBranches lines test body clauses) := by
  unfold flagBranches
  split
  · exact .refl
  · exact (emits_flagBranchingInBody body).trans
      (Emits.foldl fun clause _ current _ => emits_flagBranchingInBody clause.body)

private theorem emits_flagForLoopBody {target iter : Expr} {body orelse : List Stmt}
    (live : 0 < visitor.inDagCtx → .stmtFor target iter body orelse ∈ places) :
    Emits lines places visitor (visitor.flagForLoopBody lines body) := by
  unfold flagForLoopBody
  split
  · exact .refl
  · rename_i positive
    refine Emits.foldl fun inner member current _ => ?_
    have made {call : ExprCall} (made : inner.madeCall = some call) :
        Emits lines places current (if isOperatorConstructor call.func then
          current.push lines .forLoopTaskGeneration call.range else current) := by
      split
      · rename_i operator
        exact emits_push (.inr ⟨_, live (Nat.pos_of_ne_zero positive), target, iter, body, orelse, rfl,
          inner, member, call, made,
          operator, rfl⟩)
      · exact .refl
    unfold flagForStmt
    split
    · exact made rfl
    · exact made rfl
    · exact .refl

private theorem emits_visitDecoratorList {range : TextRange} {name : String} {decorators : List Decorator}
    {signature : List Expr}
    {body : List Stmt} (live : 0 < visitor.inDagCtx → .functionDef range name decorators signature body ∈ places) :
    Emits lines places visitor (visitor.visitDecoratorList lines decorators) := by
  refine Emits.foldl fun decorator member current same => ?_
  have own : decorator.expression ∈ (Stmt.functionDef range name decorators signature body).exprs :=
    List.mem_append_left _ (List.mem_map_of_mem member)
  have visited : Emits lines places current (visitExpr lines current decorator.expression) :=
    emits_visitExpr (fun positive => live (same ▸ positive)) own (.itself _)
  unfold visitDecorator
  simp only
  split
  · exact visited
  · rename_i positive
    split
    · rename_i call expr
      split
      · rename_i dynamic
        refine visited.trans (emits_push (.inr ⟨_, live ?_, decorator, member, call, expr, ?_, rfl⟩))
        · rw [visited.ctx, same] at positive
          exact Nat.pos_of_ne_zero positive
        · grind
      · exact visited
    · exact visited

private theorem enterItem_spec {range : TextRange} {items : List WithItem} {body : List Stmt} {item : WithItem}
    (member : item ∈ items)
    (live : 0 < visitor.inDagCtx → .stmtWith range items body ∈ places) :
    (enterItem lines visitor item).inDagCtx = visitor.inDagCtx + (if item.opensDag then 1 else 0) ∧
      Finds lines places visitor (enterItem lines visitor item) := by
  by_cases called : ∃ call, item.contextExpr = .call call
  · obtain ⟨call, expr⟩ := called
    simp only [enterItem, WithItem.opensDag, expr]
    split
    · have scanned := @emits_scanDagKwargs lines places visitor.enter call
      exact ⟨scanned.ctx, scanned.finds⟩
    · -- The arguments lie within the expression of the item.
      have own : item.contextExpr ∈ (Stmt.stmtWith range items body).exprs :=
        List.mem_flatMap.mpr ⟨item, member, List.mem_cons_self⟩
      have visited : Emits lines places visitor (visitor.visitCallArgs lines call) := by
        rw [visitCallArgs, visitArgs_eq, visitKeywords_eq, ← List.foldl_append]
        refine Emits.foldl fun argument among current same => ?_
        refine emits_visitExpr (fun positive => live (same ▸ positive)) own (.part ?_ (.itself argument))
        rw [expr]
        exact Expr.mem_parts_of_argument among
      exact ⟨visited.ctx, visited.finds⟩
  · -- What is not a call is passed over.
    have stays : enterItem lines visitor item = visitor := by
      unfold enterItem
      split
      · grind
      · rfl
    have closed : item.opensDag = false := by
      unfold WithItem.opensDag
      split
      · grind
      · rfl
    rw [stays, closed]
    exact ⟨rfl, .refl⟩

private theorem enterWith_spec {range : TextRange} {items : List WithItem} {body : List Stmt}
    (live : 0 < visitor.inDagCtx ∨ items.any WithItem.opensDag = true → .stmtWith range items body ∈ places) :
    (visitor.enterWith lines items).inDagCtx = visitor.inDagCtx + items.countP WithItem.opensDag ∧
      Finds lines places visitor (visitor.enterWith lines items) := by
  -- Induction on the items that are still to be entered, each of them one of the statement.
  have entered (rest : List WithItem) : ∀ current : MarkerVisitor, (∀ item ∈ rest, item ∈ items) →
      (0 < current.inDagCtx → .stmtWith range items body ∈ places) →
      (rest.foldl (enterItem lines) current).inDagCtx = current.inDagCtx + rest.countP WithItem.opensDag ∧
        Finds lines places current (rest.foldl (enterItem lines) current) := by
    induction rest with
    | nil => exact fun current _ _ => ⟨rfl, .refl⟩
    | cons item rest ih =>
      intro current own live'
      obtain ⟨ctx, finds⟩ :=
        @enterItem_spec lines places current range items body item (own item List.mem_cons_self) live'
      have next : 0 < (enterItem lines current item).inDagCtx → .stmtWith range items body ∈ places := by
        intro positive
        cases opens : item.opensDag with
        | true => exact live (.inr (List.any_eq_true.mpr ⟨item, own item List.mem_cons_self, opens⟩))
        | false => grind
      obtain ⟨total, later⟩ := ih (enterItem lines current item)
        (fun other member => own other (List.mem_cons_of_mem item member)) next
      refine ⟨?_, finds.trans later⟩
      rw [List.foldl_cons, total, ctx, List.countP_cons]
      omega
  exact entered items visitor (fun _ member => member) fun positive => live (.inl positive)

end Statements

/-- What the visitor does at a statement before it goes into its blocks. -/
def head (lines : LineIndex) (visitor : MarkerVisitor) : Stmt → MarkerVisitor
  | .stmtWith _ items _ => visitor.enterWith lines items
  | .functionDef _ _ decorators _ _ =>
    (if decorators.any fun decorator => isDagDecorator decorator.expression then visitor.enter
      else visitor).visitDecoratorList
      lines decorators
  | .assign targets value => (value :: targets).foldl (visitExpr lines) visitor
  | .annAssign target (some value) => [target, value].foldl (visitExpr lines) visitor
  | .expr value => visitExpr lines visitor value
  | .stmtIf test body clauses => visitExpr lines (visitor.flagBranches lines test body clauses) test
  | .stmtFor _ iter body _ => visitExpr lines (visitor.flagForLoopBody lines body) iter
  | .stmtWhile test _ _ => visitExpr lines visitor test
  | .stmtTry _ _ _ _ | .classDef _ _ _ | .annAssign _ none | .other _ _ => visitor

private theorem visitClauses_eq (visitor : MarkerVisitor) (clauses : List Clause) :
    visitClauses lines visitor clauses = (clauses.map Clause.body).foldl (visitStmts lines) visitor := by
  induction clauses generalizing visitor with
  | nil => rfl
  | cons clause rest ih =>
    obtain ⟨test, body⟩ := clause
    rw [visitClauses, ih, List.map_cons, List.foldl_cons]

/-- A statement is visited at its head and then in its blocks; if it opens a context, one is left. -/
theorem visitStmt_eq (visitor : MarkerVisitor) (stmt : Stmt) : visitStmt lines visitor stmt =
    if stmt.opensContext then (stmt.visitedBlocks.foldl (visitStmts lines) (head lines visitor stmt)).leave
    else stmt.visitedBlocks.foldl (visitStmts lines) (head lines visitor stmt) := by
  cases stmt with
  | functionDef range name decorators signature body =>
    simp only [visitStmt, head, Stmt.opensContext, Stmt.visitedBlocks]
    split <;> rfl
  | stmtIf test body clauses => exact visitClauses_eq _ clauses
  | annAssign target value => cases value <;> rfl
  | _ => rfl

/-- A statement that opens a context opens a DAG, and conversely. -/
theorem openedDags_pos_iff (stmt : Stmt) : 0 < stmt.openedDags ↔ stmt.opensContext = true := by
  cases stmt with
  | stmtWith range items body =>
    rw [Stmt.openedDags, Stmt.countDags, List.countP_pos_iff, Stmt.opensContext, List.any_eq_true]
  | _ =>
    simp only [Stmt.openedDags, Stmt.countDags]
    split <;> simp [*]

private theorem Emits.head_spec (same : stmt.openedDags = 0)
    (emits : Emits lines places visitor (head lines visitor stmt)) :
    (head lines visitor stmt).inDagCtx = visitor.inDagCtx + stmt.openedDags ∧
      Finds lines places visitor (head lines visitor stmt) := ⟨by rw [same, emits.ctx, Nat.add_zero], emits.finds⟩

/-- The head of a statement enters its DAGs, and flags constructs of the statement only. -/
theorem head_spec (live : 0 < visitor.inDagCtx ∨ stmt.opensContext = true → stmt ∈ places) :
    (head lines visitor stmt).inDagCtx = visitor.inDagCtx + stmt.openedDags ∧
      Finds lines places visitor (head lines visitor stmt) := by
  have inside := fun positive => live (.inl positive)
  cases stmt with
  | stmtWith range items body => exact enterWith_spec live
  | functionDef range name decorators signature body =>
    -- A DAG is entered before its decorators are visited.
    have visited (current : MarkerVisitor) (current_live : 0 < current.inDagCtx → _) :=
      @emits_visitDecoratorList lines places current range name decorators signature body current_live
    simp only [head, Stmt.openedDags, Stmt.countDags]
    by_cases opens : (Stmt.functionDef range name decorators signature body).opensContext = true
    · have entered := visited visitor.enter fun _ => live (.inr opens)
      rw [if_pos opens, if_pos (show decorators.any _ = true from opens)]
      exact ⟨entered.ctx, entered.finds⟩
    · have passed := visited visitor inside
      rw [if_neg opens, if_neg (show ¬ decorators.any _ = true from opens)]
      exact ⟨passed.ctx, passed.finds⟩
  | assign targets value =>
    exact (@emits_foldl_visitExpr lines places visitor _ (value :: targets) inside fun _ member =>
      member).head_spec rfl
  | annAssign target value =>
    cases value with
    | none => exact Emits.refl.head_spec rfl
    | some value =>
      exact (@emits_foldl_visitExpr lines places visitor _ [target, value] inside fun _ member =>
        member).head_spec rfl
  | expr value => exact (emits_visitExpr inside List.mem_cons_self (.itself value)).head_spec rfl
  | stmtIf test body clauses =>
    have flagged := @emits_flagBranches lines places visitor test body clauses
    refine (flagged.trans ?_).head_spec rfl
    exact emits_visitExpr (fun positive => inside (flagged.ctx ▸ positive)) List.mem_cons_self (.itself test)
  | stmtFor target iter body orelse =>
    have flagged := @emits_flagForLoopBody lines places visitor target iter body orelse inside
    refine (flagged.trans ?_).head_spec rfl
    exact emits_visitExpr (fun positive => inside (flagged.ctx ▸ positive))
      (List.mem_cons_of_mem _ List.mem_cons_self)
      (.itself iter)
  | stmtWhile test body orelse => exact (emits_visitExpr inside List.mem_cons_self (.itself test)).head_spec rfl
  | stmtTry | classDef | other => exact Emits.refl.head_spec rfl

end MarkerVisitor

section Blocks

variable {lines : LineIndex}

/-- Of the blocks of a statement its body and its branches are visited. -/
theorem Stmt.visitedBlocks_eq (stmt : Stmt) : stmt.visitedBlocks =
    (stmt.blocks.filter fun block => block.1 = .body ∨ block.1 = .elifElse).map Prod.snd := by
  cases stmt with
  | stmtIf | stmtTry => simp [Stmt.visitedBlocks, Stmt.blocks, List.filter_map, Function.comp_def]
  | other exprs cases => simp [Stmt.visitedBlocks, Stmt.blocks]
  | _ => rfl

private theorem Stmt.mem_blocks_of_visited {stmt : Stmt} {block : List Stmt} (member : block ∈ stmt.visitedBlocks) :
    ∃ kind, (kind, block) ∈ stmt.blocks := by
  rw [visitedBlocks_eq] at member
  obtain ⟨⟨kind, inner⟩, among, same⟩ := List.mem_map.mp member
  cases same
  exact ⟨kind, (List.mem_filter.mp among).1⟩

/-- What holds of all blocks holds of those that are visited. -/
theorem Stmt.forall_visitedBlocks {holds : List Stmt → Prop} {stmt : Stmt}
    (inner : ∀ block ∈ stmt.blocks, holds block.2) :
    ∀ block ∈ stmt.visitedBlocks, holds block := by
  intro block member
  obtain ⟨kind, among⟩ := mem_blocks_of_visited member
  exact inner (kind, block) among

private theorem visitedStmts_cons (stmt : Stmt) (rest : List Stmt) :
    visitedStmts (stmt :: rest) = stmt :: (stmt.visitedBlocks.flatMap visitedStmts ++ visitedStmts rest) := by
  rw [visitedBlocks_eq, visitedStmts, Stmt.gather, gatherBlocks_eq, List.singleton_append]
  congr 2
  -- A block that is left out gives nothing.
  induction stmt.blocks with
  | nil => rfl
  | cons block blocks ih =>
    rw [List.flatMap_cons, ih, List.filter_cons]
    by_cases into : block.1 = .body ∨ block.1 = .elifElse
    · simp [into, visitedStmts]
    · simp [into]

private theorem contextStmts_cons (inside : Bool) (stmt : Stmt) (rest : List Stmt) :
    contextStmts inside (stmt :: rest) =
    contextSite inside stmt ++ ((stmt.blocks.flatMap fun block =>
      contextStmts (inside || stmt.opensContext) block.2) ++
      contextStmts inside rest) := by
  unfold contextStmts
  rw [Stmt.gather, gatherBlocks_eq]
  rfl

private theorem singleDags_cons {stmt : Stmt} {rest : List Stmt} : SingleDags (stmt :: rest) ↔
    stmt.openedDags ≤ 1 ∧ (∀ block ∈ stmt.visitedBlocks, SingleDags block) ∧ SingleDags rest := by
  grind [SingleDags, visitedStmts_cons]

private theorem excess_cons (stmt : Stmt) (rest : List Stmt) :
    excess (stmt :: rest) = (stmt.openedDags - 1) + ((stmt.visitedBlocks.map excess).sum + excess rest) := by
  have inner : ((stmt.visitedBlocks.flatMap visitedStmts).map fun stmt => stmt.openedDags - 1).sum =
      (stmt.visitedBlocks.map excess).sum := by
    rw [List.map_flatMap, List.flatMap_def, List.sum_flatten, List.map_map]
    rfl
  rw [excess, visitedStmts_cons, List.map_cons, List.sum_cons, List.map_append, List.sum_append_nat, inner]
  rfl

private theorem excess_eq_zero_iff (stmts : List Stmt) : excess stmts = 0 ↔ SingleDags stmts := by
  rw [excess, List.sum_eq_zero_iff_forall_eq_nat, List.forall_mem_map]
  exact forall₂_congr fun stmt _ => Nat.sub_eq_zero_iff_le

namespace MarkerVisitor

/-- The visitor adds the DAGs beyond the first ones to its count, for every block. -/
def Counts (lines : LineIndex) (stmts : List Stmt) : Prop :=
  ∀ visitor : MarkerVisitor, (visitStmts lines visitor stmts).inDagCtx = visitor.inDagCtx + excess stmts

/-- From a block on with single DAGs the visitor flags only what opens a DAG or lies in one. -/
def Confines (lines : LineIndex) (stmts : List Stmt) : Prop :=
  SingleDags stmts → ∀ (visitor : MarkerVisitor) (inside : Bool), (0 < visitor.inDagCtx → inside = true) →
    Finds lines (contextStmts inside stmts) visitor (visitStmts lines visitor stmts)

private theorem inDagCtx_foldl {blocks : List (List Stmt)} (inner : ∀ block ∈ blocks, Counts lines block)
    (visitor : MarkerVisitor) :
    (blocks.foldl (visitStmts lines) visitor).inDagCtx = visitor.inDagCtx + (blocks.map excess).sum := by
  induction blocks generalizing visitor with
  | nil => rfl
  | cons block rest ih =>
    rw [List.foldl_cons, ih fun other member => inner other (List.mem_cons_of_mem block member),
      inner block List.mem_cons_self, List.map_cons, List.sum_cons, Nat.add_assoc]

private theorem inDagCtx_visitStmt {stmt : Stmt} (inner : ∀ block ∈ stmt.visitedBlocks, Counts lines block)
    (visitor : MarkerVisitor) : (visitStmt lines visitor stmt).inDagCtx =
      visitor.inDagCtx + ((stmt.openedDags - 1) + (stmt.visitedBlocks.map excess).sum) := by
  have opened := (@head_spec lines [stmt] visitor stmt fun _ => List.mem_cons_self).1
  have total := inDagCtx_foldl inner (head lines visitor stmt)
  have positive := openedDags_pos_iff stmt
  rw [visitStmt_eq]
  split
  · rename_i opens
    have := positive.mpr opens
    show (stmt.visitedBlocks.foldl (visitStmts lines) (head lines visitor stmt)).inDagCtx - 1 = _
    omega
  · rename_i closed
    have : ¬ 0 < stmt.openedDags := fun opens => closed (positive.mp opens)
    omega

/-- The visitor is off by the DAGs beyond the first ones. -/
theorem counts (stmts : List Stmt) : Counts lines stmts := by
  -- Induction on the block: what its statements' blocks add, then what the statements add.
  induction stmts using block_induction with
  | nil => exact fun visitor => rfl
  | cons stmt rest inner ih =>
    intro visitor
    rw [visitStmts, ih, inDagCtx_visitStmt (forall_visitedBlocks inner), excess_cons, Nat.add_assoc, Nat.add_assoc]

private theorem finds_foldl {places : List Stmt} {inside : Bool} {blocks : List (List Stmt)}
    (inner : ∀ block ∈ blocks, Confines lines block) (single : ∀ block ∈ blocks, SingleDags block)
    (among : ∀ block ∈ blocks, ∀ stmt ∈ contextStmts inside block, stmt ∈ places) (visitor : MarkerVisitor)
    (live : 0 < visitor.inDagCtx → inside = true) :
    Finds lines places visitor (blocks.foldl (visitStmts lines) visitor) := by
  induction blocks generalizing visitor with
  | nil => exact .refl
  | cons block rest ih =>
    have first := inner block List.mem_cons_self (single block List.mem_cons_self) visitor inside live
    refine (first.mono (among block List.mem_cons_self)).trans ?_
    refine ih (fun other member => inner other (List.mem_cons_of_mem block member))
      (fun other member => single other (List.mem_cons_of_mem block member))
      (fun other member => among other (List.mem_cons_of_mem block member)) _ ?_
    -- A block of single DAGs is left with the count it was entered with.
    rw [counts block visitor, (excess_eq_zero_iff block).mpr (single block List.mem_cons_self)]
    exact live

private theorem finds_visitStmt {stmt : Stmt} {rest : List Stmt}
    (inner : ∀ block ∈ stmt.blocks, Confines lines block.2)
    (single : ∀ block ∈ stmt.visitedBlocks, SingleDags block) (visitor : MarkerVisitor) (inside : Bool)
    (live : 0 < visitor.inDagCtx → inside = true) :
    Finds lines (contextStmts inside (stmt :: rest)) visitor (visitStmt lines visitor stmt) := by
  have here : 0 < visitor.inDagCtx ∨ stmt.opensContext = true → stmt ∈ contextStmts inside (stmt :: rest) := by
    intro opens
    have now : (inside || stmt.opensContext) = true := Bool.or_eq_true_iff.mpr (opens.imp_left live)
    rw [contextStmts_cons, contextSite, if_pos now]
    exact List.mem_cons_self
  obtain ⟨opened, first⟩ := @head_spec lines _ visitor stmt here
  have within : ∀ block ∈ stmt.visitedBlocks, ∀ deeper ∈ contextStmts (inside || stmt.opensContext) block,
      deeper ∈ contextStmts inside (stmt :: rest) := by
    intro block member deeper among
    rw [contextStmts_cons]
    obtain ⟨kind, own⟩ := mem_blocks_of_visited member
    exact List.mem_append_right _ (List.mem_append_left _ (List.mem_flatMap.mpr ⟨(kind, block), own, among⟩))
  have later := finds_foldl (forall_visitedBlocks inner) single within (head lines visitor stmt) (by
    intro positive
    rw [opened, Nat.add_pos_iff_pos_or_pos, openedDags_pos_iff] at positive
    exact Bool.or_eq_true_iff.mpr (positive.imp_left live))
  rw [visitStmt_eq]
  split <;> exact first.trans later

private theorem confines (stmts : List Stmt) : Confines lines stmts := by
  induction stmts using block_induction with
  | nil => exact fun _ visitor _ _ => .refl
  | cons stmt rest inner ih =>
    intro single visitor inside live
    obtain ⟨own, blocks, others⟩ := singleDags_cons.mp single
    rw [visitStmts]
    refine (finds_visitStmt inner blocks visitor inside live).trans (Finds.mono ?_ (ih others _ inside ?_))
    · intro deeper among
      rw [contextStmts_cons]
      exact List.mem_append_right _ (List.mem_append_right _ among)
    · -- The statement has at most one DAG, which it takes away again.
      have none : (stmt.visitedBlocks.map excess).sum = 0 :=
        List.sum_eq_zero_iff_forall_eq_nat.mpr (List.forall_mem_map.mpr fun block member =>
          (excess_eq_zero_iff block).mpr (blocks block member))
      rw [inDagCtx_visitStmt fun block _ => counts block, none, Nat.sub_eq_zero_of_le own]
      exact live

end MarkerVisitor

end Blocks

section Runs

/-- The patterns that need a DAG are flagged in DAGs only, as long as no statement that is visited has several
DAGs; and a visit of a block leaves the count as it was exactly if none of its statements that are visited has
several. -/
theorem markers_confined {ruff : Ruff} {spawnError : Option String} {source : String} {markers : List DynamicMarker}
    (accepted : detectDynamicMarkers ruff spawnError source = .ok markers) :
    ∃ module, ruff.parseModule source = .returned (.ok module) ∧
      (SingleDags module → ∀ marker ∈ markers, marker.needsDag = true →
        ∃ stmt ∈ contextStmts false module, stmt.Marked (.new source) marker) ∧
      ∀ (stmts : List Stmt) (visitor : MarkerVisitor),
        (visitor.visitStmts (.new source) stmts).inDagCtx = visitor.inDagCtx ↔ SingleDags stmts := by
  obtain ⟨module, parsed, visited⟩ := detectDynamicMarkers_ok accepted
  refine ⟨module, parsed, fun single marker member needs => ?_, fun stmts visitor => ?_⟩
  · -- A visit starts outside of all DAGs and with no markers.
    rw [visited] at member
    have finds := @MarkerVisitor.confines (.new source) module single .new false fun positive =>
      absurd positive (Nat.lt_irrefl 0)
    rcases finds marker member with before | anywhere | found
    · cases before
    · grind
    · exact found
  · rw [MarkerVisitor.counts stmts visitor, Nat.add_eq_left, excess_eq_zero_iff]

/-- An operator that is made in a loop in a DAG, and a chain of tasks after it. -/
def loopInDag : List Stmt :=
  [withDag [.stmtFor (.name anywhere "x") (.name anywhere "xs")
    [.expr (callOf "BashOperator" [("task_id", "t")])] []],
    .expr (.call ⟨anywhere, .name anywhere "chain", [.starred anywhere (.name anywhere "xs")], []⟩)]

/-- Their source. -/
def loopText : String := dagText "  for x in xs: BashOperator(task_id=\"t\")\nchain(*xs)\n"

/-- Only the operator is flagged, and it is one of the DAG. -/
theorem markers_confined_loop :
    ∃ markers, detectDynamicMarkers (.reading loopText loopInDag) none loopText = .ok markers ∧ markers.length = 1 ∧
      ∀ marker ∈ markers, marker.needsDag = true ∧ ∃ stmt ∈ contextStmts false loopInDag,
        stmt.Marked (.new loopText) marker := by
  have evaluated : ((detectDynamicMarkers (.reading loopText loopInDag) none loopText).toOption =
    some [.forLoopTaskGeneration 1 1]) ∧
      ∀ stmt ∈ visitedStmts loopInDag, stmt.openedDags ≤ 1 := by
    decide +kernel
  obtain ⟨found, single⟩ := evaluated
  have accepted := Fallible.ok_of_toOption found
  obtain ⟨module, parsed, confined, _⟩ := markers_confined accepted
  cases parsed
  refine ⟨_, accepted, rfl, fun marker member => ⟨?_, ?_⟩⟩
  · rw [List.mem_singleton.mp member]
    rfl
  · refine confined single marker member ?_
    rw [List.mem_singleton.mp member]
    rfl

/-- A call of a DAG without arguments, in a `with` statement. -/
def bareDag (range : TextRange) : WithItem := ⟨.call ⟨range, .name range "DAG", [], []⟩, none⟩

/-- The source of two DAGs in one statement, and of a chain of tasks after it. -/
def twoDagsSource : String := "with DAG(), DAG(): pass\nchain(*xs)"

/-- Two DAGs in one statement, and a chain of tasks after it. -/
def twoDags : List Stmt :=
  [.stmtWith ⟨0, 23⟩ [bareDag ⟨5, 10⟩, bareDag ⟨12, 17⟩] [.other [] []],
    .expr (.call ⟨⟨24, 34⟩, .name ⟨24, 29⟩ "chain", [.starred ⟨30, 33⟩ (.name ⟨31, 33⟩ "xs")], []⟩)]

private theorem calleeIsChainHelper_of_within_bareDag {range : TextRange} {call : ExprCall}
    (within : Expr.Within (.call call) (bareDag range).contextExpr) : calleeIsChainHelper call.func = false := by
  cases within with
  | itself => rfl
  | part among inner =>
    cases List.mem_singleton.mp among
    cases inner with
    | part among _ => cases among

/-- After two DAGs in one statement the visitor takes itself to be in a DAG: it flags a chain outside of all DAGs. -/
theorem chain_outside_flagged :
    (detectDynamicMarkers (.reading twoDagsSource twoDags) none twoDagsSource).toOption = some [.chainSplat 2 7] ∧
      (∀ stmt ∈ contextStmts false twoDags, ¬ stmt.Marked (.new twoDagsSource) (.chainSplat 2 7)) ∧
      (MarkerVisitor.new.visitStmts (.new twoDagsSource) twoDags).inDagCtx = 1 := by
  refine ⟨by decide +kernel, ?_, by decide +kernel⟩
  intro stmt member marked
  -- Only the `with` statement and its body are in a DAG; neither has a chain.
  have context : contextStmts false twoDags =
      [.stmtWith ⟨0, 23⟩ [bareDag ⟨5, 10⟩, bareDag ⟨12, 17⟩] [.other [] []], .other [] []] := rfl
  rw [context, List.mem_cons, List.mem_singleton] at member
  obtain ⟨expr, own, call, within, helper, _⟩ := marked
  obtain ⟨range, rfl⟩ : ∃ range, expr = (bareDag range).contextExpr := by
    rcases member with rfl | rfl
    · rcases List.mem_cons.mp own with rfl | second
      · exact ⟨_, rfl⟩
      · exact ⟨_, List.mem_singleton.mp second⟩
    · cases own
  rw [calleeIsChainHelper_of_within_bareDag within] at helper
  cases helper

end Runs

end FerroProtocols.Airflow
