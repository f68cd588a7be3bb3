import Mathlib.Data.List.Basic

/-! The syntax of a Python module, as far as the extractor and the detector of dynamic patterns tell it apart. -/

namespace FerroProtocols.Airflow

/-- Where a node stands: the offsets of its first byte and of the first byte after it. -/
structure TextRange where
  start : Nat
  stop : Nat
  deriving DecidableEq, Repr

/-- The binary operators that are told apart. -/
inductive Operator where
  | rShift
  | lShift
  | other
  deriving DecidableEq, Repr

/-- The operators that state dependencies. -/
def Operator.isShift : Operator → Bool
  | .rShift | .lShift => true
  | .other => false

mutual

/-- An expression. -/
inductive Expr where
  | name (range : TextRange) (id : String)
  | attribute (range : TextRange) (value : Expr) (attr : String)
  | call (call : ExprCall)
  | binOp (range : TextRange) (left : Expr) (op : Operator) (right : Expr)
  | list (range : TextRange) (elts : List Expr)
  | tuple (range : TextRange) (elts : List Expr)
  | starred (range : TextRange) (value : Expr)
  | fString (range : TextRange) (elements : List FStringElement)
  | stringLiteral (range : TextRange) (value : String)
  -- A number is given by the text it is displayed as.
  | numberLiteral (range : TextRange) (value : String)
  | booleanLiteral (range : TextRange) (value : Bool)
  | noneLiteral (range : TextRange)
  | ellipsisLiteral (range : TextRange)
  | other (range : TextRange) (parts : List Expr)

/-- A call. -/
structure ExprCall where
  range : TextRange
  func : Expr
  args : List Expr
  keywords : List Keyword

/-- An argument of a call with its keyword; `**kwargs` has none. -/
structure Keyword where
  arg : Option String
  value : Expr

/-- A piece of an f-string: text, or a slot with an expression. -/
inductive FStringElement where
  | literal (value : String)
  | interpolation (value : Expr)

end

/-- The name at the end of a callee, through calls and up to some depth. -/
def Expr.innerName (maxDepth depth : Nat) : Expr → Option String
  | .name _ id => if maxDepth < depth then none else some id
  | .attribute _ _ attr => if maxDepth < depth then none else some attr
  | .call ⟨_, func, _, _⟩ => if maxDepth < depth then none else innerName maxDepth (depth + 1) func
  | _ => none

namespace Expr

/-- Where an expression stands. -/
def range : Expr → TextRange
  | .name range _ | .attribute range _ _ | .binOp range _ _ _ | .list range _ | .tuple range _ | .starred range _
  | .fString range _ | .stringLiteral range _ | .numberLiteral range _ | .booleanLiteral range _ | .noneLiteral range
  | .ellipsisLiteral range | .other range _ => range
  | .call ⟨range, _, _, _⟩ => range

/-- The expressions right within an expression. -/
def parts : Expr → List Expr
  | .attribute _ value _ | .starred _ value => [value]
  | .call ⟨_, func, args, keywords⟩ => func :: args ++ keywords.map Keyword.value
  | .binOp _ left _ right => [left, right]
  | .list _ elts | .tuple _ elts => elts
  | .fString _ elements => elements.filterMap fun element =>
    match element with
    | .literal _ => none
    | .interpolation value => some value
  | .other _ parts => parts
  | .name _ _ | .stringLiteral _ _ | .numberLiteral _ _ | .booleanLiteral _ _ | .noneLiteral _ |
    .ellipsisLiteral _ => []

/-- An expression lies within another one, at any depth. -/
inductive Within : Expr → Expr → Prop where
  | itself (expr : Expr) : Within expr expr
  | part {inner part expr : Expr} (among : part ∈ expr.parts) (deeper : Within inner part) : Within inner expr

/-- The arguments of a call lie within it. -/
theorem mem_parts_of_argument {call : ExprCall} {argument : Expr}
    (member : argument ∈ call.args ++ call.keywords.map Keyword.value) : argument ∈ (Expr.call call).parts := by
  obtain ⟨range, func, args, keywords⟩ := call
  exact List.mem_cons_of_mem func member

private theorem sizeOf_argument_lt {call : ExprCall} {argument : Expr}
    (member : argument ∈ call.args ++ call.keywords.map Keyword.value) :
    sizeOf argument < sizeOf (Expr.call call) := by
  -- Either the argument is in a list of the call, or it is the value of a keyword in one.
  obtain ⟨range, func, args, keywords⟩ := call
  simp only [call.sizeOf_spec, ExprCall.mk.sizeOf_spec]
  change argument ∈ args ++ keywords.map Keyword.value at member
  rcases List.mem_append.mp member with plain | named
  · have smaller := List.sizeOf_lt_of_mem plain
    omega
  · obtain ⟨keyword, listed, same⟩ := List.mem_map.mp named
    have smaller := List.sizeOf_lt_of_mem listed
    have inner : sizeOf keyword.value < sizeOf keyword := by
      cases keyword
      simp only [Keyword.mk.sizeOf_spec]
      omega
    rw [← same]
    omega

/-- What holds of a call as soon as it holds of all its arguments, and of all that is no call, holds of all
expressions. -/
theorem call_induction {holds : Expr → Prop} (leaf : ∀ expr, (∀ call, expr ≠ .call call) → holds expr)
    (call : ∀ call : ExprCall, (∀ argument ∈ call.args ++ call.keywords.map Keyword.value, holds argument) →
      holds (.call call))
    (expr : Expr) : holds expr := by
  -- The arguments of a call are smaller than the call itself.
  generalize sizeEq : sizeOf expr = size
  induction size using Nat.strongRecOn generalizing expr with
  | ind size ih =>
    cases expr with
    | call inner =>
      refine call inner fun argument member => ?_
      have smaller := sizeOf_argument_lt member
      exact ih (sizeOf argument) (by omega) argument rfl
    | _ => exact leaf _ fun call impossible => (by cases impossible)

end Expr

/-- A decorator of a function or a class. -/
structure Decorator where
  expression : Expr

/-- An item of a `with` statement. -/
structure WithItem where
  contextExpr : Expr
  optionalVars : Option Expr

mutual

/-- A statement. -/
inductive Stmt where
  | stmtWith (range : TextRange) (items : List WithItem) (body : List Stmt)
  | functionDef (range : TextRange) (name : String) (decoratorList : List Decorator) (signature : List Expr)
      (body : List Stmt)
  | classDef (decoratorList : List Decorator) (arguments : List Expr) (body : List Stmt)
  | assign (targets : List Expr) (value : Expr)
  | annAssign (target : Expr) (value : Option Expr)
  | expr (value : Expr)
  | stmtIf (test : Expr) (body : List Stmt) (elifElseClauses : List Clause)
  | stmtFor (target iter : Expr) (body orelse : List Stmt)
  | stmtWhile (test : Expr) (body orelse : List Stmt)
  | stmtTry (body : List Stmt) (handlers : List Clause) (orelse finalbody : List Stmt)
  | other (exprs : List Expr) (cases : List Clause)

/-- A block with the expression it depends on: an `elif` or `else`, an `except` or a `case`. -/
structure Clause where
  test : Option Expr
  body : List Stmt

end

/-- The part that a block plays in its statement. -/
inductive BlockKind where
  | body
  | elifElse
  | handler
  | orelse
  | finalbody
  | case
  deriving DecidableEq, Repr

namespace Stmt

/-- The blocks of a statement, in the order of the source. -/
def blocks : Stmt → List (BlockKind × List Stmt)
  | .stmtWith _ _ body | .functionDef _ _ _ _ body | .classDef _ _ body => [(.body, body)]
  | .stmtIf _ body clauses => (.body, body) :: clauses.map fun clause => (.elifElse, clause.body)
  | .stmtFor _ _ body orelse | .stmtWhile _ body orelse => [(.body, body), (.orelse, orelse)]
  | .stmtTry body handlers orelse finalbody =>
    (.body, body) :: (handlers.map fun clause => (.handler, clause.body)) ++
    [(.orelse, orelse), (.finalbody, finalbody)]
  | .other _ cases => cases.map fun clause => (.case, clause.body)
  | .assign _ _ | .annAssign _ _ | .expr _ => []

/-- The expressions of a statement that are in none of its blocks. -/
def exprs : Stmt → List Expr
  | .stmtWith _ items _ => items.flatMap fun item => item.contextExpr :: item.optionalVars.toList
  | .functionDef _ _ decorators signature _ => decorators.map Decorator.expression ++ signature
  | .classDef decorators arguments _ => decorators.map Decorator.expression ++ arguments
  | .assign targets value => value :: targets
  | .annAssign target value => target :: value.toList
  | .expr value => [value]
  | .stmtIf test _ clauses => test :: clauses.filterMap Clause.test
  | .stmtFor target iter _ _ => [target, iter]
  | .stmtWhile test _ _ => [test]
  | .stmtTry _ handlers _ _ => handlers.filterMap Clause.test
  | .other exprs cases => exprs ++ cases.filterMap Clause.test

/-- The first block of a compound statement. -/
def body : Stmt → List Stmt
  | .stmtWith _ _ body | .functionDef _ _ _ _ body | .classDef _ _ body | .stmtIf _ body _ | .stmtFor _ _ body _
  | .stmtWhile _ body _ | .stmtTry body _ _ _ => body
  | .assign _ _ | .annAssign _ _ | .expr _ | .other _ _ => []

/-- Only the first block of a compound statement is its body. -/
theorem blocks_eq (stmt : Stmt) : ∃ others : List (BlockKind × List Stmt), (∀ block ∈ others, block.1 ≠ .body) ∧
    (stmt.blocks = (.body, stmt.body) :: others ∨ stmt.blocks = others ∧ stmt.body = []) := by
  cases stmt with
  | stmtWith | functionDef | classDef => exact ⟨[], by simp, .inl rfl⟩
  | stmtIf test body clauses => exact ⟨_, by simp, .inl rfl⟩
  | stmtFor _ _ _ orelse | stmtWhile _ _ orelse => exact ⟨[(.orelse, orelse)], by simp, .inl rfl⟩
  | stmtTry body handlers orelse finalbody =>
    refine ⟨(handlers.map fun clause => (.handler, clause.body)) ++
      [(.orelse, orelse), (.finalbody, finalbody)], ?_, .inl rfl⟩
    intro block member
    simp only [List.mem_append, List.mem_map, List.mem_cons, List.not_mem_nil, or_false] at member
    rcases member with ⟨clause, _, same⟩ | same | same
    · rw [← same]
      simp
    · rw [same]
      simp
    · rw [same]
      simp
  | other exprs cases => exact ⟨_, by simp [blocks], .inr ⟨rfl, rfl⟩⟩
  | assign | annAssign | expr => exact ⟨[], by simp, .inr ⟨rfl, rfl⟩⟩

/-- What holds of all blocks of a statement, and of no block, holds of its body. -/
theorem holds_body {holds : List Stmt → Prop} (nil : holds []) {stmt : Stmt}
    (inner : ∀ block ∈ stmt.blocks, holds block.2) :
    holds stmt.body := by
  obtain ⟨others, _, same | ⟨_, empty⟩⟩ := stmt.blocks_eq
  · exact inner (.body, stmt.body) (by rw [same]; exact List.mem_cons_self)
  · rw [empty]
    exact nil

section Gather

variable {β γ : Type} (down : β → Stmt → BlockKind → Option β) (out : β → Stmt → List γ)

mutual

/-- What the statements of a block give, each followed by its own blocks; the context tells which blocks are
gone into. -/
def gather (context : β) : List Stmt → List γ
  | [] => []
  | stmt :: rest => out context stmt ++ (gatherBlocks context stmt ++ gather context rest)

/-- What the blocks of a statement give. -/
def gatherBlocks (context : β) (stmt : Stmt) : List γ :=
  match stmt with
  | .stmtWith _ _ body | .functionDef _ _ _ _ body | .classDef _ _ body =>
    (down context stmt .body).elim [] fun inner => gather inner body
  | .stmtIf _ body clauses =>
    ((down context stmt .body).elim [] fun inner => gather inner body) ++
      gatherClauses (down context stmt .elifElse) clauses
  | .stmtFor _ _ body orelse | .stmtWhile _ body orelse =>
    ((down context stmt .body).elim [] fun inner => gather inner body) ++
      ((down context stmt .orelse).elim [] fun inner => gather inner orelse)
  | .stmtTry body handlers orelse finalbody =>
    ((down context stmt .body).elim [] fun inner => gather inner body) ++
      (gatherClauses (down context stmt .handler) handlers ++
        (((down context stmt .orelse).elim [] fun inner => gather inner orelse) ++
          ((down context stmt .finalbody).elim [] fun inner => gather inner finalbody)))
  | .other _ cases => gatherClauses (down context stmt .case) cases
  | .assign _ _ | .annAssign _ _ | .expr _ => []

/-- What the blocks of clauses give. -/
def gatherClauses (context : Option β) : List Clause → List γ
  | [] => []
  | ⟨_, body⟩ :: rest => (context.elim [] fun inner => gather inner body) ++ gatherClauses context rest

end

variable {down out}

private theorem gatherClauses_eq (context : Option β) (clauses : List Clause) :
    gatherClauses down out context clauses =
      clauses.flatMap fun clause => context.elim [] fun inner => gather down out inner clause.body := by
  induction clauses with
  | nil => rfl
  | cons clause rest ih =>
    obtain ⟨test, body⟩ := clause
    rw [gatherClauses, ih, List.flatMap_cons]

/-- The blocks of a statement are gone through one after the other. -/
theorem gatherBlocks_eq (context : β) (stmt : Stmt) :
    gatherBlocks down out context stmt = stmt.blocks.flatMap fun block =>
      (down context stmt block.1).elim [] fun inner => gather down out inner block.2 := by
  cases stmt <;>
    simp only [gatherBlocks, blocks, gatherClauses_eq, List.flatMap_cons, List.flatMap_nil, List.flatMap_append,
      List.flatMap_map, List.append_nil, List.cons_append]

/-- Where only bodies are gone into, the blocks of a statement give what its body gives. -/
theorem gatherBlocks_of_body {context : β} {stmt : Stmt}
    (only : ∀ kind, kind ≠ .body → down context stmt kind = none) :
    gatherBlocks down out context stmt = (down context stmt .body).elim [] fun inner =>
      gather down out inner stmt.body := by
  have passed (others : List (BlockKind × List Stmt)) (other : ∀ block ∈ others, block.1 ≠ .body) :
      (others.flatMap fun block => (down context stmt block.1).elim [] fun inner =>
        gather down out inner block.2) = [] := by
    rw [List.flatMap_eq_nil_iff]
    intro block member
    rw [only block.1 (other block member)]
    rfl
  rw [gatherBlocks_eq]
  obtain ⟨others, other, same | ⟨same, empty⟩⟩ := stmt.blocks_eq
  · rw [same, List.flatMap_cons, passed others other, List.append_nil]
  · rw [same, passed others other, empty]
    cases down context stmt .body <;> rfl

end Gather

private theorem sizeOf_clause_lt {clauses : List Clause} {kind : BlockKind} {block : BlockKind × List Stmt}
    (member : block ∈ clauses.map fun clause => (kind, clause.body)) : sizeOf block.2 < sizeOf clauses := by
  obtain ⟨clause, listed, same⟩ := List.mem_map.mp member
  have smaller := List.sizeOf_lt_of_mem listed
  have inner : sizeOf clause.body < sizeOf clause := by
    cases clause
    simp only [Clause.mk.sizeOf_spec]
    omega
  rw [← same]
  show sizeOf clause.body < sizeOf clauses
  omega

private theorem sizeOf_block_lt {stmt : Stmt} {block : BlockKind × List Stmt} (member : block ∈ stmt.blocks) :
    sizeOf block.2 < sizeOf stmt := by
  cases stmt with
  | stmtWith | functionDef | classDef =>
    rw [List.mem_singleton.mp member]
    simp only [stmtWith.sizeOf_spec, functionDef.sizeOf_spec, classDef.sizeOf_spec]
    omega
  | stmtIf test body clauses =>
    simp only [stmtIf.sizeOf_spec]
    rcases List.mem_cons.mp member with same | clause
    · rw [same]
      simp only
      omega
    · have smaller := sizeOf_clause_lt clause
      omega
  | stmtFor | stmtWhile =>
    simp only [blocks, List.mem_cons, List.not_mem_nil, or_false] at member
    simp only [stmtFor.sizeOf_spec, stmtWhile.sizeOf_spec]
    rcases member with same | same <;> rw [same] <;> simp only <;> omega
  | stmtTry body handlers orelse finalbody =>
    simp only [blocks, List.cons_append, List.mem_cons, List.mem_append, List.not_mem_nil, or_false] at member
    simp only [stmtTry.sizeOf_spec]
    rcases member with same | clause | same | same
    · rw [same]
      simp only
      omega
    · have smaller := sizeOf_clause_lt clause
      omega
    · rw [same]
      simp only
      omega
    · rw [same]
      simp only
      omega
  | other exprs cases =>
    have smaller := sizeOf_clause_lt member
    simp only [other.sizeOf_spec]
    omega
  | assign | annAssign | expr => cases member

/-- What holds of a block as soon as it holds of the blocks of its first statement and of the statements after
it holds of all blocks. -/
theorem block_induction {holds : List Stmt → Prop} (nil : holds [])
    (cons : ∀ stmt rest, (∀ block ∈ stmt.blocks, holds block.2) → holds rest → holds (stmt :: rest))
    (stmts : List Stmt) : holds stmts := by
  generalize sizeEq : sizeOf stmts = size
  induction size using Nat.strongRecOn generalizing stmts with
  | ind size ih =>
    cases stmts with
    | nil => exact nil
    | cons stmt rest =>
      simp only [List.cons.sizeOf_spec] at sizeEq
      refine cons stmt rest (fun block member => ?_) (ih (sizeOf rest) (by omega) rest rfl)
      have smaller := sizeOf_block_lt member
      exact ih (sizeOf block.2) (by omega) block.2 rfl

end Stmt

end FerroProtocols.Airflow
