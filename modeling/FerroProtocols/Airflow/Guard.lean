import FerroProtocols.Airflow.Shield

/-! What the count of tokens says about the nesting that it stands for. -/

namespace FerroProtocols.Airflow

/-- The closing bracket of an opening one. -/
def TokenKind.closer : TokenKind → Option TokenKind
  | .lpar => some .rpar
  | .lsqb => some .rsqb
  | .lbrace => some .rbrace
  | _ => none

/-- A token that closes a bracket. -/
def TokenKind.isClosing (token : TokenKind) : Bool := token ∈ [TokenKind.rpar, .rsqb, .rbrace]

/-- The closers that the open brackets wait for, the innermost one first, after one more token; a closer of
another kind closes nothing. -/
def awaitStep (awaited : List TokenKind) (token : TokenKind) : List TokenKind :=
  match token.closer with
  | some closer => closer :: awaited
  | none => if token.isClosing ∧ awaited.head? = some token then awaited.tail else awaited

/-- The closers that are awaited after some tokens. -/
def awaitedAfter (tokens : List TokenKind) : List TokenKind := tokens.foldl awaitStep []

/-- A token closes a bracket of another kind than the innermost one that is open. -/
def mismatch (awaited : List TokenKind) (token : TokenKind) : Nat :=
  if token.isClosing ∧ awaited ≠ [] ∧ awaited.head? ≠ some token then 1 else 0

/-- The closers among tokens that are of another kind than the innermost open bracket. -/
def mismatches (awaited : List TokenKind) : List TokenKind → Nat
  | [] => 0
  | token :: rest => mismatch awaited token + mismatches (awaitStep awaited token) rest

private theorem length_awaitStep_of_closing {token : TokenKind} (awaited : List TokenKind)
    (closing : token.isClosing) :
    (awaitStep awaited token).length ≤ awaited.length - 1 + mismatch awaited token := by
  have ends : token.closer = none := by cases token <;> simp_all [TokenKind.isClosing, TokenKind.closer]
  cases awaited with
  | nil => simp [awaitStep, ends]
  | cons first rest => by_cases matched : first = token <;> simp [awaitStep, ends, mismatch, closing, matched]

private theorem length_awaitStep_le {awaited : List TokenKind} {state : LexState} {extra : Nat}
    (bounded : awaited.length ≤ state.brackets + extra) (token : TokenKind) :
    (awaitStep awaited token).length ≤ (state.step token).brackets + (extra + mismatch awaited token) := by
  cases token with
  | lpar | lsqb | lbrace =>
    simp only [awaitStep, TokenKind.closer, LexState.step, LexState.count, List.length_cons]
    omega
  | rpar | rsqb | rbrace =>
    -- Where a closer does not match, the counter has gone down and one more mismatch makes up for it.
    refine Nat.le_trans (length_awaitStep_of_closing awaited rfl) ?_
    simp only [LexState.step, LexState.count]
    omega
  | _ => exact Nat.le_trans bounded (by simp [LexState.step, LexState.count])

private theorem accepted_cons {state : LexState} {token : TokenKind} {rest : List TokenKind}
    (accepted : lexRejectFrom state (token :: rest) = none) :
    lexRejectFrom (state.step token) rest = none ∧ (state.step token).depth ≤ maxParseRecursion := by
  rw [lexRejectFrom] at accepted
  split at accepted
  · cases accepted
  · simp only at accepted
    split at accepted
    · cases accepted
    · rename_i small
      have counted : (state.step token).depth ≤ (state.step token).max := Nat.le_max_right _ _
      exact ⟨accepted, Nat.le_trans counted (Nat.le_of_not_lt small)⟩

private theorem length_awaited_le {part rest awaited : List TokenKind} {state : LexState} {extra : Nat}
    (accepted : lexRejectFrom state (part ++ rest) = none) (small : state.depth ≤ maxParseRecursion)
    (bounded : awaited.length ≤ state.brackets + extra) :
    (part.foldl awaitStep awaited).length ≤ maxParseRecursion + (extra + mismatches awaited part) := by
  -- Along the tokens the counter falls behind by one for each closer that does not match.
  induction part generalizing awaited state extra with
  | nil =>
    unfold LexState.depth at small
    exact Nat.le_trans bounded (by omega)
  | cons token part ih =>
    obtain ⟨later, next⟩ := accepted_cons accepted
    have onward := ih later next (length_awaitStep_le bounded token)
    rw [Nat.add_assoc extra] at onward
    exact onward

/-- In tokens that are accepted, no more brackets are open at any place than the bound and the closers before
it that are of another kind than the innermost open bracket. -/
theorem open_brackets_bounded {ruff : Ruff} {source : String} (accepted : lexRejectReason ruff source = none)
    {part : List TokenKind} (begins : part <+: ruff.lex source) :
    (awaitedAfter part).length ≤ maxParseRecursion + mismatches [] part := by
  obtain ⟨rest, joined⟩ := begins
  rw [lexRejectReason, ← joined] at accepted
  have bounded := @length_awaited_le part rest [] .start 0 accepted (Nat.zero_le _) (Nat.zero_le _)
  rwa [Nat.zero_add] at bounded

/-- One closer of another kind lets the nesting that is open grow beyond the bound by one. -/
theorem open_brackets_bounded_one : let part := [TokenKind.lpar, .rsqb] ++ List.replicate 1024 .lsqb
    (awaitedAfter part).length = 1025 ∧ (awaitedAfter part).length ≤ maxParseRecursion + mismatches [] part :=
  ⟨by decide +kernel, @open_brackets_bounded ⟨fun _ => [.lpar, .rsqb] ++ List.replicate 1024 .lsqb,
    fun _ => .panicked ""⟩
    ("(]" ++ String.join (List.replicate 1024 "[")) (by decide +kernel) _ List.prefix_rfl⟩

/-- A closer of another kind lowers the count but leaves its bracket open. -/
theorem mismatched_closers_accepted : let tokens := (List.replicate 1025 [TokenKind.lpar, .rsqb]).flatten
    lexRejectFrom .start tokens = none ∧ (awaitedAfter tokens).length = 1025 := by
  decide +kernel

end FerroProtocols.Airflow
