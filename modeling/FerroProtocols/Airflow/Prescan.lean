import FerroProtocols.Airflow.Shield

/-! The scan for brackets against the brackets that group. -/

namespace FerroProtocols.Airflow

/-- A piece of a source: code, a string literal or a comment. -/
inductive Piece where
  | code (bytes : List UInt8)
  | literal (bytes : List UInt8)
  | comment (bytes : List UInt8)
  deriving DecidableEq, Repr

namespace Piece

/-- The bytes of a piece. -/
def bytes : Piece → List UInt8
  | .code bytes | .literal bytes | .comment bytes => bytes

/-- The bytes of a piece that are neither in a string nor in a comment. -/
def outside : Piece → List UInt8
  | .code bytes => bytes
  | .literal _ | .comment _ => []

/-- The rest of a string after the quote that opens it, up to the one that closes it. -/
def closesShort (quote : UInt8) : List UInt8 → Bool
  | [] => false
  | 92 :: _ :: rest => closesShort quote rest
  | byte :: rest => if byte = quote then rest.isEmpty else byte ≠ 10 && closesShort quote rest

/-- The rest of a string after the three quotes that open it, up to the three that close it. -/
def closesLong (quote : UInt8) : List UInt8 → Bool
  | [] => false
  | 92 :: _ :: rest => closesLong quote rest
  | byte :: rest => if byte = quote ∧ rest.take 2 = [quote, quote] then rest.length = 2 else closesLong quote rest

/-- A piece is what it says: a comment goes on to the end of its line, and a string to the quotes that close
it. The letters before a string count as code. -/
def isPython : Piece → Bool
  | .code bytes => bytes.all fun byte => byte ≠ 34 && byte ≠ 35 && byte ≠ 39
  | .literal bytes => [34, 39].any fun quote =>
    if bytes.take 3 = [quote, quote, quote] then closesLong quote (bytes.drop 3)
    else bytes.head? = some quote && closesShort quote (bytes.drop 1)
  | .comment bytes => bytes.head? = some 35 && bytes.all fun byte => byte ≠ 10

/-- A string or a comment does not close more brackets than it opens. -/
def Closed : Piece → Prop
  | .code _ => True
  | .literal bytes | .comment bytes => bytes.countP isCloser ≤ bytes.countP isOpener

end Piece

/-- The brackets that are open after a byte. -/
def bracketStep (depth : Nat) (byte : UInt8) : Nat :=
  if isOpener byte then depth + 1 else if isCloser byte then depth - 1 else depth

/-- The brackets that are open after some bytes. -/
def openAfter (depth : Nat) (bytes : List UInt8) : Nat := bytes.foldl bracketStep depth

private theorem openAfter_mono {fewer more : Nat} (le : fewer ≤ more) (bytes : List UInt8) :
    openAfter fewer bytes ≤ openAfter more bytes := by
  induction bytes generalizing fewer more with
  | nil => exact le
  | cons byte rest ih =>
    apply ih
    show bracketStep fewer byte ≤ bracketStep more byte
    unfold bracketStep
    split
    · omega
    · split <;> omega

private theorem isCloser_of_isOpener {byte : UInt8} (opener : isOpener byte = true) : isCloser byte = false := by
  simp only [isOpener, Bool.or_eq_true, decide_eq_true_eq] at opener
  rcases opener with (same | same) | same <;> rw [same] <;> rfl

private theorem openAfter_add_le (depth : Nat) (bytes : List UInt8) :
    depth + bytes.countP isOpener ≤ openAfter depth bytes + bytes.countP isCloser := by
  induction bytes generalizing depth with
  | nil => exact Nat.le_refl _
  | cons byte rest ih =>
    have step := ih (bracketStep depth byte)
    show depth + (byte :: rest).countP isOpener ≤ openAfter (bracketStep depth byte) rest +
      (byte :: rest).countP isCloser
    cases opener : isOpener byte with
    | true =>
      have closer := isCloser_of_isOpener opener
      simp only [List.countP_cons, opener, closer, bracketStep, if_true, Bool.false_eq_true, if_false] at step ⊢
      omega
    | false =>
      cases closer : isCloser byte with
      | true =>
        simp only [List.countP_cons, opener, closer, bracketStep, if_true, Bool.false_eq_true, if_false] at step ⊢
        omega
      | false =>
        simp only [List.countP_cons, opener, closer, bracketStep, Bool.false_eq_true, if_false] at step ⊢
        omega

private theorem exists_openAfter_le {pieces : List Piece} (closed : ∀ piece ∈ pieces, piece.Closed)
    {fewer more : Nat}
    (le : fewer ≤ more) {part : List UInt8} (begins : part <+: pieces.flatMap Piece.outside) :
    ∃ whole, whole <+: pieces.flatMap Piece.bytes ∧ openAfter fewer part ≤ openAfter more whole := by
  induction pieces generalizing fewer more part with
  | nil =>
    rw [List.prefix_nil.mp begins]
    exact ⟨[], List.nil_prefix, le⟩
  | cons piece rest ih =>
    have later := fun other member => closed other (List.mem_cons_of_mem piece member)
    rw [List.flatMap_cons] at begins ⊢
    -- A string or a comment is passed over outside, and leaves at least as much open for the scan.
    have skipped {bytes : List UInt8} (few : bytes.countP isCloser ≤ bytes.countP isOpener)
        (begins : part <+: rest.flatMap Piece.outside) :
        ∃ whole, whole <+: bytes ++ rest.flatMap Piece.bytes ∧ openAfter fewer part ≤ openAfter more whole := by
      have grown : fewer ≤ openAfter more bytes := by
        have counted := openAfter_add_le more bytes
        omega
      obtain ⟨whole, among, below⟩ := ih later grown begins
      refine ⟨bytes ++ whole, (List.prefix_append_right_inj bytes).mpr among, ?_⟩
      rw [openAfter, openAfter, List.foldl_append]
      exact below
    cases piece with
    | literal | comment => exact skipped (closed _ List.mem_cons_self) begins
    | code bytes =>
      obtain ⟨tail, joined⟩ := begins
      rcases List.append_eq_append_iff.mp joined with ⟨more', inside, _⟩ | ⟨beyond, split, onward⟩
      · refine ⟨part, ⟨more' ++ rest.flatMap Piece.bytes, ?_⟩, openAfter_mono le part⟩
        show part ++ (more' ++ rest.flatMap Piece.bytes) = bytes ++ rest.flatMap Piece.bytes
        have inside : bytes = part ++ more' := inside
        rw [inside, List.append_assoc]
      · have split : part = bytes ++ beyond := split
        have begins : beyond <+: rest.flatMap Piece.outside := ⟨tail, onward.symm⟩
        obtain ⟨whole, among, below⟩ := ih later (openAfter_mono le bytes) begins
        refine ⟨bytes ++ whole, (List.prefix_append_right_inj bytes).mpr among, ?_⟩
        rw [split, openAfter, openAfter, List.foldl_append, List.foldl_append]
        exact below

namespace BracketScan

private theorem depth_step (scan : BracketScan) (byte : UInt8) :
    (scan.step byte).depth = bracketStep scan.depth byte := by
  unfold step bracketStep
  split
  · rfl
  · split <;> rfl

variable {scan : BracketScan}

private theorem step_max (noted : scan.depth ≤ scan.max) (byte : UInt8) :
    (scan.step byte).depth ≤ (scan.step byte).max ∧ scan.max ≤ (scan.step byte).max := by
  unfold step
  split
  · simp only
    split <;> omega
  · split
    · simp only
      omega
    · exact ⟨noted, Nat.le_refl _⟩

private theorem le_foldl_max (noted : scan.depth ≤ scan.max) (bytes : List UInt8) :
    scan.max ≤ (bytes.foldl step scan).max := by
  induction bytes generalizing scan with
  | nil => exact Nat.le_refl _
  | cons byte rest ih => exact Nat.le_trans (step_max noted byte).2 (ih (step_max noted byte).1)

private theorem openAfter_le_max (noted : scan.depth ≤ scan.max) {whole bytes : List UInt8}
    (begins : whole <+: bytes) : openAfter scan.depth whole ≤ (bytes.foldl step scan).max := by
  induction bytes generalizing scan whole with
  | nil =>
    rw [List.prefix_nil.mp begins]
    exact noted
  | cons byte rest ih =>
    cases whole with
    | nil => exact Nat.le_trans noted (le_foldl_max noted (byte :: rest))
    | cons first later =>
      obtain ⟨same, begins⟩ := List.cons_prefix_cons.mp begins
      have onward := ih (step_max noted byte).1 begins
      rw [depth_step] at onward
      rw [same]
      exact onward

private theorem step_max_eq (scan : BracketScan) (byte : UInt8) :
    (scan.step byte).max = scan.max ∨ (scan.step byte).max = (scan.step byte).depth := by
  unfold step
  split
  · simp only
    split
    · exact .inr rfl
    · exact .inl rfl
  · split <;> exact .inl rfl

private theorem exists_openAfter_eq_max (scan : BracketScan) (bytes : List UInt8) :
    (bytes.foldl step scan).max = scan.max ∨
    ∃ whole, whole <+: bytes ∧ openAfter scan.depth whole = (bytes.foldl step scan).max := by
  induction bytes generalizing scan with
  | nil => exact .inl rfl
  | cons byte rest ih =>
    rcases ih (scan.step byte) with same | ⟨whole, begins, reached⟩
    · rcases step_max_eq scan byte with kept | raised
      · exact .inl (same.trans kept)
      · refine .inr ⟨[byte], ⟨rest, rfl⟩, ?_⟩
        rw [List.foldl_cons, same, raised, depth_step]
        rfl
    · refine .inr ⟨byte :: whole, List.cons_prefix_cons.mpr ⟨rfl, begins⟩, ?_⟩
      rw [List.foldl_cons, ← reached, depth_step]
      rfl

end BracketScan

private theorem exceeds_iff {source : String} {depth : Nat} : (nestingDepthExceeds source depth).isSome = true ↔
    ∃ whole, whole <+: asBytes source ∧ depth < openAfter 0 whole := by
  unfold nestingDepthExceeds
  simp only [Option.isSome_ite]
  constructor
  · intro exceeds
    rcases BracketScan.exists_openAfter_eq_max ⟨0, 0⟩ (asBytes source) with same | ⟨whole, begins, reached⟩
    · exact absurd exceeds (by rw [same]; exact Nat.not_lt_zero _)
    · exact ⟨whole, begins, by rw [reached]; exact exceeds⟩
  · intro ⟨whole, begins, deep⟩
    exact Nat.lt_of_lt_of_le deep (@BracketScan.openAfter_le_max ⟨0, 0⟩ (Nat.le_refl 0) whole _ begins)

/-- A source with too many brackets open at some place outside of strings and comments is refused by the scan,
whatever the parser would do, exactly if too many are open at some place when those in strings and comments
count as well. So it is if no string and no comment closes more brackets than it opens. -/
theorem deep_nesting_refused {source : String} {pieces : List Piece}
    (divided : pieces.flatMap Piece.bytes = asBytes source)
    (deep : ∃ part, part <+: pieces.flatMap Piece.outside ∧ maxParseNestingDepth < openAfter 0 part) :
    ((nestingDepthExceeds source maxParseNestingDepth).isSome = true ↔
      ∃ whole, whole <+: pieces.flatMap Piece.bytes ∧ maxParseNestingDepth < openAfter 0 whole) ∧
    ((∀ piece ∈ pieces, piece.Closed) → (nestingDepthExceeds source maxParseNestingDepth).isSome = true) ∧
    ((nestingDepthExceeds source maxParseNestingDepth).isSome = true → ∃ message,
      ∀ (α : Type) (ruff : Ruff) (spawnError : Option String) (work : Unit → Outcome (Except ParseError α)),
        shieldParserPanic ruff spawnError source work = .error (.parse message)) := by
  rw [divided]
  refine ⟨exceeds_iff, fun closed => ?_, fun exceeds => ?_⟩
  · obtain ⟨part, begins, deep⟩ := deep
    obtain ⟨whole, among, below⟩ := exists_openAfter_le closed (Nat.le_refl 0) begins
    rw [divided] at among
    exact exceeds_iff.mpr ⟨whole, among, Nat.lt_of_lt_of_le deep below⟩
  · obtain ⟨depth, found⟩ := Option.isSome_iff_exists.mp exceeds
    refine ⟨nestingMessage depth, fun α ruff spawnError work => ?_⟩
    simp only [shieldParserPanic, found]

section Runs

/-- Tuples within tuples, each with a closing bracket in a string before the next one. -/
def nestedTuples (count : Nat) : List Piece :=
  (List.replicate count [Piece.code [40], .literal [34, 41, 34], .code [44]]).flatten ++
    [.code (List.replicate count 41)]

/-- The source of these tuples. -/
def nestedSource (count : Nat) : String :=
  String.join (List.replicate count "(\")\",") ++ String.join (List.replicate count ")")

/-- The tokens of these tuples. -/
def nestedTokens (count : Nat) : List TokenKind :=
  (List.replicate count [TokenKind.lpar, .other, .other]).flatten ++ List.replicate count .rpar ++ [.newline]

/-- Many brackets that are opened in code are found behind a string that closes one. -/
theorem deep_nesting_refused_plain :
    (nestingDepthExceeds ("\")\"" ++ String.join (List.replicate 257 "(")) maxParseNestingDepth).isSome = true := by
  have divided : ([Piece.literal [34, 41, 34], .code (List.replicate 257 40)].flatMap Piece.bytes) =
      asBytes ("\")\"" ++ String.join (List.replicate 257 "(")) := by
    decide +kernel
  exact (deep_nesting_refused divided ⟨_, List.prefix_rfl, by decide +kernel⟩).1.mpr
    ⟨_, List.prefix_rfl, by decide +kernel⟩

/-- Closing brackets in strings hide the brackets that are open: the source is not refused, and the parser
runs on it. -/
theorem nested_tuples_parsed : (nestedTuples 257).flatMap Piece.bytes = asBytes (nestedSource 257) ∧
      (nestedTuples 257).all Piece.isPython = true ∧
      (∃ part, part <+: (nestedTuples 257).flatMap Piece.outside ∧ maxParseNestingDepth < openAfter 0 part) ∧
      nestingDepthExceeds (nestedSource 257) maxParseNestingDepth = none ∧
      ∀ ruff : Ruff, ruff.lex (nestedSource 257) = nestedTokens 257 → ∀ (α : Type) (result : Except ParseError α),
          shieldParserPanic ruff none (nestedSource 257) (fun _ => .returned result) = result := by
  obtain ⟨⟨divided, python⟩, missed, deep, lexed⟩ : ((nestedTuples 257).flatMap Piece.bytes =
    asBytes (nestedSource 257) ∧
      (nestedTuples 257).all Piece.isPython = true) ∧
      nestingDepthExceeds (nestedSource 257) maxParseNestingDepth = none ∧
      maxParseNestingDepth < openAfter 0 (((nestedTuples 257).flatMap Piece.outside).take 513) ∧
      lexRejectFrom .start (nestedTokens 257) = none := by
    decide +kernel
  refine ⟨divided, python, ⟨_, List.take_prefix _ _, deep⟩, missed, fun ruff tokens α result => ?_⟩
  simp only [shieldParserPanic, missed, lexRejectReason, tokens, lexed]

end Runs

end FerroProtocols.Airflow
