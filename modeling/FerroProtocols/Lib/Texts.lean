import Mathlib.Data.List.Infix

/-! Texts cut at characters and at other texts, and put together again. -/

namespace Texts

private theorem eq_append_iff {text left right : String} :
    text = left ++ right ↔ text.toList = left.toList ++ right.toList := by
  rw [← String.toList_append, String.toList_inj]

section Strip

/-- What follows in a text after another one. -/
def stripPrefix (start text : String) : Option String :=
  (text.toList.dropPrefix? start.toList).map String.ofList

/-- What stands in a text before another one. -/
def stripSuffix (ending text : String) : Option String :=
  (text.toList.dropSuffix? ending.toList).map String.ofList

variable {start ending text rest : String}

/-- A start is cut off exactly where it stands. -/
theorem stripPrefix_eq_some_iff : stripPrefix start text = some rest ↔ text = start ++ rest := by
  rw [stripPrefix, eq_append_iff, Option.map_eq_some_iff]
  constructor
  · rintro ⟨left, cut, rfl⟩
    obtain ⟨found, joined, same⟩ := List.dropPrefix?_eq_some_iff.mp cut
    rw [joined, eq_of_beq same, String.toList_ofList]
  · intro joined
    exact ⟨rest.toList, List.dropPrefix?_eq_some_iff.mpr ⟨_, joined, beq_self_eq_true _⟩, String.ofList_toList⟩

/-- An ending is cut off exactly where it stands. -/
theorem stripSuffix_eq_some_iff : stripSuffix ending text = some rest ↔ text = rest ++ ending := by
  rw [stripSuffix, eq_append_iff, Option.map_eq_some_iff]
  constructor
  · rintro ⟨left, cut, rfl⟩
    obtain ⟨found, joined, same⟩ := List.dropSuffix?_eq_some_iff.mp cut
    rw [joined, eq_of_beq same, String.toList_ofList]
  · intro joined
    exact ⟨rest.toList, List.dropSuffix?_eq_some_iff.mpr ⟨_, joined, beq_self_eq_true _⟩, String.ofList_toList⟩

end Strip

section Once

variable {α : Type*} [DecidableEq α] {sep : α}

/-- A list cut where an item stands for the first time: what stands before it, and what after. -/
def cut (sep : α) : List α → Option (List α × List α)
  | [] => none
  | first :: rest =>
    if first = sep then some ([], rest)
    else (cut sep rest).map fun (before, after) => (first :: before, after)

private theorem cut_eq_some_iff {text before after : List α} :
    cut sep text = some (before, after) ↔ text = before ++ sep :: after ∧ sep ∉ before := by
  induction text generalizing before with
  | nil => simp [cut]
  | cons first rest ih =>
    rw [cut]
    by_cases here : first = sep
    · rw [if_pos here]
      cases before with
      | nil => simp [here, eq_comm]
      | cons item before => simp [here]; grind
    · rw [if_neg here, Option.map_eq_some_iff]
      cases before with
      | nil => simp [here]
      | cons item before =>
        simp only [Prod.exists, Prod.mk.injEq, List.cons.injEq, List.cons_append, List.mem_cons, not_or]
        grind

private theorem cut_eq_none_iff {text : List α} : cut sep text = none ↔ sep ∉ text := by
  induction text with
  | nil => simp [cut]
  | cons first rest ih =>
    rw [cut]
    split
    · rename_i here
      simp [here]
    · rename_i other
      rw [Option.map_eq_none_iff, ih, List.mem_cons, not_or]
      exact ⟨fun missing => ⟨Ne.symm other, missing⟩, And.right⟩

private theorem append_cons_inj {left right left' right' : List α}
    (same : left ++ sep :: right = left' ++ sep :: right') (missing : sep ∉ left)
    (missing' : sep ∉ left') : left = left' ∧ right = right' := by
  have first : cut sep (left ++ sep :: right) = some (left, right) := cut_eq_some_iff.mpr ⟨rfl, missing⟩
  rw [cut_eq_some_iff.mpr ⟨same, missing'⟩, Option.some.injEq, Prod.mk.injEq] at first
  exact ⟨first.1.symm, first.2.symm⟩

private theorem append_cons_inj_last {left right left' right' : List α}
    (same : left ++ sep :: right = left' ++ sep :: right') (missing : sep ∉ right)
    (missing' : sep ∉ right') : left = left' ∧ right = right' := by
  -- Read from the right, it is the first occurrence.
  have reversed := congrArg List.reverse same
  simp only [List.reverse_append, List.reverse_cons, List.append_assoc, List.singleton_append] at reversed
  have parts := append_cons_inj reversed (mt List.mem_reverse.mp missing) (mt List.mem_reverse.mp missing')
  exact ⟨List.reverse_inj.mp parts.2, List.reverse_inj.mp parts.1⟩

/-- The texts before and after the first occurrence of a character. -/
def splitOnce (sep : Char) (text : String) : Option (String × String) :=
  (cut sep text.toList).map fun (before, after) => (String.ofList before, String.ofList after)

/-- The texts before and after the last occurrence of a character. -/
def rsplitOnce (sep : Char) (text : String) : Option (String × String) :=
  (cut sep text.toList.reverse).map fun (after, before) =>
    (String.ofList before.reverse, String.ofList after.reverse)

variable {sep : Char} {text before after : String}

/-- A text is split at the occurrence with nothing of its kind before it. -/
theorem splitOnce_eq_some_iff : splitOnce sep text = some (before, after) ↔
    text.toList = before.toList ++ sep :: after.toList ∧ sep ∉ before.toList := by
  rw [← cut_eq_some_iff, splitOnce, Option.map_eq_some_iff]
  constructor
  · rintro ⟨⟨left, right⟩, found, same⟩
    cases same
    rw [found, String.toList_ofList, String.toList_ofList]
  · intro found
    exact ⟨_, found, by simp⟩

/-- A text is split from the right at the occurrence with nothing of its kind after it. -/
theorem rsplitOnce_eq_some_iff : rsplitOnce sep text = some (before, after) ↔
    text.toList = before.toList ++ sep :: after.toList ∧ sep ∉ after.toList := by
  have reversed : (text.toList = before.toList ++ sep :: after.toList ∧ sep ∉ after.toList) ↔
      text.toList.reverse = after.toList.reverse ++ sep :: before.toList.reverse ∧
        sep ∉ after.toList.reverse := by
    rw [List.mem_reverse, List.reverse_eq_iff]
    simp
  rw [reversed, ← cut_eq_some_iff, rsplitOnce, Option.map_eq_some_iff]
  constructor
  · rintro ⟨⟨right, left⟩, found, same⟩
    cases same
    rw [found, String.toList_ofList, String.toList_ofList, List.reverse_reverse, List.reverse_reverse]
  · intro found
    exact ⟨_, found, by simp⟩

/-- A text without the character is not split. -/
theorem rsplitOnce_eq_none_iff : rsplitOnce sep text = none ↔ sep ∉ text.toList := by
  rw [rsplitOnce, Option.map_eq_none_iff, cut_eq_none_iff, List.mem_reverse]

variable {joint left right left' right' : String} (single : joint.toList = [sep])
  (same : left ++ joint ++ right = left' ++ joint ++ right')

include single same

/-- Texts that are joined by a character are read off the whole if there is no such character in the left one. -/
theorem join_inj (missing : sep ∉ left.toList) (missing' : sep ∉ left'.toList) :
    left = left' ∧ right = right' := by
  simp only [← String.toList_inj, String.toList_append, single, List.append_assoc, List.singleton_append] at same ⊢
  exact append_cons_inj same missing missing'

/-- Texts that are joined by a character are read off the whole if there is no such character in the right one. -/
theorem join_inj_last (missing : sep ∉ right.toList) (missing' : sep ∉ right'.toList) :
    left = left' ∧ right = right' := by
  simp only [← String.toList_inj, String.toList_append, single, List.append_assoc, List.singleton_append] at same ⊢
  exact append_cons_inj_last same missing missing'

end Once

section Split

/-- The texts between the occurrences of a character. -/
def split (sep : Char) (text : String) : List String :=
  (text.toList.splitOn sep).map String.ofList

/-- A text in which every occurrence of a character is replaced. -/
def replace (pattern : Char) (replacement text : String) : String :=
  String.ofList (text.toList.flatMap fun ch =>
    if ch = pattern then replacement.toList else [ch])

/-- A text without the occurrences of a character at its start. -/
def trimStart (pattern : Char) (text : String) : String :=
  String.ofList (text.toList.dropWhile fun ch => decide (ch = pattern))

variable {sep : Char}

/-- There is at least one piece. -/
theorem split_ne_nil (text : String) : split sep text ≠ [] := by
  rw [split, Ne, List.map_eq_nil_iff]
  exact List.splitOn_ne_nil _ _

/-- A text is split wherever the character stands. -/
theorem split_append (left right : String) :
    split sep (left ++ String.singleton sep ++ right) = split sep left ++ split sep right := by
  simp only [split, String.toList_append, String.toList_singleton, List.append_assoc, List.singleton_append]
  have cuts : (left.toList ++ sep :: right.toList).splitOn sep =
      left.toList.splitOn sep ++ right.toList.splitOn sep :=
    List.splitOnP_append_cons _ _ (beq_self_eq_true sep)
  rw [cuts, List.map_append]

/-- A text without the character is one piece. -/
theorem split_of_notMem {text : String} (missing : sep ∉ text.toList) : split sep text = [text] := by
  rw [split, List.splitOn, List.splitOnP_eq_singleton, List.map_singleton, String.ofList_toList]
  intro ch member
  exact beq_eq_false_iff_ne.mpr fun same => missing (same ▸ member)

/-- Pieces that were put together with the character between them come out again. -/
theorem split_intercalate {parts : List String} (apart : ∀ part ∈ parts, sep ∉ part.toList)
    (filled : parts ≠ []) : split sep ((String.singleton sep).intercalate parts) = parts := by
  rw [split, String.toList_intercalate, String.toList_singleton, List.splitOn_intercalate]
  · simp [List.map_map, Function.comp_def]
  · intro part member
    obtain ⟨text, inside, rfl⟩ := List.mem_map.mp member
    exact apart text inside
  · simpa using filled

/-- The pieces of a text are put together to the text. -/
theorem intercalate_split (text : String) : (String.singleton sep).intercalate (split sep text) = text := by
  rw [← String.toList_inj, String.toList_intercalate, String.toList_singleton, split, List.map_map]
  simp [Function.comp_def, List.intercalate_splitOn]

/-- A list is split one item at a time. -/
theorem splitOn_cons {α : Type*} [DecidableEq α] (sep first : α) (rest : List α) :
    (first :: rest).splitOn sep = if first = sep then [] :: rest.splitOn sep
      else (rest.splitOn sep).modifyHead (List.cons first) := by
  rw [List.splitOn, List.splitOnP_cons_eq_if_modifyHead]
  simp only [beq_iff_eq]
  rfl

/-- The pieces have the characters of the text without the one at which it is split. -/
theorem mem_of_mem_split {text part : String} (member : part ∈ split sep text) {ch : Char}
    (inside : ch ∈ part.toList) : ch ∈ text.toList ∧ ch ≠ sep := by
  obtain ⟨piece, found, rfl⟩ := List.mem_map.mp member
  rw [String.toList_ofList] at inside
  clear member
  generalize text.toList = characters at found ⊢
  induction characters generalizing piece with
  | nil =>
    simp only [List.splitOn, List.splitOnP_nil, List.mem_singleton] at found
    rw [found] at inside
    cases inside
  | cons first rest ih =>
    rw [splitOn_cons] at found
    split at found
    · rcases List.mem_cons.mp found with rfl | later
      · cases inside
      · have := ih piece inside later
        exact ⟨List.mem_cons_of_mem _ this.1, this.2⟩
    · rename_i other
      -- The first item belongs to the first piece of the rest.
      cases pieces : rest.splitOn sep with
      | nil => rw [pieces] at found; cases found
      | cons head tail =>
        rw [pieces, List.modifyHead_cons, List.mem_cons] at found
        rcases found with rfl | later
        · rcases List.mem_cons.mp inside with rfl | inside
          · exact ⟨List.mem_cons_self, other⟩
          · have := ih head inside (by rw [pieces]; exact List.mem_cons_self)
            exact ⟨List.mem_cons_of_mem _ this.1, this.2⟩
        · have := ih piece inside (by rw [pieces]; exact List.mem_cons_of_mem _ later)
          exact ⟨List.mem_cons_of_mem _ this.1, this.2⟩

/-- Replacing a character by another one is splitting at the first and putting together with the second. -/
theorem replace_eq_intercalate (pattern other : Char) (text : String) :
    replace pattern (String.singleton other) text =
      (String.singleton other).intercalate (split pattern text) := by
  rw [← String.toList_inj, String.toList_intercalate, replace, split, List.map_map, String.toList_ofList,
    String.toList_singleton]
  simp only [Function.comp_def, String.toList_ofList, List.map_id']
  induction text.toList with
  | nil => rfl
  | cons first rest ih =>
    rw [List.flatMap_cons, ih, splitOn_cons]
    split
    · cases pieces : rest.splitOn pattern with
      | nil => exact absurd pieces (List.splitOnP_ne_nil _ _)
      | cons head tail => simp [List.intercalate]
    · cases pieces : rest.splitOn pattern with
      | nil => exact absurd pieces (List.splitOnP_ne_nil _ _)
      | cons head tail => cases tail <;> simp [List.intercalate]

end Split

section Numbers

/-- A number is written with digits. -/
theorem isDigit_of_mem_toString {number : Nat} {digit : Char} (member : digit ∈ (toString number).toList) :
    digit.isDigit = true := by
  rw [Nat.toString_eq_ofList_toDigits, String.toList_ofList] at member
  exact Nat.isDigit_of_mem_toDigits (by decide) (by decide) member

/-- A number is read off a text that goes on with something else than a digit. -/
theorem toString_append_inj {number number' : Nat} {rest rest' : List Char} {first first' : Char}
    (other : first.isDigit = false) (other' : first'.isDigit = false)
    (same : (toString number).toList ++ first :: rest = (toString number').toList ++ first' :: rest') :
    number = number' := by
  have digits {number : Nat} {rest : List Char} {first : Char} (other : first.isDigit = false) :
      ((toString number).toList ++ first :: rest).takeWhile Char.isDigit = (toString number).toList := by
    rw [List.takeWhile_append_of_pos fun _ => isDigit_of_mem_toString,
      List.takeWhile_cons_of_neg (by simp [other]), List.append_nil]
  have texts : (toString number).toList = (toString number').toList := by
    rw [← @digits number rest first other, same, digits other']
  rw [Nat.toString_eq_ofList_toDigits, Nat.toString_eq_ofList_toDigits, String.toList_ofList,
    String.toList_ofList] at texts
  rw [← @Nat.ofDigitChars_toDigits 10 number (by decide) (by decide), texts,
    Nat.ofDigitChars_toDigits (by decide) (by decide)]

end Numbers

end Texts
