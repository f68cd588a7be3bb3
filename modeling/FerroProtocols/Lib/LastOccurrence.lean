import Mathlib.Data.List.Infix

/-! Cutting a list where a pattern occurs for the last time. -/

namespace LastOccurrence

variable {α : Type*} [DecidableEq α]

/-- A list cut where a pattern occurs for the last time: what stands before it, and the rest. -/
def rsplit (pattern : List α) : List α → Option (List α × List α)
  | [] => if pattern.isEmpty then some ([], []) else none
  | first :: rest =>
    match rsplit pattern rest with
    | some (before, after) => some (first :: before, after)
    | none => if pattern.isPrefixOf (first :: rest) then some ([], first :: rest) else none

variable {pattern text before after : List α}

/-- What is cut is put together again by appending, and the pattern stands at the cut. -/
theorem append_of_rsplit (cut : rsplit pattern text = some (before, after)) :
    text = before ++ after ∧ pattern <+: after := by
  induction text generalizing before with
  | nil =>
    rw [rsplit] at cut
    split at cut
    · cases cut
      rename_i empty
      rw [List.isEmpty_iff.mp empty]
      exact ⟨rfl, List.nil_prefix⟩
    · cases cut
  | cons first rest ih =>
    rw [rsplit] at cut
    split at cut
    · rename_i earlier later found
      cases cut
      obtain ⟨joined, stands⟩ := ih found
      exact ⟨by rw [joined, List.cons_append], stands⟩
    · split at cut
      · cases cut
        exact ⟨rfl, List.isPrefixOf_iff_prefix.mp (by assumption)⟩
      · cases cut

/-- An occurrence on the right stays the last one behind anything. -/
theorem rsplit_append_right (cut : rsplit pattern text = some (before, after)) (left : List α) :
    rsplit pattern (left ++ text) = some (left ++ before, after) := by
  induction left with
  | nil => exact cut
  | cons first left ih => rw [List.cons_append, rsplit, ih, List.cons_append]

private theorem exists_rsplit_of_prefix (stands : pattern <+: text) :
    ∃ before after, rsplit pattern text = some (before, after) := by
  cases text with
  | nil => exact ⟨[], [], by rw [rsplit, List.prefix_nil.mp stands]; rfl⟩
  | cons first rest =>
    rw [rsplit]
    split
    · exact ⟨_, _, rfl⟩
    · exact ⟨_, _, if_pos (List.isPrefixOf_iff_prefix.mpr stands)⟩

/-- The pattern occurs nowhere further right than at the cut. -/
theorem length_le_of_rsplit {left right : List α}
    (cut : rsplit pattern text = some (before, after)) (joined : text = left ++ right)
    (stands : pattern <+: right) : left.length ≤ before.length := by
  obtain ⟨further, rest, found⟩ := exists_rsplit_of_prefix stands
  have whole := rsplit_append_right found left
  rw [← joined, cut, Option.some.injEq, Prod.mk.injEq] at whole
  rw [whole.1, List.length_append]
  omega

private theorem not_prefix_of_rsplit_none {left right : List α}
    (missing : rsplit pattern text = none) (joined : text = left ++ right) : ¬ pattern <+: right := by
  intro stands
  obtain ⟨further, rest, found⟩ := exists_rsplit_of_prefix stands
  rw [joined, rsplit_append_right found left] at missing
  cases missing

/-- A cut that nothing further right contradicts is the one that is found. -/
theorem rsplit_eq_some (stands : pattern <+: after)
    (last : ∀ left right, before ++ after = left ++ right → pattern <+: right →
      left.length ≤ before.length) : rsplit pattern (before ++ after) = some (before, after) := by
  obtain ⟨earlier, rest, found⟩ := exists_rsplit_of_prefix stands
  have whole := rsplit_append_right found before
  obtain ⟨joined, begins⟩ := append_of_rsplit whole
  have bounded := last _ _ joined begins
  rw [List.length_append] at bounded
  have none : earlier = [] := List.length_eq_zero_iff.mp (by omega)
  rw [none, List.append_nil] at joined whole
  rw [whole, List.append_cancel_left joined]

/-- A pattern does not occur where one of its items does not. -/
theorem rsplit_eq_none_of_not_mem {item : α} (needed : item ∈ pattern)
    (missing : item ∉ text) : rsplit pattern text = none := by
  cases cut : rsplit pattern text with
  | none => rfl
  | some parts =>
    obtain ⟨before, after⟩ := parts
    obtain ⟨joined, stands⟩ := append_of_rsplit cut
    rw [joined] at missing
    exact absurd (List.mem_append_right before (stands.subset needed)) missing

/-- A pattern that begins nowhere in a word does not occur in it with a list behind, unless in that list. -/
theorem rsplit_append_eq_none {word rest : List α} (missing : rsplit pattern rest = none)
    (apart : ∀ tail ∈ word.tails, tail ≠ [] → ¬ tail <+: pattern ∧ ¬ pattern <+: tail) :
    rsplit pattern (word ++ rest) = none := by
  induction word with
  | nil => exact missing
  | cons first word ih =>
    rw [List.tails_cons] at apart
    have here := apart (first :: word) (List.mem_cons_self ..) (List.cons_ne_nil _ _)
    rw [List.cons_append, rsplit, ih fun tail member => apart tail (List.mem_cons_of_mem _ member)]
    apply if_neg
    rw [List.isPrefixOf_iff_prefix]
    intro stands
    -- Two starts of one list are starts of each other.
    rcases List.prefix_or_prefix_of_prefix stands (List.prefix_append (first :: word) rest) with
      short | long
    · exact here.2 short
    · exact here.1 long

/-- A pattern that does not overlap with itself is found at the start of a list in which it does not occur again. -/
theorem rsplit_self_append {first : α} {word rest : List α} (missing : rsplit (first :: word) rest = none)
    (alone : ∀ tail ∈ word.tails, tail ≠ [] → ¬ tail <+: first :: word ∧ ¬ first :: word <+: tail) :
    rsplit (first :: word) (first :: word ++ rest) = some ([], first :: word ++ rest) := by
  rw [List.cons_append, rsplit, rsplit_append_eq_none missing alone]
  exact if_pos (List.isPrefixOf_iff_prefix.mpr (List.prefix_append (first :: word) rest))

/-- Behind a list in which the pattern does not occur, and into which it does not reach, it occurs where it did. -/
theorem rsplit_append_left {right : List α} (missing : rsplit pattern right = none)
    (apart : ∀ left, left ≠ [] → left <:+ text → pattern <+: left ++ right → pattern <+: left) :
    rsplit pattern (text ++ right) = (rsplit pattern text).map fun parts => (parts.1, parts.2 ++ right) := by
  induction text with
  | nil =>
    rw [List.nil_append, missing, rsplit]
    split
    · rename_i empty
      -- The empty pattern occurs everywhere.
      rw [List.isEmpty_iff.mp empty] at missing
      exact absurd List.nil_prefix (not_prefix_of_rsplit_none missing (List.nil_append right).symm)
    · rfl
  | cons first rest ih =>
    have later := ih fun left occupied ends => apart left occupied (ends.trans (List.suffix_cons _ _))
    have here : pattern.isPrefixOf (first :: (rest ++ right)) = pattern.isPrefixOf (first :: rest) := by
      rw [Bool.eq_iff_iff, List.isPrefixOf_iff_prefix, List.isPrefixOf_iff_prefix]
      exact ⟨apart (first :: rest) (List.cons_ne_nil _ _) (List.suffix_refl _),
        fun stands => stands.trans (List.prefix_append _ _)⟩
    rw [List.cons_append, rsplit, rsplit, later, here]
    cases rsplit pattern rest with
    | some parts => rfl
    | none =>
      dsimp only [Option.map]
      split <;> rfl

end LastOccurrence
