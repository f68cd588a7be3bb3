import Mathlib.Data.List.Basic

/-! Incremental parsers, and why the boundaries of the chunks they are fed cannot be observed. -/

/-- What a parser answers when it looks at the input received so far. -/
inductive ParseStep (ε α : Type*) where
  -- The front of the input is not yet a whole item.
  | needMore
  -- The front of the input can never become an item.
  | failed (error : ε)
  -- The first `size` symbols are a whole item.
  | item (value : α) (size : Nat)
  deriving DecidableEq

/-- A parser whose verdicts survive further input and whose items occupy input they were given. -/
structure StreamParser (σ ε α : Type*) where
  -- The verdict on the input received so far.
  step : List σ → ParseStep ε α
  -- Only a request for more may be revised when more arrives.
  stable : ∀ front back, step front ≠ .needMore → step (front ++ back) = step front
  -- An item takes at least one symbol, and none that has not arrived.
  sized : ∀ {input value size}, step input = .item value size → 0 < size ∧ size ≤ input.length

/-- What is left when a parser has taken every item it can. -/
structure Drained (σ ε α : Type*) where
  -- The items in the order they were taken.
  items : List α
  -- The failure the parser stopped at, or nothing when it is waiting for more input.
  failure : Option ε
  -- The input no item has taken.
  rest : List σ
  deriving DecidableEq

namespace StreamParser

variable {σ ε α : Type*} (parser : StreamParser σ ε α)

/-- Take items off the front until the parser fails or asks for more. -/
def drain (input : List σ) : Drained σ ε α :=
  match _found : parser.step input with
  | .needMore => ⟨[], none, input⟩
  | .failed error => ⟨[], some error, input⟩
  | .item value size =>
    let tail := drain (input.drop size)
    ⟨value :: tail.items, tail.failure, tail.rest⟩
termination_by input.length
decreasing_by
  -- An item is never empty, so what follows it is strictly shorter.
  have sized := parser.sized _found
  simp only [List.length_drop]
  omega

variable {parser} {input : List σ}

/-- A parser that asks for more takes nothing. -/
theorem drain_needMore (starved : parser.step input = .needMore) : parser.drain input = ⟨[], none, input⟩ := by
  rw [drain]
  split <;> simp_all

/-- A parser that fails takes nothing. -/
theorem drain_failed {error : ε} (fails : parser.step input = .failed error) :
    parser.drain input = ⟨[], some error, input⟩ := by
  rw [drain]
  split <;> simp_all

/-- A whole item on the front is taken before the rest is drained. -/
theorem drain_item {value : α} {size : Nat} (takes : parser.step input = .item value size) :
    parser.drain input = ⟨value :: (parser.drain (input.drop size)).items,
      (parser.drain (input.drop size)).failure, (parser.drain (input.drop size)).rest⟩ := by
  rw [drain]
  split <;> simp_all

/-- An item taken off the front is taken off any longer input too. -/
theorem step_append_item {front : List σ} {value : α} {size : Nat}
    (takes : parser.step front = .item value size) (back : List σ) :
    parser.step (front ++ back) = .item value size := by
  rw [parser.stable front back (by simp [takes]), takes]

/-- A failure is the same failure on any longer input. -/
theorem step_append_failed {front : List σ} {error : ε} (fails : parser.step front = .failed error) (back : List σ) :
    parser.step (front ++ back) = .failed error := by
  rw [parser.stable front back (by simp [fails]), fails]

/--
Draining two pieces in turn is draining them joined.

Whatever the first piece left over, a failure included, is looked at again with the second piece behind it.
-/
theorem drain_append (front back : List σ) : parser.drain (front ++ back) =
      ⟨(parser.drain front).items ++ (parser.drain ((parser.drain front).rest ++ back)).items,
        (parser.drain ((parser.drain front).rest ++ back)).failure,
        (parser.drain ((parser.drain front).rest ++ back)).rest⟩ := by
  -- The recursion is on the first piece, which shrinks with every item taken.
  induction size : front.length using Nat.strongRecOn generalizing front with
  | _ length ih =>
    cases verdict : parser.step front with
    | needMore => simp [drain_needMore verdict]
    | failed error => simp [drain_failed verdict]
    | item value width =>
      obtain ⟨positive, within⟩ := parser.sized verdict
      have shorter : (front.drop width).length < length := by
        rw [List.length_drop]
        omega
      have dropped : (front ++ back).drop width = front.drop width ++ back := List.drop_append_of_le_length within
      rw [drain_item (step_append_item verdict back), drain_item verdict, dropped,
        ih _ shorter (front.drop width) rfl]
      simp

/-- Pieces that are each a whole item, whatever follows, are taken one after the other. -/
theorem drain_pieces {pieces : List (List σ × α)}
    (whole : ∀ piece ∈ pieces, ∀ back, parser.step (piece.1 ++ back) = .item piece.2 piece.1.length)
    (back : List σ) :
    parser.drain (pieces.flatMap Prod.fst ++ back) =
      ⟨pieces.map Prod.snd ++ (parser.drain back).items, (parser.drain back).failure, (parser.drain back).rest⟩ := by
  induction pieces with
  | nil => rfl
  | cons piece rest ih =>
    have takes := whole piece List.mem_cons_self (rest.flatMap Prod.fst ++ back)
    have later := ih fun other member => whole other (List.mem_cons_of_mem piece member)
    rw [List.flatMap_cons, List.append_assoc, drain_item takes, List.drop_left, later]
    rfl

/-- A parser that judges an item by the item alone cuts its input into whole items and the rest it leaves. -/
theorem exists_pieces (whole : ∀ {input value size}, parser.step input = .item value size →
      parser.step (input.take size) = .item value size) (input : List σ) :
    ∃ pieces : List (List σ × α), input = pieces.flatMap Prod.fst ++ (parser.drain input).rest ∧
      (parser.drain input).items = pieces.map Prod.snd ∧
      ∀ piece ∈ pieces, parser.step piece.1 = .item piece.2 piece.1.length := by
  induction size : input.length using Nat.strongRecOn generalizing input with
  | _ length ih =>
    cases verdict : parser.step input with
    | needMore =>
      rw [drain_needMore verdict]
      exact ⟨[], rfl, rfl, by simp⟩
    | failed error =>
      rw [drain_failed verdict]
      exact ⟨[], rfl, rfl, by simp⟩
    | item value width =>
      obtain ⟨positive, within⟩ := parser.sized verdict
      have shorter : (input.drop width).length < length := by
        rw [List.length_drop]
        omega
      obtain ⟨pieces, cut, items, each⟩ := ih _ shorter (input.drop width) rfl
      refine ⟨(input.take width, value) :: pieces, ?_, ?_, ?_⟩
      · rw [drain_item verdict, List.flatMap_cons, List.append_assoc, ← cut, List.take_append_drop]
      · rw [drain_item verdict, List.map_cons, items]
      · intro piece member
        rcases List.mem_cons.mp member with rfl | later
        · rw [whole verdict, List.length_take_of_le within]
        · exact each piece later

/-- What is left without a failure is the beginning of an item. -/
theorem step_rest (clean : (parser.drain input).failure = none) :
    parser.step (parser.drain input).rest = .needMore := by
  induction size : input.length using Nat.strongRecOn generalizing input with
  | _ length ih =>
    cases verdict : parser.step input with
    | needMore =>
      rw [drain_needMore verdict]
      exact verdict
    | failed error =>
      rw [drain_failed verdict] at clean
      cases clean
    | item value width =>
      obtain ⟨positive, within⟩ := parser.sized verdict
      have shorter : (input.drop width).length < length := by
        rw [List.length_drop]
        omega
      rw [drain_item verdict] at clean ⊢
      exact ih _ shorter clean rfl

end StreamParser
