import Mathlib.Data.List.Basic

/-!
Regular expressions over classes of symbols, matched against a whole text by derivatives.
-/

/-- A pattern over symbols. -/
inductive Regex (α : Type) where
  -- Nothing matches.
  | fail
  -- The empty text.
  | empty
  -- One symbol of a class.
  | symbol (inside : α → Bool)
  | cat (first second : Regex α)
  | alt (left right : Regex α)
  | star (inner : Regex α)

namespace Regex

variable {α : Type}

/-- One or more matches. -/
def plus (inner : Regex α) : Regex α := cat inner (star inner)

/-- A match, or the empty text. -/
def optional (inner : Regex α) : Regex α := alt inner empty

/-- One or more matches with another pattern between them. -/
def separated (sep inner : Regex α) : Regex α := cat inner (star (cat sep inner))

/-- The empty text matches. -/
def nullable : Regex α → Bool
  | fail => false
  | empty => true
  | symbol _ => false
  | cat first second => first.nullable && second.nullable
  | alt left right => left.nullable || right.nullable
  | star _ => true

/-- The pattern of what may follow a symbol. -/
def derive (next : α) : Regex α → Regex α
  | fail => fail
  | empty => fail
  | symbol inside => if inside next then empty else fail
  | cat first second =>
    if first.nullable then alt (cat (first.derive next) second) (second.derive next)
    else cat (first.derive next) second
  | alt left right => alt (left.derive next) (right.derive next)
  | star inner => cat (inner.derive next) (star inner)

/-- The whole text matches. -/
def accepts (pattern : Regex α) : List α → Bool
  | [] => pattern.nullable
  | next :: rest => (pattern.derive next).accepts rest

end Regex
