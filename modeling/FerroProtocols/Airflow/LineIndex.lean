import FerroProtocols.Airflow.Ast

/-! Lines and columns of a source, by the offsets at which its lines begin. -/

namespace FerroProtocols.Airflow

/-- The bytes of a source. -/
def asBytes (source : String) : List UInt8 := source.toUTF8.data.toList

/-- The number of values of a 32-bit number. -/
def u32Modulus : Nat := 4294967296

/-- A length as a 32-bit number, and the greatest one if it is too long. -/
def toU32 (length : Nat) : Nat := min length (u32Modulus - 1)

/-- The first and the last line of a construct. -/
structure SourceSpan where
  startLine : Nat
  endLine : Nat
  deriving DecidableEq, Repr

/-- Where the lines of a source begin, and its length. -/
structure LineIndex where
  lineStarts : List Nat
  totalLen : Nat

namespace LineIndex

/-- The index of a source: a line begins at its start and after each newline. -/
def new (source : String) : LineIndex where
  lineStarts := 0 :: (asBytes source).zipIdx.filterMap fun entry =>
    if entry.1 = 10 then some (toU32 (entry.2 + 1)) else none
  totalLen := toU32 (asBytes source).length

variable (index : LineIndex)

/-- The place of the line that an offset is in, found as a binary search finds it. -/
def lineOf (offset : Nat) : Nat :=
  let place := index.lineStarts.findIdx fun start => decide (offset ≤ start)
  if index.lineStarts[place]? = some offset then place else place - 1

/-- The line and the column of an offset, counted from one. -/
def lineCol (offset : Nat) : Nat × Nat :=
  let clamped := min offset index.totalLen
  let line := index.lineOf clamped
  ((toU32 line + 1) % u32Modulus, (clamped - index.lineStarts[line]?.getD 0 + 1) % u32Modulus)

/-- The lines of a range, whose last byte is the one before its end. -/
def spanOf (range : TextRange) : SourceSpan :=
  let startLine := (index.lineCol range.start).1
  let endLine := (index.lineCol (range.stop - 1)).1
  ⟨startLine, max endLine startLine⟩

end LineIndex

end FerroProtocols.Airflow
