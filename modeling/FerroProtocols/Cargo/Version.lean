import FerroProtocols.Lib.Regex

/-! The pattern that versions must match. -/

namespace FerroProtocols.Cargo

/-- What the tables of the pattern library count as a decimal digit; for ASCII they agree with everyone. -/
structure DigitTable where
  isDecimal : Char → Bool
  ascii : ∀ ch : Char, ch.toNat < 128 → isDecimal ch = ch.isDigit

/-- The table with the digits of ASCII only. -/
def DigitTable.asciiOnly : DigitTable := ⟨Char.isDigit, fun _ _ => rfl⟩

namespace Semver

open Regex

/-- One character. -/
def char (ch : Char) : Regex Char := symbol fun next => decide (next = ch)

/-- A digit of any script. -/
def digit (table : DigitTable) : Regex Char := symbol table.isDecimal

/-- Zero, or a number that does not start with it. -/
def numeric (table : DigitTable) : Regex Char :=
  alt (char '0')
    (cat (symbol fun next => decide ('1' ≤ next ∧ next ≤ '9')) (star (digit table)))

/-- An ASCII letter or a hyphen. -/
def letter : Regex Char :=
  symbol fun next => decide ('a' ≤ next ∧ next ≤ 'z' ∨ 'A' ≤ next ∧ next ≤ 'Z' ∨ next = '-')

/-- An ASCII letter, an ASCII digit or a hyphen. -/
def identifierCharacter : Regex Char :=
  symbol fun next => decide ('0' ≤ next ∧ next ≤ '9' ∨ 'a' ≤ next ∧ next ≤ 'z' ∨
    'A' ≤ next ∧ next ≤ 'Z' ∨ next = '-')

/-- A part of a pre-release. -/
def prereleaseIdentifier (table : DigitTable) : Regex Char :=
  alt (numeric table) (cat (star (digit table)) (cat letter (star identifierCharacter)))

/-- The whole pattern; it is anchored at both ends. -/
def semver (table : DigitTable) : Regex Char :=
  cat (numeric table) (cat (char '.') (cat (numeric table) (cat (char '.') (cat (numeric table)
    (cat (optional (cat (char '-') (separated (char '.') (prereleaseIdentifier table))))
      (optional (cat (char '+') (separated (char '.') (plus identifierCharacter)))))))))

end Semver

/-- A version is accepted. -/
def isValidSemver (table : DigitTable) (version : String) : Bool :=
  (Semver.semver table).accepts version.toList

example : isValidSemver .asciiOnly "1.2.3-rc.1+sha.abc" = true := by decide +kernel

example : isValidSemver .asciiOnly "1.0.0-" = false := by decide +kernel

end FerroProtocols.Cargo
