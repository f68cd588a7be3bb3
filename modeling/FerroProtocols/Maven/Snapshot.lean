import FerroProtocols.Maven.Coordinate
import Mathlib.Algebra.Order.Ring.Nat

/-! SNAPSHOT versions, and the timestamped versions under which their builds are kept. -/

namespace FerroProtocols.Maven

open Texts

/-- A version that ends in `-SNAPSHOT`. -/
def isSnapshotVersion (version : String) : Bool := (stripSuffix "-SNAPSHOT" version).isSome

/-- A version without that ending. -/
def baseVersion (version : String) : String := (stripSuffix "-SNAPSHOT" version).getD version

/-- A SNAPSHOT version is its base with the ending. -/
theorem baseVersion_append {version : String} (snapshot : isSnapshotVersion version = true) :
    version = baseVersion version ++ "-SNAPSHOT" := by
  obtain ⟨base, found⟩ := Option.isSome_iff_exists.mp snapshot
  rw [baseVersion, found, Option.getD_some]
  exact stripSuffix_eq_some_iff.mp found

/-- A number in decimal, with zeros in front of it up to a width. -/
def padded (width number : Nat) : List Char := (Nat.toDigits 10 number).leftpad width '0'

/-- A reading of the clock, in UTC. -/
structure DateTime where
  year : Int
  month : Nat
  day : Nat
  hour : Nat
  minute : Nat
  -- A leap second is the sixtieth.
  second : Nat
  bounded : month ≤ 12 ∧ day ≤ 31 ∧ hour ≤ 23 ∧ minute ≤ 59 ∧ second ≤ 60
  deriving DecidableEq

namespace DateTime

/-- The year, with a sign where four digits do not suffice. -/
def yearText (year : Int) : List Char :=
  if 0 ≤ year ∧ year ≤ 9999 then padded 4 year.toNat
  else (if year < 0 then '-' else '+') :: padded 4 year.natAbs

/-- `%Y%m%d` -/
def date (time : DateTime) : List Char := yearText time.year ++ padded 2 time.month ++ padded 2 time.day

/-- `%H%M%S` -/
def clock (time : DateTime) : List Char := padded 2 time.hour ++ padded 2 time.minute ++ padded 2 time.second

/-- `yyyyMMdd.HHmmss` -/
def format (time : DateTime) : String := String.ofList (time.date ++ '.' :: time.clock)

/-- `yyyyMMddHHmmss` -/
def formatLastUpdated (time : DateTime) : String := String.ofList (time.date ++ time.clock)

/-- The timestamped version of a build of a SNAPSHOT version. -/
def composeVersion (time : DateTime) (baseSnapshot : String) (buildNumber : Nat) : String :=
  baseVersion baseSnapshot ++ "-" ++ time.format ++ "-" ++ toString buildNumber

end DateTime

section Digits

private theorem isDigit_of_mem_padded {width number : Nat} {ch : Char} (member : ch ∈ padded width number) :
    ch.isDigit = true := by
  rw [padded, List.leftpad, List.mem_append] at member
  rcases member with zero | digit
  · rw [List.eq_of_mem_replicate zero]
    decide
  · exact Nat.isDigit_of_mem_toDigits (by decide) (by decide) digit

private theorem length_padded {width number : Nat} (positive : 0 < width) (fits : number < 10 ^ width) :
    (padded width number).length = width := by
  have short := (Nat.length_toDigits_le_iff (by decide) positive).mpr fits
  rw [padded, List.length_leftpad]
  omega

private theorem isDigit_ne {ch sep : Char} (digit : ch.isDigit = true)
    (other : sep.isDigit = false) : ch ≠ sep := by
  rintro rfl
  rw [digit] at other
  cases other

private theorem isIllegal_of_isDigit {ch : Char} (digit : ch.isDigit = true) : isIllegal ch = false := by
  have range : 48 ≤ ch.toNat ∧ ch.toNat ≤ 57 := by
    have between : (decide (48 ≤ ch.val) && decide (ch.val ≤ 57)) = true := digit
    rw [Bool.and_eq_true, decide_eq_true_eq, decide_eq_true_eq, UInt32.le_iff_toNat_le,
      UInt32.le_iff_toNat_le] at between
    exact between
  have control : isControl ch = false := by
    simp only [isControl, Bool.or_eq_false_iff, Bool.and_eq_false_iff, decide_eq_false_iff_not]
    omega
  simp only [isIllegal, control, Bool.or_false, Bool.or_eq_false_iff, beq_eq_false_iff_ne]
  exact ⟨⟨isDigit_ne digit rfl, isDigit_ne digit rfl⟩, isDigit_ne digit rfl⟩

end Digits

namespace DateTime

variable (time : DateTime)

private theorem length_yearText {year : Int} (fourDigits : 0 ≤ year ∧ year ≤ 9999) : (yearText year).length = 4 := by
  rw [yearText, if_pos fourDigits]
  apply length_padded (by decide)
  omega

/-- The timestamp of a year of four digits has fifteen characters. -/
theorem length_format (fourDigits : 0 ≤ time.year ∧ time.year ≤ 9999) : time.format.toList.length = 15 := by
  obtain ⟨month, day, hour, minute, second⟩ := time.bounded
  rw [format, String.toList_ofList, date, clock]
  simp only [List.length_append, List.length_cons, length_yearText fourDigits]
  rw [length_padded, length_padded, length_padded, length_padded, length_padded]
  all_goals omega

private theorem mem_format {ch : Char} (member : ch ∈ time.format.toList) :
    ch.isDigit = true ∨ ch ∈ ['-', '+', '.'] := by
  rw [format, String.toList_ofList, List.mem_append, List.mem_cons] at member
  have years : ch ∈ yearText time.year → ch.isDigit = true ∨ ch ∈ ['-', '+', '.'] := by
    rw [yearText]
    split
    · exact fun digit => .inl (isDigit_of_mem_padded digit)
    · rw [List.mem_cons]
      rintro (rfl | digit)
      · split <;> simp
      · exact .inl (isDigit_of_mem_padded digit)
  rcases member with inDate | rfl | inClock
  · simp only [date, List.mem_append] at inDate
    rcases inDate with (inYear | digit) | digit
    · exact years inYear
    · exact .inl (isDigit_of_mem_padded digit)
    · exact .inl (isDigit_of_mem_padded digit)
  · exact .inr (by decide)
  · simp only [clock, List.mem_append] at inClock
    rcases inClock with (digit | digit) | digit <;> exact .inl (isDigit_of_mem_padded digit)

/-- A timestamp is no text that begins with another character. -/
theorem format_ne_cons {ch : Char} {rest : List Char} (other : ch.isDigit = false)
    (unsigned : ch ∉ ['-', '+', '.']) : time.format.toList ≠ ch :: rest := by
  intro same
  rcases time.mem_format (same ▸ List.mem_cons_self) with digit | sign
  · exact isDigit_ne digit other rfl
  · exact unsigned sign

variable (buildNumber : Nat)

private theorem mem_of_mem_baseVersion {version : String} {ch : Char} (member : ch ∈ (baseVersion version).toList) :
    ch ∈ version.toList := by
  rw [baseVersion] at member
  cases found : stripSuffix "-SNAPSHOT" version with
  | none => rwa [found, Option.getD_none] at member
  | some base =>
    rw [found, Option.getD_some] at member
    rw [stripSuffix_eq_some_iff.mp found, String.toList_append]
    exact List.mem_append_left _ member

/-- A timestamped version passes the checks of a field. -/
theorem isField_composeVersion {version : String} (valid : IsField version) :
    IsField (time.composeVersion version buildNumber) := by
  have dash : '-' ∈ (time.composeVersion version buildNumber).toList := by simp [composeVersion]
  have other (text : String) (none : '-' ∉ text.toList) : time.composeVersion version buildNumber ≠ text := by
    rintro rfl
    exact none dash
  refine ⟨other _ (by decide), ⟨other _ (by decide), other _ (by decide)⟩, ?_⟩
  intro ch member
  simp only [composeVersion, String.toList_append, List.mem_append] at member
  rcases member with (((inBase | dash) | inStamp) | dash) | digit
  · exact valid.legal ch (mem_of_mem_baseVersion inBase)
  · rw [List.mem_singleton.mp dash]; decide
  · rcases time.mem_format inStamp with digit | sign
    · exact isIllegal_of_isDigit digit
    · have all : ['-', '+', '.'].all (fun sign => isIllegal sign == false) = true := by decide
      exact eq_of_beq (List.all_eq_true.mp all ch sign)
  · rw [List.mem_singleton.mp dash]; decide
  · exact isIllegal_of_isDigit (isDigit_of_mem_toString digit)

end DateTime

end FerroProtocols.Maven
