import Mathlib.Data.List.Basic

/-! Records that are filled field by field from named values, in the order in which the values come. -/

namespace FieldVisitor

variable {φ ν ε α : Type}

/-- Fill a field that has not been filled yet. -/
def take (duplicate : ε) (decode : ν → Except ε α) (slot : Option α) (value : ν) : Except ε (Option α) :=
  match slot with
  | some _ => .error duplicate
  | none => (decode value).map some

/-- Fill a record from all entries, up to the first error. -/
def visitAll (visit : φ → String → ν → Except ε φ) : φ → List (String × ν) → Except ε φ
  | record, [] => .ok record
  | record, (name, value) :: rest =>
    match visit record name value with
    | .error error => .error error
    | .ok next => visitAll visit next rest

/-- A field of a record is filled by the entry of one name and by no other. -/
structure Fills (visit : φ → String → ν → Except ε φ) (slot : φ → Option α) (name : String)
    (decode : ν → Except ε α) : Prop where
  here : ∀ {record value next}, visit record name value = .ok next →
    slot record = none ∧ ∃ found, decode value = .ok found ∧ slot next = some found
  elsewhere : ∀ {record other value next}, other ≠ name → visit record other value = .ok next →
    slot next = slot record

/-- A field that could be filled was empty, and has the decoded value. -/
theorem take_eq_ok {duplicate : ε} {decode : ν → Except ε α} {slot filled : Option α} {value : ν}
    (took : take duplicate decode slot value = .ok filled) :
    slot = none ∧ ∃ found, decode value = .ok found ∧ filled = some found := by
  cases slot with
  | some _ => cases took
  | none =>
    cases decoded : decode value with
    | error error =>
      simp only [take, decoded] at took
      cases took
    | ok found =>
      simp only [take, decoded] at took
      cases took
      exact ⟨rfl, found, rfl, rfl⟩

section Visits

variable {visit : φ → String → ν → Except ε φ} {slot : φ → Option α} {name : String}
  {decode : ν → Except ε α} {record final : φ} {entries : List (String × ν)}

/-- Without an entry of its name a field stays as it was. -/
theorem Fills.of_lookup_none (fills : Fills visit slot name decode)
    (visited : visitAll visit record entries = .ok final) (absent : entries.lookup name = none) :
    slot final = slot record := by
  induction entries generalizing record with
  | nil =>
    cases visited
    rfl
  | cons entry rest ih =>
    obtain ⟨key, value⟩ := entry
    -- The first entry is of another name.
    rw [List.lookup_cons] at absent
    split at absent
    · cases absent
    · rename_i other
      simp only [visitAll] at visited
      split at visited
      · cases visited
      · rename_i next here
        have different : key ≠ name := fun same => by simp [same] at other
        exact (ih visited absent).trans (fills.elsewhere different here)

/-- A field with an entry of its name was empty, and has the value of that entry. -/
theorem Fills.of_lookup_some (fills : Fills visit slot name decode)
    (visited : visitAll visit record entries = .ok final) {value : ν} (present : entries.lookup name = some value) :
    slot record = none ∧ ∃ found, decode value = .ok found ∧ slot final = some found := by
  induction entries generalizing record value with
  | nil => cases present
  | cons entry rest ih =>
    obtain ⟨key, first⟩ := entry
    simp only [visitAll] at visited
    split at visited
    · cases visited
    · rename_i next here
      rw [List.lookup_cons] at present
      split at present
      · rename_i same
        have equal : name = key := by simpa using same
        subst equal
        cases present
        obtain ⟨empty, found, decoded, filled⟩ := fills.here here
        refine ⟨empty, found, decoded, ?_⟩
        cases again : rest.lookup name with
        | none => exact (fills.of_lookup_none visited again).trans filled
        | some other =>
          -- A second entry of the name would have been an error.
          rw [(ih visited again).1] at filled
          cases filled
      · rename_i other
        have different : key ≠ name := fun same => by simp [same] at other
        rw [← fills.elsewhere different here]
        exact ih visited present

end Visits

end FieldVisitor
