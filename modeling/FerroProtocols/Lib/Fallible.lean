import Mathlib.Logic.Basic

/-! Computations that can fail. -/

namespace Fallible

variable {ε α β γ δ : Type}

/-- One computation after another succeeds if both do. -/
theorem bind_eq_ok {first : Except ε α} {next : α → Except ε β} {result : β} :
    (first >>= next) = .ok result ↔ ∃ value, first = .ok value ∧ next value = .ok result := by
  cases first with
  | error error => exact ⟨fun impossible => (by cases impossible), fun ⟨_, impossible, _⟩ => (by cases impossible)⟩
  | ok value =>
    refine ⟨fun succeeds => ⟨value, rfl, succeeds⟩, ?_⟩
    rintro ⟨_, same, succeeds⟩
    cases same
    exact succeeds

/-- A computation that gives a value succeeds with it. -/
theorem ok_of_toOption {run : Except ε α} {value : α} (ran : run.toOption = some value) : run = .ok value := by
  cases run with
  | error error => cases ran
  | ok other => exact congrArg Except.ok (Option.some.inj ran)

/-- A computation that gives something succeeds. -/
theorem exists_of_isSome {run : Except ε α} (ran : run.toOption.isSome = true) : ∃ value, run = .ok value :=
  (Option.isSome_iff_exists.mp ran).imp fun _ => ok_of_toOption

/-- A computation of which something is seen succeeds with a value of which it is seen. -/
theorem exists_of_toOption_map {run : Except ε α} {view : α → β} {seen : β}
    (ran : run.toOption.map view = some seen) :
    ∃ value, run = .ok value ∧ view value = seen := by
  obtain ⟨value, found, same⟩ := Option.map_eq_some_iff.mp ran
  exact ⟨value, ok_of_toOption found, same⟩

/-- What a computation gives after a change of its value. -/
theorem exists_of_map_eq_ok {run : Except ε α} {change : α → β} {value : β} (mapped : run.map change = .ok value) :
    ∃ found, run = .ok found ∧ change found = value := by
  cases run with
  | error error => cases mapped
  | ok found => exact ⟨found, rfl, Except.ok.inj mapped⟩

/-- A computation in two steps whose values are viewed otherwise, step by step. -/
theorem bind_map {first : Except ε α} {second : Except ε γ} {change : α → γ} {finish : β → δ}
    {next : α → Except ε β} {other : γ → Except ε δ} (begun : second = first.map change)
    (same : ∀ value, other (change value) = (next value).map finish) :
    (second >>= other) = (first >>= next).map finish := by
  rw [begun]
  cases first with
  | error error => rfl
  | ok value => exact same value

/-- A computation whose value is viewed as it is. -/
theorem map_id_eq (first : Except ε α) : first = first.map id := by cases first <;> rfl

end Fallible
