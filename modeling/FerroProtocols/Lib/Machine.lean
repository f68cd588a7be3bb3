import Mathlib.Data.List.Basic

/-! Deterministic machines that step until they halt, and ghost state carried beside them. -/

/-- What one step of a machine does. -/
inductive Transition (σ ρ : Type*) where
  -- The machine stops with a result.
  | halt (result : ρ)
  -- The machine continues from another state.
  | go (state : σ)

/-- A machine whose steps lower a measure. -/
structure Machine (σ ρ : Type*) where
  -- One step from a state.
  step : σ → Transition σ ρ
  -- How far a state is from halting, at most.
  measure : σ → Nat
  -- No step repeats or raises the measure.
  decreases : ∀ {state next}, step state = .go next → measure next < measure state

namespace Machine

variable {σ ρ γ : Type*} (machine : Machine σ ρ)

/-- Step until the machine halts. -/
def run (state : σ) : ρ :=
  match _stepped : machine.step state with
  | .halt result => result
  | .go next => run next
termination_by machine.measure state
decreasing_by exact machine.decreases _stepped

/-- The states a run from one state passes through. -/
inductive Reaches (start : σ) : σ → Prop where
  | start : Reaches start start
  | step {state next : σ} : Reaches start state → machine.step state = .go next → Reaches start next

variable {machine} {state : σ}

/-- A run from a halting state is its result. -/
theorem run_halt {result : ρ} (halts : machine.step state = .halt result) : machine.run state = result := by
  rw [run]
  split <;> simp_all

/-- A run goes on from the state one step leads to. -/
theorem run_go {next : σ} (steps : machine.step state = .go next) : machine.run state = machine.run next := by
  rw [run]
  split <;> simp_all

/-- What holds at the start and survives every step holds of every state reached. -/
theorem Reaches.rule {start : σ} (reached : machine.Reaches start state) (holds : σ → Prop) (starts : holds start)
    (keeps : ∀ before after, holds before → machine.step before = .go after → holds after) : holds state := by
  induction reached with
  | start => exact starts
  | step _ steps ih => exact keeps _ _ ih steps

/-- A run returns what it returns from any state it reaches. -/
theorem Reaches.run_eq {start : σ} (reached : machine.Reaches start state) :
    machine.run start = machine.run state := by
  induction reached with
  | start => rfl
  | step _ steps ih => rw [ih, run_go steps]

/-- A run halts in a state it reaches, with the result it returns. -/
theorem exists_halt (machine : Machine σ ρ) (start : σ) :
    ∃ last, machine.Reaches start last ∧ machine.step last = .halt (machine.run start) := by
  -- The measure bounds the steps still to come from any state on the way.
  have fromReached : ∀ bound state, machine.measure state < bound → machine.Reaches start state →
      ∃ last, machine.Reaches start last ∧ machine.step last = .halt (machine.run state) := by
    intro bound
    induction bound with
    | zero =>
      intro state impossible
      exact absurd impossible (Nat.not_lt_zero _)
    | succ bound ih =>
      intro state within reached
      cases steps : machine.step state with
      | halt result =>
        rw [run_halt steps]
        exact ⟨state, reached, steps⟩
      | go next =>
        have lower := machine.decreases steps
        rw [run_go steps]
        exact ih next (by omega) (reached.step steps)
  exact fromReached _ start (Nat.lt_succ_self _) .start

/-- What survives every step and then holds of each result holds of the result of a run. -/
theorem run_rule (holds : σ → Prop) (returns : ρ → Prop) {start : σ} (starts : holds start)
    (keeps : ∀ before after, holds before → machine.step before = .go after → holds after)
    (ends : ∀ last result, holds last → machine.step last = .halt result → returns result) :
    returns (machine.run start) := by
  obtain ⟨last, reached, halts⟩ := exists_halt machine start
  exact ends last _ (reached.rule holds starts keeps) halts

/-- The machine with a ghost beside its state, updated from the state each step starts in. -/
def ghost (machine : Machine σ ρ) (note : σ → γ → γ) : Machine (σ × γ) (ρ × γ) where
  step := fun (state, seen) =>
    match machine.step state with
    | .halt result => .halt (result, note state seen)
    | .go next => .go (next, note state seen)
  measure := fun (state, _) => machine.measure state
  decreases := by
    rintro ⟨state, seen⟩ ⟨next, later⟩ steps
    dsimp only at steps
    split at steps
    · cases steps
    · rename_i after stepped
      simp only [Transition.go.injEq, Prod.mk.injEq] at steps
      exact machine.decreases (steps.1 ▸ stepped)

/-- A step of the machine with its ghost is a step of the machine. -/
theorem ghost_step_go {note : σ → γ → γ} {next : σ} {seen later : γ} :
    (machine.ghost note).step (state, seen) = .go (next, later) ↔
      machine.step state = .go next ∧ later = note state seen := by
  simp only [ghost]
  cases machine.step state with
  | halt result => simp
  | go after => simp [eq_comm]

/-- The machine with its ghost halts when the machine does. -/
theorem ghost_step_halt {note : σ → γ → γ} {result : ρ} {seen later : γ} :
    (machine.ghost note).step (state, seen) = .halt (result, later) ↔
      machine.step state = .halt result ∧ later = note state seen := by
  simp only [ghost]
  cases machine.step state with
  | halt returned => simp [eq_comm]
  | go after => simp

/-- A ghost does not change what the machine returns. -/
theorem ghost_run (machine : Machine σ ρ) (note : σ → γ → γ) (state : σ) (seen : γ) :
    ((machine.ghost note).run (state, seen)).1 = machine.run state := by
  -- From every state on the way the machine alone would still return the same result.
  have onTheWay : ∀ pair, (machine.ghost note).Reaches (state, seen) pair →
      machine.run pair.1 = machine.run state := by
    intro pair reached
    induction reached with
    | start => rfl
    | step _ steps ih => rw [← ih, run_go (ghost_step_go.mp steps).1]
  obtain ⟨⟨last, sofar⟩, reached, halts⟩ := exists_halt (machine.ghost note) (state, seen)
  rw [← onTheWay _ reached, run_halt (ghost_step_halt.mp halts).1]

end Machine
