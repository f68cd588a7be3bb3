import FerroProtocols.Lib.Interleaving

/-! The states of a run, moment by moment, and values that carry stamps. -/

namespace Interleaving

section Moments

variable {ι σ π ε : Type} [DecidableEq ι] {program : Program ι σ π ε} {start : State ι σ π} {events : List (ι × ε)}

/-- The state at a moment: after so many of the turns. -/
def stateAt (program : Program ι σ π ε) (start : State ι σ π) (events : List (ι × ε)) (moment : Nat) : State ι σ π :=
  run program start (events.take moment)

/-- From a moment to the next one takes one turn. -/
theorem stateAt_succ {moment : Nat} {event : ι × ε} (next : events[moment]? = some event) :
    stateAt program start events (moment + 1) = turn program (stateAt program start events moment) event := by
  rw [stateAt, List.take_add_one, next, run_append]
  rfl

/-- After the last turn nothing happens. -/
theorem stateAt_succ_of_none {moment : Nat} (ended : events[moment]? = none) :
    stateAt program start events (moment + 1) = stateAt program start events moment := by
  rw [stateAt, List.take_add_one, ended, Option.toList_none, List.append_nil]
  rfl

/-- What holds at a moment, is kept by each turn and is kept by waiting holds from then on. -/
theorem stateAt_invariant {holds : Nat → State ι σ π → Prop} {first : Nat}
    (initial : holds first (stateAt program start events first))
    (step : ∀ moment event, first ≤ moment → events[moment]? = some event →
      holds moment (stateAt program start events moment) →
      holds (moment + 1) (turn program (stateAt program start events moment) event))
    (wait : ∀ moment state, holds moment state → holds (moment + 1) state) {moment : Nat} (later : first ≤ moment) :
    holds moment (stateAt program start events moment) := by
  induction later with
  | refl => exact initial
  | @step moment later ih =>
    cases next : events[moment]? with
    | none =>
      rw [stateAt_succ_of_none next]
      exact wait moment _ ih
    | some event =>
      rw [stateAt_succ next]
      exact step moment event later next ih

end Moments

section Stamps

variable {β γ : Type} {value : Nat → β} {stamp : β → γ}

/-- A value that gets a new stamp with each change is the same between two moments at which it has the same stamp. -/
theorem constant_of_stamp
    (fresh : ∀ moment, value (moment + 1) ≠ value moment →
      ∀ earlier ≤ moment, stamp (value earlier) ≠ stamp (value (moment + 1)))
    {first last : Nat} (ordered : first ≤ last) (same : stamp (value first) = stamp (value last)) {moment : Nat}
    (after : first ≤ moment) (before : moment ≤ last) : value moment = value first := by
  -- Induction on the last moment: a change right before it would have brought a stamp that was there at the first.
  induction ordered generalizing moment with
  | refl => rw [Nat.le_antisymm before after]
  | @step last ordered ih =>
    have unchanged : value (last + 1) = value last := by
      by_contra changed
      exact fresh last changed first ordered same
    rw [unchanged] at same
    rcases Nat.lt_or_ge last moment with final | inner
    · have now : moment = last + 1 := by omega
      rw [now, unchanged]
      exact ih same ordered (Nat.le_refl last)
    · exact ih same after inner

end Stamps

end Interleaving
