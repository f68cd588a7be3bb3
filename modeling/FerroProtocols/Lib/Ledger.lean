import FerroProtocols.Lib.Interleaving
import Mathlib.Algebra.BigOperators.Ring.Finset
import Mathlib.Algebra.Order.BigOperators.Group.Finset

/-! Accounts over threads that take turns: every thread owes an amount that its point determines. -/

namespace Interleaving

variable {ι σ π ε : Type} [DecidableEq ι] {program : Program ι σ π ε}

/-- What all threads owe together. -/
def total [Fintype ι] (due : π → Int) (state : State ι σ π) : Int :=
  ∑ thread, due (state.points thread)

/-- A turn changes what is owed by what its thread owes more. -/
theorem total_turn [Fintype ι] (due : π → Int) (state : State ι σ π) (event : ι × ε) :
    total due (turn program state event) = total due state +
      (due ((turn program state event).points event.1) - due (state.points event.1)) := by
  -- The summand of the thread is taken out on both sides, and the others agree.
  have others : ∑ thread ∈ Finset.univ.erase event.1, due ((turn program state event).points thread) =
      ∑ thread ∈ Finset.univ.erase event.1, due (state.points thread) := by
    apply Finset.sum_congr rfl
    intro thread member
    rw [turn_points_of_ne (Finset.ne_of_mem_erase member)]
  unfold total
  rw [← Finset.add_sum_erase _ _ (Finset.mem_univ event.1),
    ← Finset.add_sum_erase _ (fun thread => due (state.points thread)) (Finset.mem_univ event.1), others]
  omega

/-- The entries that the turns of a run make, added up. -/
def entries (program : Program ι σ π ε) (entry : State ι σ π → ι × ε → Int) :
    State ι σ π → List (ι × ε) → Int
  | _, [] => 0
  | state, event :: rest => entry state event + entries program entry (turn program state event) rest

/-- A balance that every turn changes by its entry is changed by all the entries of a run. -/
theorem balance_run {motive : State ι σ π → Prop} {allowed : ι × ε → Prop}
    {balance : State ι σ π → Int} {entry : State ι σ π → ι × ε → Int}
    (keeps : ∀ state event, motive state → allowed event → motive (turn program state event))
    (booked : ∀ state event, motive state → allowed event →
      balance (turn program state event) = balance state + entry state event)
    {state : State ι σ π} (initial : motive state) {events : List (ι × ε)} (all : ∀ event ∈ events, allowed event) :
    balance (run program state events) = balance state + entries program entry state events := by
  induction events generalizing state with
  | nil => exact (Int.add_zero _).symm
  | cons event rest ih =>
    have first := all event List.mem_cons_self
    have later :=
      ih (keeps state event initial first) fun next member => all next (List.mem_cons_of_mem event member)
    rw [booked state event initial first] at later
    unfold entries
    exact later.trans (Int.add_assoc _ _ _)

end Interleaving
