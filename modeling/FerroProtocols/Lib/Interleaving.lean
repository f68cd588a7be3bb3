import Mathlib.Data.List.Basic

/-! Threads that take turns on a shared state, each with a point of its own. -/

namespace Interleaving

variable {ι σ π ε : Type}

/-- A shared state, and the point each thread has reached. -/
structure State (ι σ π : Type) where
  shared : σ
  points : ι → π

/-- What a thread does in one turn, given what the environment decides. -/
abbrev Program (ι σ π ε : Type) := ι → ε → σ → π → σ × π

variable [DecidableEq ι]

/-- One turn of a thread. -/
def turn (program : Program ι σ π ε) (state : State ι σ π) (event : ι × ε) : State ι σ π :=
  let (shared, point) := program event.1 event.2 state.shared (state.points event.1)
  ⟨shared, fun thread => if thread = event.1 then point else state.points thread⟩

variable {program : Program ι σ π ε} {state : State ι σ π} {invariant : State ι σ π → Prop}

/-- The thread that takes a turn moves to where its program leads. -/
theorem turn_points_self (state : State ι σ π) (event : ι × ε) : (turn program state event).points event.1 =
      (program event.1 event.2 state.shared (state.points event.1)).2 := if_pos rfl

/-- A turn leaves the other threads where they are. -/
theorem turn_points_of_ne {event : ι × ε} {thread : ι} (other : thread ≠ event.1) :
    (turn program state event).points thread = state.points thread := if_neg other

/-- What holds at the new point of the thread that takes a turn, and at the points of the others, holds at all
points. -/
theorem forall_turn_points {event : ι × ε} {holds : ι → π → Prop}
    (own : holds event.1 (program event.1 event.2 state.shared (state.points event.1)).2)
    (others : ∀ thread, thread ≠ event.1 → holds thread (state.points thread)) (thread : ι) :
    holds thread ((turn program state event).points thread) := by
  by_cases same : thread = event.1
  · rw [same, turn_points_self]
    exact own
  · rw [turn_points_of_ne same]
    exact others thread same

/-- A thread that takes a turn gets to where the program leads it from where it is. -/
theorem turn_eq_of {thread : ι} (event : ε) {shared after : σ}
    {point next : π} (before : state.shared = shared ∧ state.points thread = point)
    (moved : program thread event shared point = (after, next)) :
    (turn program state (thread, event)).shared = after ∧
      (turn program state (thread, event)).points thread = next := by
  have reached : program thread event state.shared (state.points thread) = (after, next) := by
    rw [before.1, before.2, moved]
  exact ⟨congrArg Prod.fst reached, (turn_points_self state _).trans (congrArg Prod.snd reached)⟩

/-- Turns one after the other. -/
def run (program : Program ι σ π ε) (state : State ι σ π) (events : List (ι × ε)) : State ι σ π :=
  events.foldl (turn program) state

/-- One run after another is one run. -/
theorem run_append (program : Program ι σ π ε) (state : State ι σ π) (first second : List (ι × ε)) :
    run program state (first ++ second) = run program (run program state first) second :=
  List.foldl_append

/-- What every turn of a kind preserves holds after every run of such turns. -/
theorem run_invariant_of_forall {allowed : ι × ε → Prop}
    (step : ∀ state event, allowed event → invariant state → invariant (turn program state event))
    (initial : invariant state)
    {events : List (ι × ε)} (all : ∀ event ∈ events, allowed event) : invariant (run program state events) := by
  induction events generalizing state with
  | nil => exact initial
  | cons event rest ih =>
    exact ih (step state event (all event List.mem_cons_self) initial)
      fun later member => all later (List.mem_cons_of_mem event member)

/-- What every turn preserves holds after every run. -/
theorem run_invariant
    (step : ∀ state event, invariant state → invariant (turn program state event)) (initial : invariant state)
    (events : List (ι × ε)) :
    invariant (run program state events) :=
  run_invariant_of_forall (fun state event _ => step state event) initial fun _ _ => trivial

end Interleaving
