import Mathlib.Data.List.Basic

/-!
Sequences of events of which each meets a condition where it happens.
-/

namespace Runs

variable {σ ε : Type} {step : σ → ε → σ} {meets : σ → ε → Prop}

/-- Every event meets a condition in the state that the events before it lead to. -/
def Along (step : σ → ε → σ) (meets : σ → ε → Prop) : σ → List ε → Prop
  | _, [] => True
  | state, event :: rest => meets state event ∧ Along step meets (step state event) rest

/-- Whether every event meets the condition is found out by running them. -/
instance Along.instDecidable [∀ state event, Decidable (meets state event)] :
    (state : σ) → (events : List ε) → Decidable (Along step meets state events)
  | _, [] => isTrue trivial
  | state, event :: rest =>
    have := instDecidable (step state event) rest
    inferInstanceAs (Decidable (meets state event ∧ Along step meets (step state event) rest))

variable {state : σ} {events : List ε}

/-- Events that meet the condition, and one more. -/
theorem along_concat {event : ε} : Along step meets state (events ++ [event]) ↔
    Along step meets state events ∧ meets (events.foldl step state) event := by
  induction events generalizing state with
  | nil => exact and_comm
  | cons first rest ih =>
    rw [List.cons_append, Along, Along, ih, and_assoc]
    rfl

/-- A condition on the events alone can be added. -/
theorem Along.and_of_forall {allowed : ε → Prop}
    (along : Along step meets state events) (all : ∀ event ∈ events, allowed event) :
    Along step (fun state event => meets state event ∧ allowed event) state events := by
  induction events generalizing state with
  | nil => trivial
  | cons event rest ih =>
    refine ⟨⟨along.1, all event List.mem_cons_self⟩, ih along.2 fun next member => ?_⟩
    exact all next (List.mem_cons_of_mem event member)

/-- Every event meets the condition somewhere. -/
theorem Along.exists_of_mem (along : Along step meets state events) {event : ε}
    (member : event ∈ events) : ∃ reached, meets reached event := by
  induction events generalizing state with
  | nil => cases member
  | cons first rest ih =>
    rcases List.mem_cons.mp member with rfl | later
    · exact ⟨state, along.1⟩
    · exact ih along.2 later

/-- What every event preserves that meets the condition holds after all of them. -/
theorem Along.invariant {motive : σ → Prop}
    (keeps : ∀ state event, motive state → meets state event → motive (step state event))
    (along : Along step meets state events) (initial : motive state) : motive (events.foldl step state) := by
  -- The induction moves the start of the run past its first event.
  induction events generalizing state with
  | nil => exact initial
  | cons event rest ih => exact ih along.2 (keeps state event initial along.1)

/-- What holds of the past and the state it leads to holds after all events, if every event that meets the condition
keeps it. -/
theorem Along.history {start : σ} {motive : List ε → σ → Prop} (initial : motive [] start)
    (keeps : ∀ past event, motive past (past.foldl step start) → meets (past.foldl step start) event →
      motive (past ++ [event]) (step (past.foldl step start) event))
    {events : List ε} (along : Along step meets start events) : motive events (events.foldl step start) := by
  -- The past grows by one event while the events to come get fewer.
  have onward : ∀ coming past, motive past (past.foldl step start) →
      Along step meets (past.foldl step start) coming →
      motive (past ++ coming) ((past ++ coming).foldl step start) := by
    intro coming
    induction coming with
    | nil =>
      intro past holds _
      rw [List.append_nil]
      exact holds
    | cons event rest ih =>
      intro past holds later
      have next := ih (past ++ [event]) (by
        rw [List.foldl_append]
        exact keeps past event holds later.1) (by
        rw [List.foldl_append]
        exact later.2)
      rw [List.append_assoc] at next
      exact next
  exact onward events [] initial along

section Collect

variable {β : Type} {brings : σ → ε → List β}

/-- What events bring, each in the state that the events before it lead to. -/
def collect (step : σ → ε → σ) (brings : σ → ε → List β) : σ → List ε → List β
  | _, [] => []
  | state, event :: rest => brings state event ++ collect step brings (step state event) rest

private theorem collect_append (state : σ) (events later : List ε) : collect step brings state (events ++ later) =
      collect step brings state events ++ collect step brings (events.foldl step state) later := by
  induction events generalizing state with
  | nil => rfl
  | cons event rest ih => rw [List.cons_append, collect, ih, collect, List.append_assoc, List.foldl_cons]

/-- What one more event brings comes last. -/
theorem collect_concat (state : σ) (events : List ε) (event : ε) : collect step brings state (events ++ [event]) =
      collect step brings state events ++ brings (events.foldl step state) event := by
  rw [collect_append, collect, collect, List.append_nil]

end Collect

end Runs
