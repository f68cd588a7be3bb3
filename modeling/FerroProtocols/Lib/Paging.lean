import Mathlib.Data.List.Pairwise
import Mathlib.Data.List.Sort

/-! Sorted names served page by page to a client that follows cursors, while the names may change. -/

namespace Paging

section Following

variable {α ρ σ : Type}

/-- Make the first request, and follow what each answer asks for next; the state changes as given.
The result is all that was served, and the states that were not needed. -/
def follow (serve : ρ → σ → List α × Option ρ) : ρ → List σ → Option (List α × List σ)
  | _, [] => none
  | req, state :: later =>
    match serve req state with
    | (names, none) => some (names, later)
    | (names, some next) => (follow serve next later).map fun rest => (names ++ rest.1, rest.2)

/-- Clients whose requests correspond are served alike. -/
theorem follow_congr {β τ : Type} {serve : ρ → σ → List α × Option ρ}
    {other : β → τ → List α × Option β} (rel : ρ → β → Prop) {states : List σ} (view : σ → τ)
    (alike : ∀ req cursor, rel req cursor → ∀ state ∈ states,
      (serve req state).1 = (other cursor (view state)).1 ∧
        Option.Rel rel (serve req state).2 (other cursor (view state)).2)
    {req : ρ} {cursor : β} (start : rel req cursor) :
    (follow serve req states).map (fun served => (served.1, served.2.map view)) =
      follow other cursor (states.map view) := by
  -- One answer after the other, with the requests corresponding all the way.
  induction states generalizing req cursor with
  | nil => rfl
  | cons state later ih =>
    obtain ⟨names, next⟩ := alike req cursor start state (by simp)
    have rest : ∀ req cursor, rel req cursor →
        (follow serve req later).map (fun served => (served.1, served.2.map view)) =
          follow other cursor (later.map view) := by
      intro req cursor corresponds
      exact ih (fun req cursor same state member => alike req cursor same state (by simp [member]))
        corresponds
    rw [List.map_cons]
    unfold follow
    generalize serve req state = left at names next ⊢
    generalize other cursor (view state) = right at names next ⊢
    obtain ⟨leftNames, leftNext⟩ := left
    obtain ⟨rightNames, rightNext⟩ := right
    cases names
    cases next with
    | none => rfl
    | some corresponds =>
      dsimp only
      rw [← rest _ _ corresponds, Option.map_map, Option.map_map]
      rfl

end Following

section Sorting

variable {α : Type} [LE α] [DecidableLE α]

/-- Names in increasing order. -/
def sorted (names : List α) : List α := names.insertionSort fun left right => left ≤ right

/-- Sorting keeps the names. -/
@[simp] theorem mem_sorted {names : List α} {name : α} : name ∈ sorted names ↔ name ∈ names :=
  List.mem_insertionSort _

variable [LT α] [Std.IsLinearOrder α] [Std.LawfulOrderLT α]

/-- Different names are sorted in strictly increasing order. -/
theorem pairwise_sorted {names : List α} (nodup : names.Nodup) : (sorted names).Pairwise (· < ·) := by
  have weak : (sorted names).Pairwise (· ≤ ·) := List.pairwise_insertionSort _ names
  have different : (sorted names).Nodup := (List.perm_insertionSort _ names).nodup_iff.mpr nodup
  -- Names in weak order that differ are in strict order.
  exact (weak.and different).imp fun both => Std.lt_of_le_of_ne both.1 both.2

end Sorting

section Pages

variable {α : Type} [LE α] [DecidableLE α] [LT α] [DecidableLT α]

/-- A name lies behind a cursor; without a cursor every name does. -/
def Behind (cursor : Option α) (name : α) : Prop := ∀ last ∈ cursor, last < name

/-- The names behind a cursor in increasing order. -/
def behind (names : List α) (cursor : Option α) : List α :=
  match cursor with
  | some last => (sorted names).filter fun name => decide (last < name)
  | none => sorted names

/-- One page: the first names behind a cursor. -/
def page (names : List α) (cursor : Option α) (limit : Nat) : List α := (behind names cursor).take limit

/-- A page, and the cursor of the next one if the page is full. -/
def serve (limit : Nat) (cursor : Option α) (names : List α) : List α × Option (Option α) :=
  let got := page names cursor limit
  (got, if got.length = limit then got.getLast?.map some else none)

variable {cursor : Option α}

/-- The names behind a cursor are those that are greater. -/
theorem mem_behind {names : List α} {name : α} : name ∈ behind names cursor ↔ name ∈ names ∧ Behind cursor name := by
  cases cursor with
  | none | some => simp [behind, Behind]

private theorem page_eq_behind {names : List α} {limit : Nat} (short : (page names cursor limit).length ≠ limit) :
    page names cursor limit = behind names cursor := by
  rw [page, List.length_take] at short
  exact List.take_of_length_le (by omega)

private theorem serve_cases {limit : Nat} (positive : 0 < limit) (cursor : Option α) (names : List α) :
    serve limit cursor names = (behind names cursor, none) ∨ ∃ last, (page names cursor limit).getLast? = some last ∧
        serve limit cursor names = (page names cursor limit, some (some last)) := by
  unfold serve
  by_cases full : (page names cursor limit).length = limit
  · -- A full page is not empty, so it has a last name.
    cases ends : (page names cursor limit).getLast? with
    | none =>
      rw [List.getLast?_eq_none_iff.mp ends] at full
      simp at full
      omega
    | some last =>
      refine .inr ⟨last, rfl, ?_⟩
      dsimp only
      rw [if_pos full, ends, Option.map_some]
  · refine .inl ?_
    dsimp only
    rw [if_neg full, page_eq_behind full]

variable [Std.IsLinearOrder α] [Std.LawfulOrderLT α]

variable {names : List α} {cursor : Option α} {limit : Nat}

private theorem pairwise_behind (nodup : names.Nodup) (cursor : Option α) :
    (behind names cursor).Pairwise (· < ·) := by
  cases cursor with
  | none => exact pairwise_sorted nodup
  | some last => exact (pairwise_sorted nodup).filter _

private theorem behind_last (nodup : names.Nodup) {last : α}
    (ends : (page names cursor limit).getLast? = some last) :
    behind names (some last) = (behind names cursor).drop limit := by
  have ordered := pairwise_behind nodup cursor
  rw [← List.take_append_drop limit (behind names cursor)] at ordered
  obtain ⟨onPage, leftOut, apart⟩ := List.pairwise_append.mp ordered
  have inPage : last ∈ page names cursor limit := List.mem_of_getLast? ends
  have ahead := (mem_behind.mp (List.mem_of_mem_take inPage)).2
  -- Both lists are increasing, so it is enough to compare their names.
  apply List.Pairwise.eq_of_mem_iff (pairwise_behind nodup _) leftOut
  intro name
  rw [mem_behind]
  constructor
  · rintro ⟨member, later⟩
    have greater : last < name := later last rfl
    have inside : name ∈ behind names cursor :=
      mem_behind.mpr ⟨member, fun first from_ => Std.lt_trans (ahead first from_) greater⟩
    rw [← List.take_append_drop limit (behind names cursor)] at inside
    refine (List.mem_append.mp inside).resolve_left fun early => ?_
    -- No name of the page is greater than its last one.
    obtain ⟨before, split⟩ := List.getLast?_eq_some_iff.mp ends
    rw [page] at split
    rw [split] at early onPage
    rcases List.mem_append.mp early with earlier | final
    · exact Std.lt_irrefl (Std.lt_trans greater ((List.pairwise_append.mp onPage).2.2 name earlier last (by simp)))
    · rw [List.mem_singleton.mp final] at greater
      exact Std.lt_irrefl greater
  · intro member
    refine ⟨(mem_behind.mp (List.mem_of_mem_drop member)).1, ?_⟩
    intro other same
    cases same
    exact apart last inPage name member

/-- A walk that ends serves names in strictly increasing order behind its cursor, and among them all
that were there the whole time. -/
theorem follow_serve (positive : 0 < limit) {views : List (List α)} (nodup : ∀ view ∈ views, view.Nodup)
    (ends : follow (serve limit) cursor views = some (names, [])) : names.Pairwise (· < ·) ∧
      (∀ name ∈ names, Behind cursor name ∧ ∃ view ∈ views, name ∈ view) ∧
      ∀ name, Behind cursor name → (∀ view ∈ views, name ∈ view) → name ∈ names := by
  induction views generalizing cursor names with
  | nil => cases ends
  | cons view later ih =>
    have distinct := nodup view (by simp)
    have ordered := pairwise_behind distinct cursor
    unfold follow at ends
    rcases serve_cases positive cursor view with rest | ⟨last, final, full⟩
    · -- The last page has all that is left.
      rw [rest] at ends
      cases ends
      refine ⟨ordered, ?_, ?_⟩
      · intro name member
        have found := mem_behind.mp member
        exact ⟨found.2, view, by simp, found.1⟩
      · intro name ahead throughout
        exact mem_behind.mpr ⟨throughout view (by simp), ahead⟩
    · rw [full] at ends
      obtain ⟨⟨others, unused⟩, followed, same⟩ := Option.map_eq_some_iff.mp ends
      cases same
      obtain ⟨increasing, found, complete⟩ := ih (fun other member => nodup other (by simp [member])) followed
      have inPage : last ∈ page view cursor limit := List.mem_of_getLast? final
      have ahead := (mem_behind.mp (List.mem_of_mem_take inPage)).2
      obtain ⟨before, split⟩ := List.getLast?_eq_some_iff.mp final
      have onPage : (page view cursor limit).Pairwise (· < ·) := ordered.sublist (List.take_sublist _ _)
      refine ⟨?_, ?_, ?_⟩
      · -- Every name of a later page is behind the last name of this one.
        refine List.pairwise_append.mpr ⟨onPage, increasing, ?_⟩
        intro name early other late
        have greater : last < other := (found other late).1 last rfl
        rw [split] at early onPage
        rcases List.mem_append.mp early with earlier | exactly
        · exact Std.lt_trans ((List.pairwise_append.mp onPage).2.2 name earlier last (by simp)) greater
        · rw [List.mem_singleton.mp exactly]
          exact greater
      · intro name member
        rcases List.mem_append.mp member with early | late
        · have here := mem_behind.mp (List.mem_of_mem_take early)
          exact ⟨here.2, view, by simp, here.1⟩
        · obtain ⟨greater, other, inside, there⟩ := found name late
          refine ⟨?_, other, by simp [inside], there⟩
          intro first from_
          exact Std.lt_trans (ahead first from_) (greater last rfl)
      · intro name behind_ throughout
        -- A name that is not on this page is behind its last name.
        by_cases early : name ∈ page view cursor limit
        · exact List.mem_append_left _ early
        · have inside : name ∈ behind view cursor :=
            mem_behind.mpr ⟨throughout view (by simp), behind_⟩
          rw [← List.take_append_drop limit (behind view cursor)] at inside
          have late := (List.mem_append.mp inside).resolve_left early
          rw [← behind_last distinct final] at late
          apply List.mem_append_right
          exact complete name (mem_behind.mp late).2 fun other member => throughout other (by simp [member])

/-- Names that do not change are served completely, in finitely many pages. -/
theorem follow_constant (positive : 0 < limit) (nodup : names.Nodup) (cursor : Option α) :
    ∃ count, follow (serve limit) cursor (List.replicate count names) = some (behind names cursor, []) := by
  -- Each full page leaves fewer names behind its cursor.
  generalize size : (behind names cursor).length = bound
  induction bound using Nat.strong_induction_on generalizing cursor with
  | _ bound ih =>
    rcases serve_cases positive cursor names with rest | ⟨last, final, full⟩
    · refine ⟨1, ?_⟩
      rw [List.replicate_one, follow, rest]
    · have shorter : (behind names (some last)).length < bound := by
        have filled : (behind names cursor) ≠ [] := by
          intro empty
          rw [page, empty] at final
          simp at final
        rw [behind_last nodup final, List.length_drop, size]
        have := List.length_pos_iff.mpr filled
        omega
      obtain ⟨count, served⟩ := ih _ shorter (some last) rfl
      refine ⟨count + 1, ?_⟩
      rw [List.replicate_succ, follow, full]
      dsimp only
      rw [served, behind_last nodup final, Option.map_some, page, List.take_append_drop]

end Pages

end Paging
