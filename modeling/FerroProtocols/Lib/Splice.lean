import Mathlib.Data.List.InsertIdx

/-! Taking elements out of a list by index and putting them back, and changing one in its place. -/

namespace Splice

variable {α : Type}

/-- Take out the selected elements below a bound, from the back, with the index of each. -/
def takeOut (selected : α → Bool) : Nat → List α → List α × List (Nat × α)
  | 0, list => (list, [])
  | index + 1, list =>
    match list[index]? with
    | none => takeOut selected index list
    | some element =>
      if selected element then
        let rest := takeOut selected index (list.eraseIdx index)
        (rest.1, (index, element) :: rest.2)
      else takeOut selected index list

/-- Put an element back at its index, or at the end of a list that is too short. -/
def insertBack (taken : Nat × α) (list : List α) : List α :=
  list.insertIdx (min taken.1 list.length) taken.2

/-- An element that is put back makes a list nonempty. -/
theorem insertBack_ne_nil (taken : Nat × α) (list : List α) : insertBack taken list ≠ [] := by
  intro empty
  have length := congrArg List.length empty
  rw [insertBack, List.length_insertIdx_of_le_length (by omega)] at length
  simp at length

/-- Putting elements back in the reverse order of their removal restores the list. -/
theorem foldr_insertBack_takeOut (selected : α → Bool) (bound : Nat) (list : List α) :
    (takeOut selected bound list).2.foldr insertBack (takeOut selected bound list).1 = list := by
  -- Induction on the bound: what is taken out further below is put back first.
  induction bound generalizing list with
  | zero => rfl
  | succ index ih =>
    unfold takeOut
    cases found : list[index]? with
    | none => exact ih list
    | some element =>
      dsimp only
      split
      · obtain ⟨inside, rfl⟩ := List.getElem?_eq_some_iff.mp found
        rw [List.foldr_cons, ih]
        -- The list without the element still reaches up to its index.
        have reaches : min index (list.eraseIdx index).length = index := by
          rw [List.length_eraseIdx_of_lt inside]
          omega
        rw [insertBack, reaches, List.insertIdx_eraseIdx_getElem inside]
      · exact ih list

/-- What is left below the bound are the elements that are not selected, in their order. -/
theorem takeOut_fst (selected : α → Bool) (bound : Nat) (list : List α) : (takeOut selected bound list).1 =
      ((list.take bound).filter fun element => !selected element) ++ list.drop bound := by
  induction bound generalizing list with
  | zero => rfl
  | succ index ih =>
    unfold takeOut
    cases found : list[index]? with
    | none =>
      -- The list ends below the index, so the bound makes no difference.
      have short := List.getElem?_eq_none_iff.mp found
      dsimp only
      rw [ih, List.take_of_length_le short, List.take_of_length_le (by omega),
        List.drop_of_length_le short, List.drop_of_length_le (by omega)]
    | some element =>
      obtain ⟨inside, rfl⟩ := List.getElem?_eq_some_iff.mp found
      dsimp only
      rw [List.take_succ_eq_append_getElem inside, List.filter_append]
      split
      · rename_i chosen
        have reaches : (list.take index).length = index := List.length_take_of_le (by omega)
        rw [ih, List.eraseIdx_eq_take_drop_succ, List.take_left' reaches, List.drop_left' reaches]
        simp [chosen]
      · rename_i other
        rw [ih, List.drop_eq_getElem_cons inside]
        simp [other]

section Modify

variable {β : Type} {left right : List α} {place : Nat} {change : α → α}

/-- A change within the first of two lists. -/
theorem modify_append_left (inside : place < left.length) :
    (left ++ right).modify place change = left.modify place change ++ right := by
  induction left generalizing place with
  | nil => cases inside
  | cons item rest ih =>
    cases place with
    | zero => rfl
    | succ place =>
      rw [List.length_cons] at inside
      rw [List.cons_append, List.modify_succ_cons, List.modify_succ_cons, ih (by omega), List.cons_append]

/-- A change of what has been appended. -/
theorem modify_append_length (item : α) : (left ++ [item]).modify left.length change = left ++ [change item] := by
  induction left with
  | nil => rfl
  | cons first rest ih => rw [List.cons_append, List.length_cons, List.modify_succ_cons, ih, List.cons_append]

/-- A change is one of what is seen of the elements. -/
theorem map_modify {view : α → β} {seen : β → β} (same : ∀ item, view (change item) = seen (view item)) :
    (left.modify place change).map view = (left.map view).modify place seen := by
  induction left generalizing place with
  | nil => rw [List.modify_nil, List.map_nil, List.modify_nil]
  | cons item rest ih =>
    cases place with
    | zero => rw [List.modify_zero_cons, List.map_cons, List.map_cons, List.modify_zero_cons, same]
    | succ place => rw [List.modify_succ_cons, List.map_cons, List.map_cons, List.modify_succ_cons, ih]

/-- What is in a list after a change was there before, or is what has been changed. -/
theorem mem_modify {list : List α} {item : α}
    (member : item ∈ list.modify place change) :
    item ∈ list ∨ ∃ old, list[place]? = some old ∧ item = change old := by
  obtain ⟨index, found⟩ := List.getElem?_of_mem member
  rw [List.getElem?_modify] at found
  obtain ⟨old, there, same⟩ := Option.map_eq_some_iff.mp found
  split at same
  · rename_i here
    exact .inr ⟨old, by rw [here]; exact there, same.symm⟩
  · exact .inl (same ▸ List.mem_of_getElem? there)

end Modify

end Splice
