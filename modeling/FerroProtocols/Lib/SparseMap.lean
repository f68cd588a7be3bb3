import Std.Data.ExtTreeMap
import Mathlib.Data.List.Basic

/-! Ordered maps of collections, read as total functions that are empty where nothing is stored. -/

namespace SparseMap

open Std

section Values

variable {κ β : Type} {cmp : κ → κ → Ordering} [TransCmp cmp] [LawfulEqCmp cmp] {map : ExtTreeMap κ β cmp}

/-- Put back what an insertion has displaced, or remove what it has added. -/
def putBack (map : ExtTreeMap κ β cmp) (key : κ) (displaced : Option β) : ExtTreeMap κ β cmp :=
  match displaced with
  | some value => map.insert key value
  | none => map.erase key

/-- Putting back undoes an insertion. -/
theorem putBack_insert (map : ExtTreeMap κ β cmp) (key : κ) (value : β) :
    putBack (map.insert key value) key map[key]? = map := by
  apply ExtTreeMap.ext_getElem?
  intro other
  -- Both maps agree at every key, whether a value was displaced or not.
  cases displaced : map[key]? with
  | some old =>
    simp only [putBack, ExtTreeMap.getElem?_insert]
    split
    · rename_i same
      rw [← LawfulEqCmp.eq_of_compare same, displaced]
    · rfl
  | none =>
    simp only [putBack, ExtTreeMap.getElem?_erase, ExtTreeMap.getElem?_insert]
    split
    · rename_i same
      rw [← LawfulEqCmp.eq_of_compare same, displaced]
    · rfl

omit [LawfulEqCmp cmp] in
/-- What is left after a key was erased was there before. -/
theorem getElem?_of_erase {key other : κ} {value : β}
    (found : (map.erase key)[other]? = some value) : map[other]? = some value := by
  rw [ExtTreeMap.getElem?_erase] at found
  split at found
  · cases found
  · exact found

/-- Erasing a key that is not there changes nothing. -/
theorem erase_eq_self {key : κ} (absent : map[key]? = none) : map.erase key = map := by
  apply ExtTreeMap.ext_getElem?
  intro other
  rw [ExtTreeMap.getElem?_erase]
  split
  · rename_i same
    rw [← LawfulEqCmp.eq_of_compare same, absent]
  · rfl

/-- Inserting what is there changes nothing. -/
theorem insert_eq_self {key : κ} {value : β} (there : map[key]? = some value) : map.insert key value = map := by
  apply ExtTreeMap.ext_getElem?
  intro other
  rw [ExtTreeMap.getElem?_insert]
  split
  · rename_i same
    rw [← LawfulEqCmp.eq_of_compare same, there]
  · rfl

/-- Modifying a value into itself changes nothing. -/
theorem modify_eq_self {key : κ} {change : β → β}
    (same : ∀ value, map[key]? = some value → change value = value) : map.modify key change = map := by
  apply ExtTreeMap.ext_getElem?
  intro other
  rw [ExtTreeMap.getElem?_modify]
  split
  · rename_i here
    rw [← LawfulEqCmp.eq_of_compare here]
    cases stored : map[key]? with
    | none => rfl
    | some value => rw [Option.map_some, same value stored]
  · rfl

/-- Inserting under several keys one value stores it under exactly these. -/
theorem getElem?_foldl_insert [DecidableEq κ] (keys : List κ) (value : β) (map : ExtTreeMap κ β cmp) (key : κ) :
    (keys.foldl (fun map key => map.insert key value) map)[key]? = if key ∈ keys then some value else map[key]? := by
  induction keys generalizing map with
  | nil => simp
  | cons first rest ih =>
    rw [List.foldl_cons, ih]
    by_cases inside : key ∈ rest
    · simp [inside]
    · by_cases same : key = first
      · simp [same]
      · simp [same, inside, ExtTreeMap.getElem?_insert, LawfulEqCmp.compare_eq_iff_eq, Ne.symm same]

/-- A map is not empty exactly when it stores something. -/
theorem exists_getElem?_iff : (∃ (key : κ) (value : β), map[key]? = some value) ↔ map ≠ ∅ := by
  constructor
  · rintro ⟨key, value, stored⟩ rfl
    simp at stored
  · intro filled
    by_contra absent
    apply filled
    apply ExtTreeMap.ext_getElem?
    intro key
    cases stored : map[key]? with
    | none => simp
    | some value => exact absurd ⟨key, value, stored⟩ absent

/-- The keys of a map are different. -/
theorem nodup_keys (map : ExtTreeMap κ β cmp) : map.keys.Nodup :=
  map.distinct_keys.imp fun different same => different (LawfulEqCmp.compare_eq_iff_eq.mpr same)

end Values

section Collections

variable {κ β : Type} {cmp : κ → κ → Ordering} [TransCmp cmp] [EmptyCollection β] {map : ExtTreeMap κ β cmp}
  {change : β → β}

/-- The collection at a key, empty when there is none. -/
def valueAt (map : ExtTreeMap κ β cmp) (key : κ) : β := map[key]?.getD ∅

/-- Change the collection at a key, starting from an empty one when there is none. -/
def update (map : ExtTreeMap κ β cmp) (key : κ) (change : β → β) : ExtTreeMap κ β cmp :=
  map.insert key (change (valueAt map key))

/-- A map that stores no empty collection. -/
def Sparse (map : ExtTreeMap κ β cmp) : Prop := ∀ key : κ, map[key]? ≠ some ∅

/-- An empty map is sparse. -/
theorem sparse_empty : Sparse (∅ : ExtTreeMap κ β cmp) := by
  intro key stored
  simp at stored

private theorem Sparse.getElem?_eq_none (sparse : Sparse map) {key : κ}
    (empty : valueAt map key = ∅) : map[key]? = none := by
  cases stored : map[key]? with
  | none => rfl
  | some value =>
    rw [valueAt, stored, Option.getD_some] at empty
    exact absurd (by rw [stored, empty]) (sparse key)

/-- Updating with a change that never empties keeps a map sparse. -/
theorem Sparse.update (sparse : Sparse map) (key : κ)
    (fills : change (valueAt map key) ≠ ∅) : Sparse (update map key change) := by
  intro other
  simp only [SparseMap.update, ExtTreeMap.getElem?_insert]
  split
  · intro stored
    exact fills (Option.some.inj stored)
  · exact sparse other

variable [LawfulEqCmp cmp]

private theorem getElem?_update [DecidableEq κ] (map : ExtTreeMap κ β cmp) (key other : κ) (change : β → β) :
    (update map key change)[other]? = if key = other then some (change (valueAt map key)) else map[other]? := by
  simp only [update, ExtTreeMap.getElem?_insert, LawfulEqCmp.compare_eq_iff_eq]

/-- An update changes the collection at its key only. -/
theorem valueAt_update [DecidableEq κ] (map : ExtTreeMap κ β cmp) (key other : κ) (change : β → β) :
    valueAt (update map key change) other = if key = other then change (valueAt map key) else valueAt map other := by
  rw [valueAt, getElem?_update]
  split <;> rfl

/-- Making a change twice that does nothing the second time is making it once. -/
theorem update_update {key : κ} (again : change (change (valueAt map key)) = change (valueAt map key)) :
    update (update map key change) key change = update map key change := by
  classical
  apply ExtTreeMap.ext_getElem?
  intro other
  rw [getElem?_update, valueAt_update, if_pos rfl, again, getElem?_update]
  split <;> rfl

/-- A modification that leaves an empty collection empty changes the one at its key only. -/
theorem valueAt_modify [DecidableEq κ] (map : ExtTreeMap κ β cmp) (key other : κ)
    (blank : change ∅ = ∅) : valueAt (map.modify key change) other =
      if key = other then change (valueAt map key) else valueAt map other := by
  simp only [valueAt, ExtTreeMap.getElem?_modify, LawfulEqCmp.compare_eq_iff_eq]
  split
  · -- Where nothing is stored, nothing is modified, and the change would leave nothing.
    cases map[key]? with
    | none => exact blank.symm
    | some value => rfl
  · rfl

/-- Changing every collection changes what a map reads as, if the change leaves an empty one empty. -/
theorem valueAt_map (map : ExtTreeMap κ β cmp) (key : κ) (blank : change ∅ = ∅) :
    valueAt (map.map fun _ value => change value) key = change (valueAt map key) := by
  unfold valueAt
  rw [ExtTreeMap.getElem?_map]
  cases map[key]? with
  | none => exact blank.symm
  | some value => rfl

/-- Undoing a modification of a stored value up to some tidying leaves the tidied map. -/
theorem update_modify {key : κ} {value : β} {undo tidy : β → β}
    (stored : map[key]? = some value) (restores : undo (change value) = tidy value) :
    update (map.modify key change) key undo = map.modify key tidy := by
  apply ExtTreeMap.ext_getElem?
  intro other
  have changed : valueAt (map.modify key change) key = change value := by simp [valueAt, stored]
  rw [update, changed, restores, ExtTreeMap.getElem?_insert, ExtTreeMap.getElem?_modify, ExtTreeMap.getElem?_modify]
  split
  · rw [stored, Option.map_some]
  · rfl

/-- Undoing a modification of a stored value leaves the map. -/
theorem update_modify_self {key : κ} {value : β} {undo : β → β}
    (stored : map[key]? = some value) (restores : undo (change value) = value) :
    update (map.modify key change) key undo = map := by
  have undone : update (map.modify key change) key undo = map.modify key id := update_modify stored restores
  rw [undone, modify_eq_self fun _ _ => id_eq _]

/-- Sparse maps that read alike are equal. -/
theorem Sparse.ext {left right : ExtTreeMap κ β cmp} (sparseLeft : Sparse left)
    (sparseRight : Sparse right) (same : ∀ key, valueAt left key = valueAt right key) : left = right := by
  apply ExtTreeMap.ext_getElem?
  intro key
  -- What is stored is not empty, so it can be read off the function.
  have here := same key
  cases stored : left[key]? with
  | none =>
    rw [valueAt, stored, Option.getD_none] at here
    exact (sparseRight.getElem?_eq_none here.symm).symm
  | some value =>
    rw [valueAt, stored, Option.getD_some] at here
    cases other : right[key]? with
    | some value' => rw [valueAt, other, Option.getD_some] at here; rw [here]
    | none =>
      rw [valueAt, other, Option.getD_none] at here
      exact absurd (by rw [stored, here]) (sparseLeft key)

section Pruning

/-- Whether a map is empty can be decided. -/
instance emptyMapDecidable {ι γ : Type} {order : ι → ι → Ordering} [TransCmp order] :
    DecidablePred fun map : ExtTreeMap ι γ order => map = ∅ :=
  fun map => decidable_of_iff (map.isEmpty = true) ExtTreeMap.isEmpty_iff

/-- Whether a list is empty can be decided. -/
instance emptyListDecidable {γ : Type} : DecidablePred fun list : List γ => list = ∅ :=
  fun list => decidable_of_iff (list.isEmpty = true) List.isEmpty_iff

variable [DecidablePred fun value : β => value = ∅] {map : ExtTreeMap κ β cmp}

/-- Remove the collection at a key when it is empty. -/
def prune (map : ExtTreeMap κ β cmp) (key : κ) : ExtTreeMap κ β cmp :=
  if map[key]?.any (fun value => decide (value = ∅)) then map.erase key else map

/-- Pruning removes exactly an empty collection at its key. -/
theorem getElem?_prune [DecidableEq κ] (map : ExtTreeMap κ β cmp) (key other : κ) : (prune map key)[other]? =
      if key = other ∧ valueAt map key = ∅ then none else map[other]? := by
  unfold prune valueAt
  -- Only a stored empty collection is removed.
  cases stored : map[key]? with
  | none =>
    simp only [Option.any_none, Bool.false_eq_true, if_false]
    by_cases same : key = other
    · rw [← same, stored]
      simp
    · simp [same]
  | some value =>
    by_cases empty : value = ∅
    · simp [empty, ExtTreeMap.getElem?_erase]
    · simp [empty]

/-- Pruning does not change what a map reads as. -/
theorem valueAt_prune (map : ExtTreeMap κ β cmp) (key other : κ) :
    valueAt (prune map key) other = valueAt map other := by
  classical
  rw [valueAt, getElem?_prune]
  split
  · rename_i pruned
    rw [← pruned.1, pruned.2]
    rfl
  · rfl

omit [LawfulEqCmp cmp] in
/-- Pruning leaves a map alone that stores no empty collection at the key. -/
theorem prune_eq_self {key : κ} (filled : map[key]? ≠ some ∅) : prune map key = map := by
  unfold prune
  cases stored : map[key]? with
  | none => simp
  | some value =>
    have full : value ≠ ∅ := by
      intro empty
      exact filled (by rw [stored, empty])
    simp [full]

private theorem prune_congr {left right : ExtTreeMap κ β cmp} {key : κ} (here : valueAt left key = valueAt right key)
    (elsewhere : ∀ other, other ≠ key → left[other]? = right[other]?) : prune left key = prune right key := by
  classical
  apply ExtTreeMap.ext_getElem?
  intro other
  rw [getElem?_prune, getElem?_prune, here]
  by_cases same : key = other
  · subst same
    by_cases empty : valueAt right key = ∅
    · simp [empty]
    · -- Neither side is empty here, so both sides store what they read as.
      have stored : ∀ map : ExtTreeMap κ β cmp, valueAt map key ≠ ∅ →
          map[key]? = some (valueAt map key) := by
        intro map filled
        cases found : map[key]? with
        | none => exact absurd (by rw [valueAt, found]; rfl) filled
        | some value => rw [valueAt, found, Option.getD_some]
      simp only [empty, and_false, if_false]
      rw [stored left (here ▸ empty), stored right empty, here]
  · simp only [same, false_and, if_false]
    exact elsewhere other (Ne.symm same)

/-- Undoing a change up to some tidying leaves the tidied map, once its key is pruned. -/
theorem prune_modify_update {key : κ} {change undo tidy : β → β}
    (restores : undo (change (valueAt map key)) = tidy (valueAt map key)) (blank : tidy ∅ = ∅) :
    prune ((update map key change).modify key undo) key = prune (map.modify key tidy) key := by
  classical
  apply prune_congr
  · -- At the key the undone change reads as the tidied value, stored or not.
    have self : cmp key key = .eq := ReflCmp.compare_self
    rw [valueAt, valueAt, ExtTreeMap.getElem?_modify, ExtTreeMap.getElem?_modify, if_pos self,
      if_pos self, getElem?_update, if_pos rfl]
    rw [Option.map_some, Option.getD_some, restores]
    unfold valueAt
    cases map[key]? with
    | none => exact blank
    | some value => rfl
  · intro other different
    have elsewhere : ¬ cmp key other = .eq := fun same => different (LawfulEqCmp.eq_of_compare same).symm
    rw [ExtTreeMap.getElem?_modify, ExtTreeMap.getElem?_modify, if_neg elsewhere,
      if_neg elsewhere, getElem?_update, if_neg (Ne.symm different)]

/-- Undoing a change leaves the map, once its key is pruned. -/
theorem prune_undo_update {key : κ} {change undo : β → β}
    (restores : undo (change (valueAt map key)) = valueAt map key) :
    prune ((update map key change).modify key undo) key = prune map key := by
  have undone : prune ((update map key change).modify key undo) key =
      prune (map.modify key id) key := prune_modify_update restores rfl
  rw [undone, modify_eq_self fun _ _ => id_eq _]

/-- Remove every empty collection. -/
def sweep (map : ExtTreeMap κ β cmp) : ExtTreeMap κ β cmp :=
  map.filter fun _ value => decide (value ≠ ∅)

/-- Sweeping does not change what a map reads as. -/
theorem valueAt_sweep (map : ExtTreeMap κ β cmp) (key : κ) : valueAt (sweep map) key = valueAt map key := by
  unfold valueAt sweep
  rw [ExtTreeMap.getElem?_filter']
  cases map[key]? with
  | none => rfl
  | some value => by_cases empty : value = ∅ <;> simp [Option.filter, empty]

/-- A swept map is sparse. -/
theorem sparse_sweep (map : ExtTreeMap κ β cmp) : Sparse (sweep map) := by
  intro key stored
  rw [sweep, ExtTreeMap.getElem?_filter', Option.filter_eq_some_iff] at stored
  simp at stored

/-- Sweeping leaves a sparse map alone. -/
theorem Sparse.sweep_eq (sparse : Sparse map) : sweep map = map := (sparse_sweep map).ext sparse (valueAt_sweep map)

end Pruning

section Edits

variable {ε : Type} (change : ε → β → β)

/-- Carry out edits in order, each at its own key. -/
def editAll (map : ExtTreeMap κ β cmp) (edits : List (κ × ε)) : ExtTreeMap κ β cmp :=
  edits.foldl (fun map edit => update map edit.1 (change edit.2)) map

omit [LawfulEqCmp cmp] in
/-- Edits that always leave something keep a map sparse. -/
theorem Sparse.editAll {map : ExtTreeMap κ β cmp} (sparse : Sparse map)
    (fills : ∀ edit value, change edit value ≠ ∅) (edits : List (κ × ε)) : Sparse (editAll change map edits) := by
  induction edits generalizing map with
  | nil => exact sparse
  | cons edit edits ih => exact ih (sparse.update edit.1 (fills edit.2 _))

variable [DecidableEq κ]

/-- The edits made at one key. -/
def editsAt (edits : List (κ × ε)) (key : κ) : List ε :=
  (edits.filter fun edit => decide (edit.1 = key)).map Prod.snd

/-- Edits at other keys do not matter for what a map reads as. -/
theorem valueAt_editAll (map : ExtTreeMap κ β cmp) (edits : List (κ × ε)) (key : κ) :
    valueAt (editAll change map edits) key =
      (editsAt edits key).foldl (fun value edit => change edit value) (valueAt map key) := by
  induction edits generalizing map with
  | nil => rfl
  | cons edit edits ih =>
    have rest := ih (update map edit.1 (change edit.2))
    unfold editAll at rest ⊢
    rw [List.foldl_cons, rest, valueAt_update]
    by_cases same : edit.1 = key
    · simp [editsAt, same]
    · simp [editsAt, same]

/-- What a function lists for each stored value, under the key of that value. -/
def listAll (list : β → List ε) (map : ExtTreeMap κ β cmp) : List (κ × ε) :=
  map.toList.flatMap fun entry => (list entry.2).map fun edit => (entry.1, edit)

omit [EmptyCollection β] in
private theorem editsAt_flatMap_eq_nil {entries : List (κ × β)} {key : κ} (list : β → List ε)
    (absent : ∀ entry ∈ entries, entry.1 ≠ key) :
    editsAt (entries.flatMap fun entry => (list entry.2).map fun edit => (entry.1, edit)) key = [] := by
  unfold editsAt
  rw [List.map_eq_nil_iff, List.filter_eq_nil_iff]
  intro edit member
  obtain ⟨entry, inside, tagged⟩ := List.mem_flatMap.mp member
  obtain ⟨value, _, rfl⟩ := List.mem_map.mp tagged
  simpa using absent entry inside

/-- All that is listed for a key comes from the collection at that key. -/
theorem editsAt_listAll {list : β → List ε} (nothing : list ∅ = []) (map : ExtTreeMap κ β cmp)
    (key : κ) : editsAt (listAll list map) key = list (valueAt map key) := by
  have distinct : map.toList.Pairwise fun left right => ¬ cmp left.1 right.1 = .eq := ExtTreeMap.distinct_keys_toList
  unfold listAll
  cases stored : map[key]? with
  | none =>
    rw [valueAt, stored, Option.getD_none, nothing]
    apply editsAt_flatMap_eq_nil
    intro entry inside same
    have found := ExtTreeMap.mem_toList_iff_getElem?_eq_some.mp (show (entry.1, entry.2) ∈ _ from inside)
    rw [same, stored] at found
    cases found
  | some value =>
    -- The entry of the key stands alone between entries of other keys.
    obtain ⟨before, after, split⟩ := List.append_of_mem (ExtTreeMap.mem_toList_iff_getElem?_eq_some.mpr stored)
    rw [split, List.pairwise_append, List.pairwise_cons] at distinct
    obtain ⟨_, ⟨later, _⟩, earlier⟩ := distinct
    have othersBefore : ∀ entry ∈ before, entry.1 ≠ key := by
      intro entry inside same
      exact earlier entry inside (key, value) (by simp) (LawfulEqCmp.compare_eq_iff_eq.mpr same)
    have othersAfter : ∀ entry ∈ after, entry.1 ≠ key := by
      intro entry inside same
      exact later entry inside (LawfulEqCmp.compare_eq_iff_eq.mpr same.symm)
    have noneBefore := editsAt_flatMap_eq_nil list othersBefore
    have noneAfter := editsAt_flatMap_eq_nil list othersAfter
    have alone : editsAt ((list value).map fun edit => (key, edit)) key = list value := by
      simp [editsAt, List.filter_map, Function.comp_def]
    rw [split, valueAt, stored, Option.getD_some, List.flatMap_append, List.flatMap_cons]
    unfold editsAt at noneBefore noneAfter alone ⊢
    rw [List.filter_append, List.filter_append, List.map_append, List.map_append, noneBefore, noneAfter, alone]
    simp

/-- Reversing all edits reverses those of each key. -/
theorem editsAt_reverse (edits : List (κ × ε)) (key : κ) :
    editsAt edits.reverse key = (editsAt edits key).reverse := by
  unfold editsAt
  rw [List.filter_reverse, List.map_reverse]

end Edits

end Collections

end SparseMap
