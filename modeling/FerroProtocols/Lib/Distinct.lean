import Mathlib.Data.List.Induction
import Mathlib.Data.List.Nodup

/-! Lists that are filled with what they do not have yet. -/

namespace Distinct

variable {α β : Type*} [DecidableEq α] [DecidableEq β]

/-- Append what is not there yet. -/
def pushUnique (into : List α) (item : α) : List α := if item ∈ into then into else into ++ [item]

/-- Append one after the other what is not there yet. -/
def pushAll (into items : List α) : List α := items.foldl pushUnique into

variable {into items : List α} {item other : α}

private theorem mem_pushUnique : other ∈ pushUnique into item ↔ other ∈ into ∨ other = item := by
  unfold pushUnique
  split
  · rename_i there
    refine ⟨.inl, fun either => either.elim id fun same => ?_⟩
    rw [same]
    exact there
  · rw [List.mem_append, List.mem_singleton]

/-- What is pushed one after the other is there, and so is what was there before. -/
theorem mem_pushAll : other ∈ pushAll into items ↔ other ∈ into ∨ other ∈ items := by
  induction items generalizing into with
  | nil => simp [pushAll]
  | cons item rest ih =>
    show other ∈ pushAll (pushUnique into item) rest ↔ _
    rw [ih, mem_pushUnique, List.mem_cons, or_assoc]

/-- Pushing goes on where it stopped. -/
theorem pushAll_append (first second : List α) :
    pushAll into (first ++ second) = pushAll (pushAll into first) second :=
  List.foldl_append

private theorem nodup_pushUnique (distinct : into.Nodup) : (pushUnique into item).Nodup := by
  unfold pushUnique
  split
  · exact distinct
  · rename_i new
    exact List.nodup_append.mpr ⟨distinct, List.nodup_singleton item, fun first member second last => by
      rw [List.mem_singleton.mp last]
      exact fun same => new (same ▸ member)⟩

/-- Nothing is pushed twice, one after the other. -/
theorem nodup_pushAll (distinct : into.Nodup) : (pushAll into items).Nodup := by
  induction items generalizing into with
  | nil => exact distinct
  | cons item rest ih => exact ih (nodup_pushUnique distinct)

/-- What is pushed into nothing is there in the order in which it came first. -/
theorem pushAll_nil : pushAll [] items = items.eraseDups := by
  -- From the right: the last item is new exactly if it is not among those before it.
  induction items using List.reverseRecOn with
  | nil => rfl
  | append_singleton items item ih =>
    rw [pushAll_append, ih, List.eraseDups_append]
    show pushUnique items.eraseDups item = _
    by_cases there : item ∈ items
    · simp [pushUnique, List.removeAll, there]
    · simp [pushUnique, List.removeAll, there, List.eraseDups_cons]

/-- Pushing commutes with a renaming that keeps things apart. -/
theorem map_pushUnique {rename : α → β} (injective : Function.Injective rename) :
    (pushUnique into item).map rename = pushUnique (into.map rename) (rename item) := by
  unfold pushUnique
  by_cases there : item ∈ into
  · rw [if_pos there, if_pos (List.mem_map_of_mem there)]
  · rw [if_neg there, if_neg fun member => there ((List.mem_map_of_injective injective).mp member), List.map_append]
    rfl

end Distinct
