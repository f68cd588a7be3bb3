import Mathlib.Data.Countable.Basic
import Mathlib.Logic.Equiv.List
import Std.Data.ExtTreeMap

/-!
Values that can be enumerated, and what follows for writing them down.
-/

namespace Enumeration

open Std

/-- Texts can be enumerated. -/
theorem countable_string : Countable String := by
  have characters : Countable Char :=
    Function.Injective.countable (show Function.Injective Char.toNat from fun _ _ => Char.toNat_inj.mp)
  exact Function.Injective.countable
    (show Function.Injective String.toList from fun _ _ => String.toList_inj.mp)

/-- Maps between things that can be enumerated can be enumerated. -/
theorem countable_map {κ β : Type} {cmp : κ → κ → Ordering} [TransCmp cmp] [Countable κ]
    [Countable β] : Countable (ExtTreeMap κ β cmp) :=
  Function.Injective.countable
    (show Function.Injective ExtTreeMap.toList from fun _ _ => ExtTreeMap.toList_inj.mp)

/-- What can be enumerated can be written as bytes and read back. -/
theorem exists_codec (α : Type) [Countable α] : ∃ (encode : α → List UInt8) (decode : List UInt8 → Option α),
      ∀ value, decode (encode value) = some value := by
  classical
  obtain ⟨number, injective⟩ := exists_injective_nat α
  -- A value is written as so many zeros as its number says.
  refine ⟨fun value => List.replicate (number value) 0,
    fun bytes => if found : ∃ value, number value = bytes.length then some found.choose else none, ?_⟩
  intro value
  have found : ∃ other, number other = (List.replicate (number value) (0 : UInt8)).length :=
    ⟨value, List.length_replicate.symm⟩
  have same : number found.choose = number value := found.choose_spec.trans List.length_replicate
  dsimp only
  rw [dif_pos found, injective same]

end Enumeration
