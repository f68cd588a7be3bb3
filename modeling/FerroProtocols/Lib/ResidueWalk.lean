import Mathlib.Data.ZMod.Basic
import Mathlib.Tactic.Ring

/-! Walking through the residues of a modulus with a counter of bounded width. -/

namespace ResidueWalk

/-- The place a counter of some width visits at a step. -/
def place (places width start stride step : ℕ) : ℕ :=
  (start + stride * step) % width % places

/-- One lap visits every place. -/
def VisitsAll (places width start stride : ℕ) : Prop :=
  ∀ target < places, ∃ step < places, place places width start stride step = target

section Lap

variable {places width start stride : ℕ}

private theorem cast_place (below : start < width) (lap : stride * (places - 1) < width) {step : ℕ}
    (within : step < places) : ((place places width start stride step : ℕ) : ZMod places) =
      start + stride * step - if width ≤ start + stride * step then (width : ZMod places) else 0 := by
  -- Within one lap the counter stays below twice its width.
  have further : stride * step ≤ stride * (places - 1) := Nat.mul_le_mul_left stride (by omega)
  rw [place, ZMod.natCast_mod]
  by_cases wrapped : width ≤ start + stride * step
  · have reduced : (start + stride * step) % width = start + stride * step - width := by
      rw [Nat.mod_eq_sub_mod wrapped, Nat.mod_eq_of_lt (by omega)]
    rw [reduced, if_pos wrapped, Nat.cast_sub wrapped]
    push_cast
    ring
  · rw [Nat.mod_eq_of_lt (by omega), if_neg wrapped]
    push_cast
    ring

private theorem place_eq_iff {step target : ℕ} (small : target < places) :
    place places width start stride step = target ↔
      ((place places width start stride step : ℕ) : ZMod places) = target := by
  have bounded : place places width start stride step < places := Nat.mod_lt _ (by omega)
  rw [ZMod.natCast_eq_natCast_iff', Nat.mod_eq_of_lt bounded, Nat.mod_eq_of_lt small]

private theorem visitsAll_iff_surjective [NeZero places] : VisitsAll places width start stride ↔
      Function.Surjective fun step : Fin places => ((place places width start stride step : ℕ) : ZMod places) := by
  constructor
  · intro visits residue
    obtain ⟨step, within, reached⟩ := visits residue.val residue.val_lt
    refine ⟨⟨step, within⟩, ?_⟩
    simp [reached, ZMod.natCast_val, ZMod.cast_id']
  · intro covers target small
    obtain ⟨step, reached⟩ := covers target
    exact ⟨step, step.isLt, (place_eq_iff small).mpr reached⟩

private theorem exists_sum_eq [NeZero places] (start : ℕ) (coprime : Nat.Coprime stride places)
    (residue : ZMod places) : ∃ step < places, (start : ZMod places) + stride * (step : ℕ) = residue := by
  -- The step is found by solving for it.
  have unit := ZMod.coe_mul_inv_eq_one stride coprime
  refine ⟨((residue - start) * (stride : ZMod places)⁻¹).val, ZMod.val_lt _, ?_⟩
  rw [ZMod.natCast_zmod_val]
  calc (start : ZMod places) + stride * ((residue - start) * (stride : ZMod places)⁻¹)
      = start + (residue - start) * (stride * (stride : ZMod places)⁻¹) := by ring
    _ = residue := by rw [unit]; ring

private theorem sum_injective [NeZero places] (coprime : Nat.Coprime stride places) {first second : ℕ}
    (firstIn : first < places) (secondIn : second < places)
    (same : (start : ZMod places) + stride * (first : ℕ) = start + stride * (second : ℕ)) : first = second := by
  have unit : IsUnit (stride : ZMod places) := (ZMod.isUnit_iff_coprime stride places).mpr coprime
  have steps := unit.mul_left_cancel (add_left_cancel same)
  rw [ZMod.natCast_eq_natCast_iff', Nat.mod_eq_of_lt firstIn, Nat.mod_eq_of_lt secondIn] at steps
  exact steps

private theorem coprime_of_visitsAll [NeZero places] (common : Nat.gcd stride places ∣ width)
    (visits : VisitsAll places width start stride) : Nat.Coprime stride places := by
  -- Every place visited is congruent to the start modulo the common divisor.
  have congruent : ∀ step,
      place places width start stride step % Nat.gcd stride places = start % Nat.gcd stride places := by
    intro step
    have multiple : Nat.gcd stride places ∣ stride * step := (Nat.gcd_dvd_left stride places).mul_right step
    rw [place, Nat.mod_mod_of_dvd _ (Nat.gcd_dvd_right stride places),
      Nat.mod_mod_of_dvd _ common, Nat.add_mod, Nat.mod_eq_zero_of_dvd multiple, Nat.add_zero, Nat.mod_mod]
  by_cases several : 1 < places
  · obtain ⟨atZero, _, zero⟩ := visits 0 (by omega)
    obtain ⟨atOne, _, one⟩ := visits 1 several
    have first := congruent atZero
    have second := congruent atOne
    rw [zero] at first
    rw [one, ← first] at second
    -- Zero and one are congruent only modulo one.
    have divides : Nat.gcd stride places ∣ 1 := (Nat.modEq_zero_iff_dvd).mp second
    exact Nat.dvd_one.mp divides
  · have positive := NeZero.pos places
    have single : places = 1 := by omega
    rw [single]
    exact Nat.coprime_one_right stride

/--
A lap that visits every place does not wrap, unless wrapping does not shift the places.

After a wrap the remaining places are shifted, and the arc they make up would have to be its own shift.
-/
theorem unshifted_of_visitsAll [NeZero places] (below : start < width)
    (lap : stride * (places - 1) < width) (coprime : Nat.Coprime stride places)
    (visits : VisitsAll places width start stride) : start + stride * (places - 1) < width ∨ places ∣ width := by
  by_contra shifted
  rw [not_or, Nat.not_lt] at shifted
  obtain ⟨wraps, indivisible⟩ := shifted
  have positive := NeZero.pos places
  have covers := visitsAll_iff_surjective.mp visits
  have injective : Function.Injective fun step : Fin places =>
      ((place places width start stride step : ℕ) : ZMod places) :=
    ((Fintype.bijective_iff_surjective_and_card _).mpr ⟨covers, by simp⟩).1
  -- The last step has wrapped, and its place is the sum of some step of the lap.
  obtain ⟨other, otherIn, otherSum⟩ := exists_sum_eq start coprime
    ((start : ZMod places) + stride * ((places - 1 : ℕ) : ℕ) - width)
  have last := cast_place below lap (show places - 1 < places by omega)
  rw [if_pos wraps] at last
  -- That step has wrapped too, for otherwise two steps would share a place.
  have otherWrapped : width ≤ start + stride * other := by
    by_contra unwrapped
    have there := cast_place below lap otherIn
    rw [if_neg unwrapped, sub_zero, otherSum, ← last] at there
    have same : other = places - 1 := congrArg Fin.val (@injective ⟨other, otherIn⟩ ⟨places - 1, by omega⟩ there)
    rw [same] at unwrapped
    exact unwrapped wraps
  by_cases isLast : other = places - 1
  · -- If it is the last step itself, the shift vanishes.
    rw [isLast] at otherSum
    have vanishes : (width : ZMod places) = 0 := sub_eq_self.mp otherSum.symm
    exact indivisible ((ZMod.natCast_eq_zero_iff width places).mp vanishes)
  · -- Otherwise the step behind it has the shifted place of the start, which no step can reach.
    have nextIn : other + 1 < places := by omega
    have lapped : (stride : ZMod places) * ((places - 1 : ℕ) : ℕ) + stride = 0 := by
      have whole : ((stride * (places - 1) + stride : ℕ) : ZMod places) = 0 := by
        have product : stride * (places - 1) + stride = stride * places := by
          rw [← Nat.mul_succ]
          congr 1
          omega
        rw [product]
        push_cast
        rw [ZMod.natCast_self, mul_zero]
      exact_mod_cast whole
    have nextSum : (start : ZMod places) + stride * ((other + 1 : ℕ) : ℕ) = start - width := by
      calc (start : ZMod places) + stride * ((other + 1 : ℕ) : ℕ)
          = (start + stride * (other : ℕ)) + stride := by push_cast; ring
        _ = start + (stride * ((places - 1 : ℕ) : ℕ) + stride) - width := by rw [otherSum]; ring
        _ = start - width := by rw [lapped]; ring
    obtain ⟨step, reached⟩ := covers (start - width)
    have there := cast_place below lap step.isLt
    simp only at reached
    rw [reached] at there
    by_cases wrapped : width ≤ start + stride * (step : ℕ)
    · rw [if_pos wrapped] at there
      have atStart : (start : ZMod places) + stride * ((step : ℕ) : ℕ) = start + stride * (0 : ℕ) := by
        rw [← sub_left_injective there]
        simp
      have zero := sum_injective coprime step.isLt positive atStart
      rw [zero] at wrapped
      omega
    · rw [if_neg wrapped, sub_zero, ← nextSum] at there
      have same := sum_injective coprime nextIn step.isLt there
      have further : stride * other ≤ stride * (other + 1) := Nat.mul_le_mul_left stride (by omega)
      rw [← same] at wrapped
      omega

/-- When one lap of a bounded counter visits every place. -/
theorem visitsAll_iff [NeZero places] (below : start < width)
    (lap : stride * (places - 1) < width) (common : Nat.gcd stride places ∣ width) :
    VisitsAll places width start stride ↔
      Nat.Coprime stride places ∧ (start + stride * (places - 1) < width ∨ places ∣ width) := by
  constructor
  · intro visits
    have coprime := coprime_of_visitsAll common visits
    exact ⟨coprime, unshifted_of_visitsAll below lap coprime visits⟩
  · rintro ⟨coprime, unshifted⟩
    rw [visitsAll_iff_surjective]
    intro residue
    obtain ⟨step, within, sum⟩ := exists_sum_eq start coprime residue
    refine ⟨⟨step, within⟩, ?_⟩
    have there := cast_place below lap within
    simp only
    rw [there, ← sum]
    by_cases wrapped : width ≤ start + stride * step
    · -- The lap wraps, so the width is a multiple of the number of places.
      have further : stride * step ≤ stride * (places - 1) := Nat.mul_le_mul_left stride (by omega)
      have divides : places ∣ width := by
        rcases unshifted with short | divides
        · omega
        · exact divides
      rw [if_pos wrapped, (ZMod.natCast_eq_zero_iff width places).mpr divides, sub_zero]
    · rw [if_neg wrapped, sub_zero]

end Lap

end ResidueWalk
