import Mathlib.Algebra.Order.Ring.Int

namespace Ecclesia

/-!
# Integers of a fixed range

The program wraps integers into types that only have the values of one range.  Whoever makes such a
value has to check the range.

The definitions follow `fixed_range_int.h`.
-/

/-- A `FixedRangeInteger`, with `kMinValue` and `kMaxValue`. -/
structure FixedRangeInteger (minValue maxValue : Int) where
  value : Int
  lower : minValue <= value
  upper : value <= maxValue
deriving DecidableEq

namespace FixedRangeInteger

variable {minValue maxValue : Int}

@[ext] lemma ext {first second : FixedRangeInteger minValue maxValue}
    (same : first.value = second.value) : first = second := by
  cases first
  cases second
  cases same
  rfl

def tryMake (value : Int) : Option (FixedRangeInteger minValue maxValue) :=
  if fits : minValue <= value ∧ value <= maxValue then some ⟨value, fits.1, fits.2⟩ else none

lemma tryMake_value (number : FixedRangeInteger minValue maxValue) :
    tryMake number.value = some number :=
  dif_pos ⟨number.lower, number.upper⟩

lemma tryMake_eq_some {value : Int} {number : FixedRangeInteger minValue maxValue} :
    tryMake value = some number <-> number.value = value := by
  constructor
  · intro made
    unfold tryMake at made
    split at made
    · cases made
      rfl
    · cases made
  · rintro rfl
    exact tryMake_value number

lemma tryMake_eq_none {value : Int} :
    (tryMake value : Option (FixedRangeInteger minValue maxValue)) = none <->
      ¬ (minValue <= value ∧ value <= maxValue) := by
  unfold tryMake
  split
  · rename_i fits
    exact iff_of_false (by simp) (not_not_intro fits)
  · rename_i outside
    exact iff_of_true rfl outside

end FixedRangeInteger

end Ecclesia
