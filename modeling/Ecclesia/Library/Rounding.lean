import Mathlib.Algebra.Order.Round
import Mathlib.Data.Nat.Log
import Mathlib.Tactic.Ring

namespace Ecclesia

/-!
# Rounding

A number is rounded to the nearest integer, away from zero if two are equally near.  An
integer is rounded to a number of significant bits, to the even one of two that are equally
near.
-/

section

variable {Number : Type} [Field Number] [LinearOrder Number] [IsStrictOrderedRing Number]
  [FloorRing Number]

def roundAway (x : Number) : Int :=
  if 0 <= x then round x else -round (-x)

lemma roundAway_intCast (n : Int) : roundAway (n : Number) = n := by
  rw [roundAway]
  split
  · exact round_intCast n
  · rw [<- Int.cast_neg, round_intCast, neg_neg]

end

/-- The multiple of a unit that is nearest to a number. -/
def roundToUnit (unit n : Nat) : Nat :=
  let quotient := n / unit
  let rest := n % unit
  if 2 * rest < unit then quotient * unit
  else if unit < 2 * rest then (quotient + 1) * unit
  else if quotient % 2 = 0 then quotient * unit
  else (quotient + 1) * unit

/-- Round the absolute value to some significant bits. -/
def roundToBits (bits : Nat) (n : Int) : Int :=
  n.sign * roundToUnit (2 ^ (Nat.log2 n.natAbs + 1 - bits)) n.natAbs

lemma roundToUnit_one (n : Nat) : roundToUnit 1 n = n := by
  rw [roundToUnit, Nat.mod_one, Nat.div_one, Nat.mul_one]
  rfl

/-- What has few enough bits is not changed. -/
lemma roundToBits_small {bits : Nat} {n : Int} (small : n.natAbs < 2 ^ bits) :
    roundToBits bits n = n := by
  cases isZero : n.natAbs with
  | zero =>
    rw [Int.natAbs_eq_zero.mp isZero]
    exact Int.zero_mul _
  | succ m =>
    have logBound : Nat.log2 n.natAbs < bits := (Nat.log2_lt (by omega)).mpr small
    have unit : 2 ^ (Nat.log2 n.natAbs + 1 - bits) = 1 := by
      rw [Nat.sub_eq_zero_of_le logBound]
      rfl
    rw [roundToBits, unit, roundToUnit_one, Int.sign_mul_natAbs]

namespace Library

/-!
## Division towards zero

A number is a whole count of units and a rest of less than one unit.  Where neither has the sign
opposite to the other's, the count is the quotient rounded towards zero, and the rest its remainder.
-/

/-- Neither number is negative with the other positive. -/
def SameSign (first second : Int) : Prop :=
  ¬ (first < 0 ∧ 0 < second) ∧ ¬ (0 < first ∧ second < 0)

/-- A number in units, rounded towards zero, with the rest. -/
structure Truncates (unit number count rest : Int) : Prop where
  sum : number = count * unit + rest
  lower : -unit < rest
  upper : rest < unit
  sameSign : SameSign count rest

variable {unit number count rest : Int}

lemma truncates_tdiv_tmod (positive : 0 < unit) :
    Truncates unit number (number.tdiv unit) (number.tmod unit) where
  sum := (Int.tdiv_mul_add_tmod number unit).symm
  lower := by
    have negated := Int.tmod_lt_of_pos (-number) positive
    rw [Int.neg_tmod] at negated
    omega
  upper := Int.tmod_lt_of_pos number positive
  sameSign := by
    rcases Int.le_total 0 number with nonneg | nonpos
    · have countNonneg := Int.tdiv_nonneg nonneg positive.le
      have restNonneg := Int.tmod_nonneg unit nonneg
      exact ⟨by omega, by omega⟩
    · have countNonneg := Int.tdiv_nonneg (Int.neg_nonneg_of_nonpos nonpos) positive.le
      have restNonneg := Int.tmod_nonneg unit (Int.neg_nonneg_of_nonpos nonpos)
      rw [Int.neg_tdiv] at countNonneg
      rw [Int.neg_tmod] at restNonneg
      exact ⟨by omega, by omega⟩

lemma Truncates.tdiv_tmod (positive : 0 < unit) (truncates : Truncates unit number count rest) :
    number.tdiv unit = count ∧ number.tmod unit = rest := by
  rcases truncates with ⟨sum, lower, upper, notBelow, notAbove⟩
  have ordered : rest + unit * count = number := by
    rw [sum, Int.mul_comm unit count, Int.add_comm]
  have size : (unit.natAbs : Int) = unit := Int.natAbs_of_nonneg positive.le
  by_cases nonneg : 0 <= rest ∧ 0 <= count
  · have numberNonneg : 0 <= number := by
      rw [sum]
      exact Int.add_nonneg (Int.mul_nonneg nonneg.2 positive.le) nonneg.1
    apply (Int.tdiv_tmod_unique numberNonneg positive.ne').mpr
    rw [size]
    exact ⟨ordered, nonneg.1, upper⟩
  · have nonpos : rest <= 0 ∧ count <= 0 := by omega
    have numberNonpos : number <= 0 := by
      rw [sum]
      exact Int.add_nonpos (Int.mul_nonpos_of_nonpos_of_nonneg nonpos.2 positive.le) nonpos.1
    apply (Int.tdiv_tmod_unique' numberNonpos positive.ne').mpr
    rw [size]
    exact ⟨ordered, lower, nonpos.1⟩

end Library

end Ecclesia
