import Ecclesia.Library.Rounding
import Ecclesia.Transport.CacheNode
import Mathlib.Data.Rat.Floor

namespace Ecclesia.HttpIntf

open Transport (Body)

/-!
# Integer values of properties

A property is read into an integer of 32 or 64 bits.  A JSON number may be a signed integer,
an unsigned one or a floating point number, and only the last one is compared with the bounds
of the target.

The definitions follow `HttpIntfVariantImpl::GetValue`.  A double is its exact rational value.
Where the conversion of a double to an integer is undefined, its result is arbitrary.
-/

/-- The types of integers that a value can be read into. -/
inductive IntegerTarget where
  | int32
  | int64
deriving DecidableEq

namespace IntegerTarget

def width : IntegerTarget -> Nat
  | int32 => 32
  | int64 => 64

/-- `std::numeric_limits<T>::max()` -/
def max (target : IntegerTarget) : Int :=
  2 ^ (target.width - 1) - 1

/-- `std::numeric_limits<T>::min()` -/
def min (target : IntegerTarget) : Int :=
  -2 ^ (target.width - 1)

def Holds (target : IntegerTarget) (n : Int) : Prop :=
  target.min <= n ∧ n <= target.max

instance (target : IntegerTarget) (n : Int) : Decidable (target.Holds n) :=
  inferInstanceAs (Decidable (_ ∧ _))

end IntegerTarget

/-- `static_cast<double>` of an integer. -/
def toDouble (n : Int) : Int :=
  roundToBits 53 n

section

variable (target : IntegerTarget) (undefinedCast : Int -> BitVec target.width)

/-- `static_cast` of a double without a fraction to the target. -/
def castDouble (n : Int) : BitVec target.width :=
  if target.Holds n then BitVec.ofInt target.width n else undefinedCast n

/-- `GetValue` at an integer type: what is stored if it returns true. -/
def getValueInteger : Body -> Option (BitVec target.width)
  | .bytes _ => none
  | .json json =>
    match json with
    | .integer value => some (BitVec.ofInt target.width value)
    | .unsigned value => some (BitVec.ofInt target.width value)
    | .float value =>
      let transTmp := roundAway value
      if transTmp > toDouble target.max ∨ transTmp < toDouble target.min then none
      else some (castDouble target undefinedCast transTmp)
    | _ => none

end

def getValueInt32 (undefinedCast : Int -> BitVec 32) : Body -> Option (BitVec 32) :=
  getValueInteger .int32 undefinedCast

def getValueInt64 (undefinedCast : Int -> BitVec 64) : Body -> Option (BitVec 64) :=
  getValueInteger .int64 undefinedCast

def number? : Body -> Option Rat
  | .json (.integer value) => some value
  | .json (.unsigned value) => some value
  | .json (.float value) => some value
  | _ => none

/-- The nearest integer, if the target can hold it. -/
def integerValue (target : IntegerTarget) (body : Body) : Option Int :=
  match number? body with
  | none => none
  | some x => if target.Holds (roundAway x) then some (roundAway x) else none

/-- The target holds an integer. A float beyond 64 bits is compared as if it was in range. -/
def FitsTarget (target : IntegerTarget) : Body -> Prop
  | .json (.integer value) => target.Holds value
  | .json (.unsigned value) => target.Holds value
  | .json (.float value) => ¬ (target = .int64 ∧ roundAway value = 2 ^ 63)
  | _ => True

/-- The conversion to the target changes exactly those integers that it cannot hold. -/
lemma toInt_ofInt_iff (target : IntegerTarget) (n : Int) :
    (BitVec.ofInt target.width n).toInt = n <-> target.Holds n := by
  constructor
  · intro same
    have lower := BitVec.le_two_mul_toInt (x := BitVec.ofInt target.width n)
    have upper := BitVec.two_mul_toInt_lt (x := BitVec.ofInt target.width n)
    rw [same] at lower upper
    cases target with
    | int32 =>
      simp only [IntegerTarget.width] at lower upper
      exact ⟨by change -2 ^ 31 <= n; omega, by change n <= 2 ^ 31 - 1; omega⟩
    | int64 =>
      simp only [IntegerTarget.width] at lower upper
      exact ⟨by change -2 ^ 63 <= n; omega, by change n <= 2 ^ 63 - 1; omega⟩
  · intro holds
    have positive : 0 < target.width := by cases target <;> decide
    have upper : n < 2 ^ (target.width - 1) := Int.lt_of_le_sub_one holds.2
    exact BitVec.toInt_ofInt_eq_self positive holds.1 upper

variable {target : IntegerTarget} {undefinedCast : Int -> BitVec target.width}

lemma integer_iff {body : Body} {n : Int} (isNumber : number? body = some (n : Rat)) :
    (some (BitVec.ofInt target.width n)).map BitVec.toInt = integerValue target body <->
      target.Holds n := by
  rw [integerValue, isNumber]
  dsimp only
  rw [roundAway_intCast, Option.map_some]
  constructor
  · intro same
    by_cases holds : target.Holds n
    · exact holds
    · rw [if_neg holds] at same
      cases same
  · intro holds
    rw [if_pos holds, (toInt_ofInt_iff target n).mpr holds]

lemma castDouble_holds {n : Int} (holds : target.Holds n) :
    (castDouble target undefinedCast n).toInt = n := by
  rw [castDouble, if_pos holds, (toInt_ofInt_iff target n).mpr holds]

lemma passes_bounds_iff (target : IntegerTarget) (n : Int) :
    ¬ (n > toDouble target.max ∨ n < toDouble target.min) <->
      target.Holds n ∨ target = .int64 ∧ n = 2 ^ 63 := by
  cases target with
  | int32 =>
    rw [not_or]
    constructor
    · intro bounds
      exact .inl ⟨Int.not_lt.mp bounds.2, Int.not_lt.mp bounds.1⟩
    · intro alternatives
      rcases alternatives with holds | ⟨impossible, _⟩
      · exact ⟨Int.not_lt.mpr holds.2, Int.not_lt.mpr holds.1⟩
      · cases impossible
  | int64 =>
    rw [not_or]
    change ¬ n > 2 ^ 63 ∧ ¬ n < -2 ^ 63 <-> (-2 ^ 63 <= n ∧ n <= 2 ^ 63 - 1) ∨ _ ∧ n = 2 ^ 63
    rw [eq_self, true_and]
    omega

/-- A floating point number is read as it is meant, unless it is rounded to the bound of 64
bits. -/
lemma float_iff (value : Rat) :
    (getValueInteger target undefinedCast (.json (.float value))).map BitVec.toInt =
        integerValue target (.json (.float value)) <->
      ¬ (target = .int64 ∧ roundAway value = 2 ^ 63) := by
  have passing := passes_bounds_iff target (roundAway value)
  have tooGreat : target = .int64 ∧ roundAway value = 2 ^ 63 -> ¬ target.Holds (roundAway value) := by
    intro same holds
    have bound := holds.2
    rw [same.1, same.2] at bound
    exact absurd bound (by decide)
  rw [getValueInteger, integerValue, number?]
  dsimp only
  by_cases holds : target.Holds (roundAway value)
  · rw [if_neg (passing.mpr (.inl holds)), if_pos holds, Option.map_some, castDouble_holds holds]
    exact iff_of_true rfl fun same => tooGreat same holds
  · rw [if_neg holds]
    by_cases same : target = .int64 ∧ roundAway value = 2 ^ 63
    · rw [if_neg (passing.mpr (.inr same))]
      exact iff_of_false (fun impossible => by cases impossible) fun other => other same
    · have stopped : roundAway value > toDouble target.max ∨ roundAway value < toDouble target.min := by
        by_contra passes
        rcases passing.mp passes with holds' | same'
        · exact holds holds'
        · exact same same'
      rw [if_pos stopped]
      exact iff_of_true rfl same

/-- An integer read stores the nearest integer if the target can hold it, and returns false
otherwise, exactly under the condition on the number. -/
theorem getValueInteger_exact_iff (target : IntegerTarget)
    (undefinedCast : Int -> BitVec target.width) (body : Body) :
    (getValueInteger target undefinedCast body).map BitVec.toInt = integerValue target body <->
      FitsTarget target body := by
  cases body with
  | bytes content => exact iff_of_true rfl trivial
  | json json =>
    cases json with
    | integer value => exact integer_iff rfl
    | unsigned value => exact integer_iff rfl
    | float value => exact float_iff value
    | _ => exact iff_of_true rfl trivial

/-- An integer of more than 32 bits is read as another one. -/
theorem getValueInt32_wraps :
    (getValueInt32 (fun _ => 0) (.json (.integer 4294967301))).map BitVec.toInt = some 5 ∧
      integerValue .int32 (.json (.integer 4294967301)) = none := by
  constructor
  · decide
  · rw [integerValue, number?]
    dsimp only
    rw [roundAway_intCast]
    decide

end Ecclesia.HttpIntf
