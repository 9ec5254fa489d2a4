import Mathlib.Data.Nat.Bitwise

namespace Ecclesia.Masks

open Nat

/-!
# Counting past fixed bits

Some bits of a number are fixed by a mask.  The next number with the same fixed bits is found by
setting all of them, adding one, and putting them back: the carry runs through the fixed bits.
-/

lemma eq_of_and_or {mask first second : Nat} (fixed : first &&& mask = second &&& mask)
    (free : first ||| mask = second ||| mask) : first = second := by
  apply eq_of_testBit_eq
  intro i
  have atFixed := congrArg (fun n => n.testBit i) fixed
  have atFree := congrArg (fun n => n.testBit i) free
  simp only [testBit_and, testBit_or] at atFixed atFree
  cases bit : mask.testBit i with
  | false => rwa [bit, Bool.or_false, Bool.or_false] at atFree
  | true => rwa [bit, Bool.and_true, Bool.and_true] at atFixed

/-- `next` has the fixed bits of `current` and the free bits of the sum. -/
structure Follows (mask current next : Nat) : Prop where
  fixed : next &&& mask = current &&& mask
  free : next ||| mask = ((current ||| mask) + 1) ||| mask

variable {mask current next other : Nat}

lemma half_fixed (fixed : next &&& mask = current &&& mask) :
    next / 2 &&& mask / 2 = current / 2 &&& mask / 2 := by
  rw [<- and_div_two, <- and_div_two, fixed]

lemma half_free {sum : Nat} (free : next ||| mask = sum ||| mask) :
    next / 2 ||| mask / 2 = sum / 2 ||| mask / 2 := by
  rw [<- or_div_two, <- or_div_two, free]

lemma parity_fixed (fixed : next &&& mask = current &&& mask) (odd : mask % 2 = 1) :
    next % 2 = current % 2 := by
  have parity : next % 2 = 1 ↔ current % 2 = 1 := by
    have same := congrArg (fun n => n % 2 = 1) fixed
    simpa only [and_mod_two_eq_one, odd, and_true, eq_iff_iff] using same
  omega

lemma parity_free {sum : Nat} (free : next ||| mask = sum ||| mask) (even : mask % 2 = 0) :
    next % 2 = sum % 2 := by
  have parity : next % 2 = 1 ↔ sum % 2 = 1 := by
    have same := congrArg (fun n => n % 2 = 1) free
    simpa only [or_mod_two_eq_one, even, zero_ne_one, or_false, eq_iff_iff] using same
  omega

lemma Follows.half (follows : Follows mask current next)
    (carries : (current ||| mask) % 2 = 1) : Follows (mask / 2) (current / 2) (next / 2) := by
  have half : ((current ||| mask) + 1) / 2 = (current / 2 ||| mask / 2) + 1 := by
    rw [<- or_div_two]
    omega
  refine ⟨half_fixed follows.fixed, ?_⟩
  rw [half_free follows.free, half]

lemma Follows.least (follows : Follows mask current next)
    (fixed : other &&& mask = current &&& mask) (above : current < other) :
    current < next ∧ next <= other := by
  -- By induction on the bits of the bound.
  induction other using Nat.strong_induction_on generalizing mask current next with
  | h other ih =>
    have halves (higher : current / 2 < other / 2)
        (carries : (current ||| mask) % 2 = 1) :
        current / 2 < next / 2 ∧ next / 2 <= other / 2 :=
      ih (other / 2) (by omega) (follows.half carries) (half_fixed fixed) higher
    rcases mod_two_eq_zero_or_one mask with even | odd
    · have sum := parity_free follows.free even
      rcases mod_two_eq_zero_or_one current with currentEven | currentOdd
      · -- There is no carry, and the last bit is set.
        have stays : (current ||| mask) % 2 = 0 := by
          have notOdd : ¬ (current ||| mask) % 2 = 1 := by
            rw [or_mod_two_eq_one]
            omega
          omega
        have same : next / 2 = current / 2 := by
          refine eq_of_and_or (half_fixed follows.fixed) ?_
          rw [half_free follows.free]
          have half : ((current ||| mask) + 1) / 2 = (current ||| mask) / 2 := by omega
          rw [half, or_div_two, Nat.or_assoc, Nat.or_self]
        omega
      · have carries : (current ||| mask) % 2 = 1 := or_mod_two_eq_one.mpr (.inl currentOdd)
        omega
    · have carries : (current ||| mask) % 2 = 1 := or_mod_two_eq_one.mpr (.inr odd)
      have nextParity := parity_fixed follows.fixed odd
      have otherParity := parity_fixed fixed odd
      omega

end Ecclesia.Masks
