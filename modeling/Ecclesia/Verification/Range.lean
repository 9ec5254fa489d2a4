import Ecclesia.Verification.Clean

namespace Ecclesia.Verification

open Absl

/-!
# Ranges of operands

A value can be required to be in a range of operands, or not to be in it.  Both are decided
by one loop, which is content as soon as one operand passes a comparison: an equality check
for the one, an inequality check for the other.  The definitions follow `Range` in
`verification.cc`.
-/

/-- `Verification.Validation.Range`.  An open enumeration can hold other numbers too. -/
inductive Range where
  | unknown
  | rangeIn
  | rangeNotIn
  | other (value : Int)
deriving DecidableEq

section

variable (texts : ValueTexts)

/-- The loop of `Range`, with its internal errors, up to the first operand that passes. -/
def anyOperandPasses (value : QueryValue) (comparison : Compare) (context : VerificationContext) :
    List QueryValue -> List ErrorInfo -> Bool × List ErrorInfo
  | [], errors => (false, errors)
  | operand :: rest, errors =>
    match (compareQueryValues texts {} value operand comparison context).run errors with
    | (.ok _, more) => (true, more)
    | (.error _, more) => anyOperandPasses value comparison context rest more

/-- What `Range` makes of the outcome of its loop. -/
def rangeOutcome (errorMessage : Text) (outcome : Bool × List ErrorInfo) : Check Unit :=
  if outcome.1 then pure ()
  else do
    outcome.2.forM Report.write
    Report.fail (.internal errorMessage)

def range (value : QueryValue) (operands : List QueryValue) (range : Range)
    (context : VerificationContext) : Check Unit :=
  if operands.isEmpty then
    Report.fail (.failedPrecondition
      (text "Atleast one operand is required for range check. None provided."))
  else
    match range with
    | .unknown => .fail (.failedPrecondition (text "Range is not provided"))
    | .rangeIn => rangeOutcome (text "Value is not in the range of operands provided")
        (anyOperandPasses texts value .equal context operands [])
    | .rangeNotIn => rangeOutcome (text "Value is in the range of operands provided")
        (anyOperandPasses texts value .notEqual context operands [])
    | .other _ => .fail (.failedPrecondition (text "Unsupported range "))

end

/-- Whether a check returns an ok status, if some errors have been recorded before. -/
def succeeds (check : Check Unit) (errors : List ErrorInfo) : Bool :=
  (check.run errors).1.isOk

section

variable (texts : ValueTexts)

lemma succeeds_compare (options : VerificationOptions) (same : Bool) (valueA valueB : QueryValue)
    (comparison : Compare) (context : VerificationContext) (errors : List ErrorInfo) :
    succeeds (compare texts options same valueA valueB comparison context) errors =
      admits comparison same := by
  cases comparison with
  | unknown => rfl
  | equal => cases same with
    | true => rfl
    | false => rfl
  | notEqual => cases same with
    | true => rfl
    | false => rfl
  | other value => rfl

lemma succeeds_compareQueryValues (options : VerificationOptions) (valueA valueB : QueryValue)
    (comparison : Compare) (context : VerificationContext) (errors : List ErrorInfo) :
    succeeds (compareQueryValues texts options valueA valueB comparison context) errors =
      (sameValue valueA valueB).any (admits comparison) := by
  unfold compareQueryValues sameValue
  split <;> simp only [succeeds_compare, Option.any_some]
  · rfl
  · split
    · rfl
    · split
      · rfl
      · split
        · rfl
        · rfl

lemma anyOperandPasses_iff (value : QueryValue) (comparison : Compare)
    (context : VerificationContext) (operands : List QueryValue) : ∀ errors,
    (anyOperandPasses texts value comparison context operands errors).1 =
      operands.any fun operand => (sameValue value operand).any (admits comparison) := by
  induction operands with
  | nil => exact fun _ => rfl
  | cons operand rest ih =>
    intro errors
    rw [anyOperandPasses, List.any_cons,
      <- succeeds_compareQueryValues texts {} value operand comparison context errors, succeeds]
    rcases (compareQueryValues texts {} value operand comparison context).run errors with
      ⟨status | _, more⟩
    · exact (ih more).trans (Bool.false_or _).symm
    · rfl

lemma succeeds_bind_fail (first : Check Unit) (status : Status) (errors : List ErrorInfo) :
    succeeds (first >>= fun _ => .fail status) errors = false := by
  simp only [succeeds, bind]
  rcases first.run errors with ⟨failure | value, more⟩
  · rfl
  · rfl

lemma succeeds_rangeOutcome (errorMessage : Text) (outcome : Bool × List ErrorInfo)
    (errors : List ErrorInfo) : succeeds (rangeOutcome errorMessage outcome) errors = outcome.1 := by
  unfold rangeOutcome
  cases outcome.1 with
  | true => rfl
  | false => exact succeeds_bind_fail _ _ errors

section

variable (value : QueryValue) (operands : List QueryValue)

lemma succeeds_anyOperand (comparison : Compare) (context : VerificationContext)
    (unprovided : Status) (errorMessage : Text) (errors : List ErrorInfo) :
    succeeds (if operands.isEmpty then Report.fail unprovided
      else rangeOutcome errorMessage (anyOperandPasses texts value comparison context operands []))
        errors =
      operands.any fun operand => (sameValue value operand).any (admits comparison) := by
  cases operands with
  | nil => rfl
  | cons operand rest =>
    rw [if_neg (by simp), succeeds_rangeOutcome, anyOperandPasses_iff]

section

variable (context : VerificationContext) (errors : List ErrorInfo)

lemma succeeds_rangeIn :
    succeeds (range texts value operands .rangeIn context) errors = true ↔
      ∃ operand ∈ operands, sameValue value operand = some true := by
  rw [range, succeeds_anyOperand, List.any_eq_true]
  simp only [admits, Option.any_eq_true, exists_eq_right]

lemma succeeds_rangeNotIn :
    succeeds (range texts value operands .rangeNotIn context) errors = true ↔
      ∃ operand ∈ operands, sameValue value operand = some false := by
  rw [range, succeeds_anyOperand, List.any_eq_true]
  simp only [admits, Option.any_eq_true, Bool.not_eq_true', exists_eq_right]

end

end

end

/-- Two values are equal: the code says so, or it has no comparison for them and they are the
same. -/
def EqualScalars (valueA valueB : QueryValue) : Prop :=
  match sameValue valueA valueB with
  | some same => same = true
  | none => valueA = valueB

lemma equalScalars_of_some {valueA valueB : QueryValue} {same : Bool}
    (compared : sameValue valueA valueB = some same) :
    EqualScalars valueA valueB ↔ same = true := by
  rw [EqualScalars, compared]

/-- A value that cannot be compared with itself cannot be compared at all. -/
lemma sameValue_self_none {value : QueryValue} (unsupported : sameValue value value = none)
    (other : QueryValue) : sameValue value other = none := by
  cases value with
  | notSet => rfl
  | subquery fields => rfl
  | list values => rfl
  | rawUnset => rfl
  | null => rfl
  | _ => cases unsupported

/-- A range check means membership exactly if the value can be compared with some operand, and is
equal to all of those that it can be compared with or to none of them. -/
theorem range_means_membership_iff :
    ∀ (texts : ValueTexts) (value : QueryValue) (operands : List QueryValue)
        (context : VerificationContext) (errors : List ErrorInfo),
      ((succeeds (range texts value operands .rangeIn context) errors = true ↔
            ∃ operand ∈ operands, EqualScalars value operand) ∧
          (succeeds (range texts value operands .rangeNotIn context) errors = true ↔
            ∀ operand ∈ operands, ¬ EqualScalars value operand) ∧
          (succeeds (range texts value operands .rangeIn context) errors = true ↔
            ¬ succeeds (range texts value operands .rangeNotIn context) errors = true)) ↔
        ∃ same, (∃ operand ∈ operands, sameValue value operand = some same) ∧
          ∀ operand ∈ operands,
            sameValue value operand = none ∨ sameValue value operand = some same := by
  intro texts value operands context errors
  rw [succeeds_rangeIn, succeeds_rangeNotIn]
  constructor
  · rintro ⟨_, _, oneOf⟩
    by_cases inside : ∃ operand ∈ operands, sameValue value operand = some true
    · refine ⟨true, inside, fun operand member => ?_⟩
      cases compared : sameValue value operand with
      | none => exact .inl rfl
      | some same =>
        cases same with
        | true => exact .inr rfl
        | false => exact absurd ⟨operand, member, compared⟩ (oneOf.mp inside)
    · have outside := Classical.not_not.mp fun different => inside (oneOf.mpr different)
      refine ⟨false, outside, fun operand member => ?_⟩
      cases compared : sameValue value operand with
      | none => exact .inl rfl
      | some same =>
        cases same with
        | true => exact absurd ⟨operand, member, compared⟩ inside
        | false => exact .inr rfl
  · rintro ⟨same, ⟨operand, member, compared⟩, uniform⟩
    cases same with
    | true =>
      have noneDiffers : ¬ ∃ other ∈ operands, sameValue value other = some false := by
        rintro ⟨other, isOther, differs⟩
        rcases uniform other isOther with incomparable | same
        · rw [differs] at incomparable
          cases incomparable
        · rw [differs] at same
          cases same
      have equal : EqualScalars value operand := (equalScalars_of_some compared).mpr rfl
      refine ⟨iff_of_true ⟨operand, member, compared⟩ ⟨operand, member, equal⟩,
        iff_of_false noneDiffers fun differ => differ operand member equal,
        iff_of_true ⟨operand, member, compared⟩ noneDiffers⟩
    | false =>
      have noneSame : ¬ ∃ other ∈ operands, sameValue value other = some true := by
        rintro ⟨other, isOther, equal⟩
        rcases uniform other isOther with incomparable | same
        · rw [equal] at incomparable
          cases incomparable
        · rw [equal] at same
          cases same
      have differ : ∀ other ∈ operands, ¬ EqualScalars value other := by
        intro other isOther equal
        rcases uniform other isOther with incomparable | different
        · rw [EqualScalars, incomparable] at equal
          have same : value = other := equal
          rw [<- same] at incomparable
          rw [sameValue_self_none incomparable operand] at compared
          cases compared
        · exact Bool.false_ne_true ((equalScalars_of_some different).mp equal)
      refine ⟨iff_of_false noneSame fun ⟨other, isOther, equal⟩ => differ other isOther equal,
        iff_of_true ⟨operand, member, compared⟩ differ,
        iff_of_false noneSame fun outside => outside ⟨operand, member, compared⟩⟩

def emptyTexts : ValueTexts where
  format _ := []
  dump _ := []

/-- With an equal and a different operand a value is in the range and not in it. -/
theorem range_in_and_not_in :
    succeeds (range emptyTexts (.int 1) [.int 1, .int 2] .rangeIn {}) [] = true ∧
      succeeds (range emptyTexts (.int 1) [.int 1, .int 2] .rangeNotIn {}) [] = true := by
  exact ⟨rfl, rfl⟩

end Ecclesia.Verification
