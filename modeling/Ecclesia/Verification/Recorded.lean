import Ecclesia.Library.Steady
import Ecclesia.Verification.Compare

namespace Ecclesia.Verification

open Absl List
open Report (SteadyAs WritesOnly writesOnly_fail writesOnly_pure)

/-!
# What a comparison records

A comparison writes its errors behind those that are there already.  It looks at these only
after the items of a list have been filed: then any error ends the comparison, also one that
has nothing to do with the list.  All errors are recorded for the path of the context or for a
path that continues it.
-/

/-- The path of an error continues the path of a context. -/
def Below (context : VerificationContext) (error : ErrorInfo) : Prop :=
  context.path <+: error.path

/-- What all comparisons have in common: they are steady and record errors below their
context. -/
structure Recorded {Value : Type} (context : VerificationContext) (check : Check Value) : Prop where
  steady : Report.Steady check
  below : Report.WritesOnly (Below context) check

section

variable {Value Result : Type} {context : VerificationContext}

lemma recorded_pure (value : Value) : Recorded context (pure value : Check Value) :=
  ⟨(Report.steadyAs_pure value).steady, writesOnly_pure value⟩

lemma recorded_fail (status : Status) : Recorded context (Report.fail status : Check Value) :=
  ⟨(Report.steadyAs_fail status).steady, writesOnly_fail status⟩

lemma recorded_addError (message : Text) : Recorded context (addError message context) :=
  ⟨(Report.steadyAs_write _).steady, Report.writesOnly_write prefix_rfl⟩

lemma Recorded.bind {first : Check Value} {next : Value -> Check Result}
    (recorded : Recorded context first) (later : ∀ value, Recorded context (next value)) :
    Recorded context (first >>= next) :=
  ⟨recorded.steady.bind fun value => (later value).steady,
    recorded.below.bind fun value => (later value).below⟩

lemma Recorded.of_longer {longer : VerificationContext} {check : Check Value}
    (recorded : Recorded longer check) (continues : context.path <+: longer.path) :
    Recorded context check :=
  ⟨recorded.steady, recorded.below.mono fun _ below => continues.trans below⟩

lemma prefix_appendProperty (context : VerificationContext) (property : Text) :
    context.path <+: context.appendProperty property := by
  unfold VerificationContext.appendProperty
  split
  · rename_i empty
    rw [List.isEmpty_iff.mp empty]
    exact nil_prefix
  · rw [append_assoc]
    exact prefix_append _ _

lemma prefix_addIndex (context : VerificationContext) (index : Text) :
    context.path <+: context.addIndex index := by
  unfold VerificationContext.addIndex
  split
  · rename_i empty
    rw [List.isEmpty_iff.mp empty]
    exact nil_prefix
  · rw [append_assoc, append_assoc]
    exact prefix_append _ _

lemma path_annotate (valueA valueB : QueryResultData) (context : VerificationContext) :
    (annotate valueA valueB context).path = context.path := by
  unfold annotate
  split
  · rfl
  · split
    · rfl
    · rfl

variable (texts : ValueTexts) (options : VerificationOptions)

lemma recorded_compare (same : Bool) (valueA valueB : QueryValue) (comparison : Compare)
    (context : VerificationContext) :
    Recorded context (compare texts options same valueA valueB comparison context) := by
  have differs : ∀ message, Recorded context (addAndReturnError message context) :=
    fun message => (recorded_addError message).bind fun _ => recorded_fail _
  cases comparison with
  | unknown => exact recorded_pure ()
  | equal => cases same with
    | true => exact recorded_pure ()
    | false => exact differs _
  | notEqual => cases same with
    | true => exact differs _
    | false => exact recorded_pure ()
  | other value => exact recorded_fail _

lemma recorded_compareQueryValues (valueA valueB : QueryValue) (comparison : Compare)
    (context : VerificationContext) :
    Recorded context (compareQueryValues texts options valueA valueB comparison context) := by
  unfold compareQueryValues
  split <;> try exact recorded_compare texts options _ _ _ comparison context
  · exact recorded_fail _
  · split
    · exact recorded_fail _
    · split
      · exact recorded_fail _
      · split
        · exact recorded_fail _
        · exact recorded_fail _

lemma steadyAs_processResult : SteadyAs processResult none [] where
  behind before written := by
    cases before with
    | nil => exact absurd rfl written
    | cons error rest => exact ⟨rfl, (append_nil _).symm⟩
  begins := prefix_rfl
  alone := nofun

lemma recorded_addItem (identifiers : List Text) (label : Text) (isFirstItem useIndex : Bool)
    (context : VerificationContext) (dataMap : HashMap Text ItemPair) (item : QueryValue × Nat) :
    Recorded context
      (addItem texts identifiers label isFirstItem useIndex context dataMap item) := by
  unfold addItem
  split
  · exact recorded_pure _
  · split
    · exact (recorded_addError _).bind fun _ => recorded_pure _
    · split
      · exact (recorded_addError _).bind fun _ => recorded_pure _
      · exact recorded_pure _

lemma steadyAs_addToDataMap (identifiers : List Text) (values : List QueryValue) (label : Text)
    (isFirstItem useIndex : Bool) (context : VerificationContext)
    (dataMap : HashMap Text ItemPair) : ∃ late,
    SteadyAs (addToDataMap texts identifiers values label isFirstItem useIndex context dataMap)
      none late := by
  have loop := Report.steady_foldlM (fun dataMap item =>
    (recorded_addItem texts identifiers label isFirstItem useIndex context dataMap item).steady)
    values.zipIdx dataMap
  exact loop.bind_check fun filled => steadyAs_processResult.bind_none fun _ => pure filled

lemma below_addToDataMap (identifiers : List Text) (values : List QueryValue) (label : Text)
    (isFirstItem useIndex : Bool) (context : VerificationContext)
    (dataMap : HashMap Text ItemPair) :
    WritesOnly (Below context)
      (addToDataMap texts identifiers values label isFirstItem useIndex context dataMap) := by
  have loop := Report.writesOnly_foldlM (fun dataMap item =>
    (recorded_addItem texts identifiers label isFirstItem useIndex context dataMap item).below)
    values.zipIdx dataMap
  refine loop.bind fun filled => WritesOnly.bind ?_ fun _ => writesOnly_pure filled
  refine Report.writesOnly_entries.bind fun errors => ?_
  split
  · exact writesOnly_pure ()
  · exact writesOnly_fail _

lemma below_checkListItem (identifier : Text) (useIndex : Bool) (label : Text)
    (context : VerificationContext) (item : Option QueryValue) (errorMessages : List Text) :
    WritesOnly (Below context)
      (checkListItem identifier useIndex label context item errorMessages) := by
  cases item with
  | none => exact (recorded_addError _).below.bind fun _ => writesOnly_pure _
  | some value => exact writesOnly_pure errorMessages

def itemContext (useIndex : Bool) (context : VerificationContext) (key : Text) :
    VerificationContext :=
  ⟨if useIndex then context.addIndex key else context.appendProperty key, context.uri⟩

lemma prefix_itemContext (useIndex : Bool) (context : VerificationContext) (key : Text) :
    context.path <+: (itemContext useIndex context key).path := by
  cases useIndex with
  | true => exact prefix_addIndex context key
  | false => exact prefix_appendProperty context key

variable {comparison : ListComparison}
  (data : ∀ valueA valueB context, Recorded context (comparison.data valueA valueB context))

include data

lemma below_compareItems (itemA itemB : QueryValue) (context : VerificationContext)
    (state : ListState) :
    WritesOnly (Below context)
      (compareItems texts options comparison itemA itemB context state) := by
  unfold compareItems
  split
  · exact (data _ _ context).below.attempt.bind fun _ => writesOnly_pure _
  · exact writesOnly_fail _
  · exact (recorded_compareQueryValues texts options _ _ _ context).below.bind fun _ =>
      writesOnly_pure state

lemma below_compareEntry (useIndex : Bool) (context : VerificationContext) (state : ListState)
    (entry : Text × ItemPair) :
    WritesOnly (Below context)
      (compareEntry texts options comparison useIndex context state entry) := by
  refine (below_checkListItem _ _ _ _ _ _).bind fun afterA =>
    (below_checkListItem _ _ _ _ _ _).bind fun errorMessages => ?_
  split
  · refine (below_compareItems texts options data _ _ _ _).mono fun error below => ?_
    exact (prefix_itemContext useIndex context entry.1).trans below
  · exact writesOnly_pure _

lemma recorded_compareListValues (order : IterationOrder (Text × ItemPair))
    (valuesA valuesB : List QueryValue) (context : VerificationContext) :
    Recorded context (compareListValues texts options order comparison valuesA valuesB context) := by
  constructor
  · rcases steadyAs_addToDataMap texts comparison.identifiers valuesA options.labelA true
      comparison.identifiers.isEmpty context ⟨[], nodup_nil⟩ with ⟨late, fails⟩
    exact (fails.bind_none _).steady
  · refine (below_addToDataMap _ _ _ _ _ _ _ _).bind fun first =>
      (below_addToDataMap _ _ _ _ _ _ _ _).bind fun dataMap =>
        (Report.writesOnly_foldlM (fun state entry =>
          below_compareEntry texts options data _ context state entry) _ _).bind fun state => ?_
    unfold finishList
    split
    · exact writesOnly_fail _
    · split
      · exact writesOnly_fail _
      · exact writesOnly_pure ()

end

lemma recorded_compareNothing (valueA valueB : QueryResultData) (context : VerificationContext) :
    Recorded context (compareNothing valueA valueB context) :=
  recorded_pure ()

variable {Requirement : Type} (texts : ValueTexts) (options : VerificationOptions)
  (validates : QueryValue -> Requirement -> Bool) (order : IterationOrder (Text × ItemPair))

lemma recorded_compareByKind {data : DataComparison} {list : ListComparison}
    (recorded : ∀ valueA valueB context, Recorded context (data valueA valueB context))
    (items : ∀ valueA valueB context, Recorded context (list.data valueA valueB context))
    (comparison : Compare) (valueA valueB : QueryValue) (context : VerificationContext) :
    Recorded context
      (compareByKind texts options order data list comparison valueA valueB context) := by
  unfold compareByKind
  split
  · exact recorded _ _ context
  · exact recorded_compareListValues texts options items order _ _ context
  · exact recorded_compareQueryValues texts options _ _ comparison context

mutual

theorem recorded_compareFields (fields : List (Text × QueryValueVerification Requirement))
    (valueA valueB : QueryResultData) (context : VerificationContext) :
    Recorded context (compareFields texts options validates order fields valueA valueB context) := by
  match fields with
  | [] =>
    exact recorded_pure ()
  | (property, operations) :: rest =>
    refine .bind ?_ fun _ => recorded_compareFields rest valueA valueB context
    split
    · exact recorded_pure ()
    · exact recorded_addError _
    · exact recorded_addError _
    · refine (recorded_compareOperations operations valueA valueB _ _ _).of_longer ?_
      exact prefix_appendProperty context property

theorem recorded_compareOperations (operations : QueryValueVerification Requirement)
    (valueA valueB : QueryResultData) (fieldA fieldB : QueryValue) (context : VerificationContext) :
    Recorded context
      (compareOperations texts options validates order operations valueA valueB fieldA fieldB
        context) := by
  match operations with
  | .mk kind overrides =>
    exact recorded_compareOverrides overrides (recorded_compareKind kind fieldA fieldB context)
      valueA valueB fieldA fieldB

theorem recorded_compareOverrides (overrides : List (ConditionalVerification Requirement))
    {otherwise : Check Unit} {context : VerificationContext}
    (recorded : Recorded context otherwise) (valueA valueB : QueryResultData)
    (fieldA fieldB : QueryValue) :
    Recorded context
      (compareOverrides texts options validates order overrides otherwise valueA valueB fieldA fieldB
        context) := by
  match overrides with
  | [] =>
    exact recorded
  | .mk conditionalVerify types :: rest =>
    rw [compareOverrides]
    split
    · exact recorded_compareConditional conditionalVerify fieldA fieldB context
    · exact recorded_compareOverrides rest recorded valueA valueB fieldA fieldB

theorem recorded_compareConditional (verify : QueryValueVerification Requirement)
    (fieldA fieldB : QueryValue) (context : VerificationContext) :
    Recorded context
      (compareConditional texts options validates order verify fieldA fieldB context) := by
  match verify with
  | .mk kind overrides =>
    exact recorded_compareKind kind fieldA fieldB context

theorem recorded_compareKind (kind : VerificationKind Requirement) (fieldA fieldB : QueryValue)
    (context : VerificationContext) :
    Recorded context (compareKind texts options validates order kind fieldA fieldB context) := by
  match kind with
  | .notSet =>
    exact recorded_compareByKind texts options order recorded_compareNothing
      recorded_compareNothing _ fieldA fieldB context
  | .verify comparison =>
    exact recorded_compareByKind texts options order recorded_compareNothing
      recorded_compareNothing _ fieldA fieldB context
  | .listCompare identifiers verify =>
    exact recorded_compareByKind texts options order recorded_compareNothing
      (recorded_compareData verify) _ fieldA fieldB context
  | .dataCompare fields =>
    rw [compareKind]
    refine recorded_compareByKind texts options order ?_ recorded_compareNothing _ fieldA fieldB
      context
    intro valueA valueB context
    refine (recorded_compareFields fields valueA valueB (annotate valueA valueB context)).of_longer ?_
    rw [path_annotate]

theorem recorded_compareData (verify : QueryValueVerification Requirement)
    (valueA valueB : QueryResultData) (context : VerificationContext) :
    Recorded context (compareData texts options validates order verify valueA valueB context) := by
  match verify with
  | .mk kind overrides =>
    match kind with
    | .notSet =>
      exact recorded_pure ()
    | .verify comparison =>
      exact recorded_pure ()
    | .listCompare identifiers verify =>
      exact recorded_pure ()
    | .dataCompare fields =>
      refine (recorded_compareFields fields valueA valueB (annotate valueA valueB
        context)).of_longer ?_
      rw [path_annotate]

end

end Ecclesia.Verification
