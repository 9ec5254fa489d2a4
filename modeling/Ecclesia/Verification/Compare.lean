import Ecclesia.Library.Assoc
import Ecclesia.Library.Chain
import Ecclesia.Library.Report
import Ecclesia.Query.Proto

namespace Ecclesia.Verification

open Absl

/-!
# Comparing query results

`CompareSubqueryValues` compares two data sets along a tree that says which fields
are to be compared and how.  A difference is written into a report, with the path
where it was found, and some differences end the comparison.  The definitions
follow `verification.cc`.

The texts that values have in messages and in identifiers are parameters, and so is
the order in which a hash table is iterated.
-/

/-- `Verification.Compare`.  An open enumeration can hold other numbers too. -/
inductive Compare where
  | unknown
  | equal
  | notEqual
  | other (value : Int)
deriving DecidableEq

/-- `Conditions.Condition`.  What a condition requires of a value is checked by
`QueryValueValidation`. -/
structure Condition (Requirement : Type) where
  propertyName : Text
  condition : Requirement

/-- The `ConditionalTypes` of an override. -/
inductive ConditionalTypes (Requirement : Type) where
  | notSet
  | allOf (conditions : List (Condition Requirement))
  | anyOf (conditions : List (Condition Requirement))

mutual

inductive QueryValueVerification (Requirement : Type) where
  | mk (kind : VerificationKind Requirement) (overrides : List (ConditionalVerification Requirement))

/-- The `kind` of a `QueryValueVerification`, with what a comparison reads of it. -/
inductive VerificationKind (Requirement : Type) where
  | notSet
  | verify (comparison : Compare)
  | listCompare (identifiers : List Text) (verify : QueryValueVerification Requirement)
  | dataCompare (fields : List (Text × QueryValueVerification Requirement))

inductive ConditionalVerification (Requirement : Type) where
  | mk (conditionalVerify : QueryValueVerification Requirement)
      (types : ConditionalTypes Requirement)

end

/-- `verify().comparison()`, which is the default for another kind. -/
def QueryValueVerification.comparison {Requirement : Type} :
    QueryValueVerification Requirement -> Compare
  | .mk (.verify comparison) _ => comparison
  | _ => .unknown

structure VerificationOptions where
  labelA : Text := text "valueA"
  labelB : Text := text "valueB"

structure VerificationContext where
  path : Text := []
  uri : Text := []

namespace VerificationContext

def appendProperty (context : VerificationContext) (property : Text) : Text :=
  if context.path.isEmpty then property else context.path ++ text "." ++ property

def addIndex (context : VerificationContext) (index : Text) : Text :=
  if context.path.isEmpty then text "[" ++ index ++ text "]"
  else context.path ++ text "[" ++ index ++ text "]"

/-- `VerificationContext::ToString` -/
def toText (context : VerificationContext) : Text :=
  let result :=
    (if context.path.isEmpty then [] else [text "path: '" ++ context.path ++ text "'"]) ++
      (if context.uri.isEmpty then [] else [text "uri: '" ++ context.uri ++ text "'"])
  if result.isEmpty then [] else text "(" ++ strJoin result (text ", ") ++ text ") "

end VerificationContext

/-- `QueryVerificationResult.ErrorInfo` -/
structure ErrorInfo where
  msg : Text
  path : Text
  uri : Option Text
deriving DecidableEq

/-- A check that writes into a `QueryVerificationResult` and returns a status. -/
abbrev Check (Value : Type) := Report ErrorInfo Status Value

def addError (message : Text) (context : VerificationContext) : Check Unit :=
  Report.write ⟨message, context.path, if context.uri.isEmpty then none else some context.uri⟩

def addAndReturnError (message : Text) (context : VerificationContext) : Check Unit := do
  addError message context
  Report.fail (.internal message)

def processResult : Check Unit := do
  let errors <- Report.entries
  if errors.isEmpty then pure ()
  else Report.fail (.internal (strJoin (errors.map ErrorInfo.msg) (text "\n")))

/-- `QueryValue::KindCase` -/
inductive KindCase where
  | notSet
  | int
  | double
  | string
  | bool
  | timestamp
  | subquery
  | list
  | identifier
  | rawData
  | null
deriving DecidableEq

def kindCase : QueryValue -> KindCase
  | .notSet => .notSet
  | .int _ => .int
  | .double _ => .double
  | .string _ => .string
  | .bool _ => .bool
  | .timestamp _ _ => .timestamp
  | .subquery _ => .subquery
  | .list _ => .list
  | .identifier _ => .identifier
  | .rawUnset | .rawString _ | .rawBytes _ => .rawData
  | .null => .null

/-- The texts of values: in messages, and as a part of an identifier. -/
structure ValueTexts where
  format : QueryValue -> Text
  dump : QueryValue -> Text

/-- The equality of identifiers, which reads a field that is not set as empty. -/
def sameIdentifier (first second : Identifier) : Bool :=
  first.localDevpath.getD [] == second.localDevpath.getD [] &&
    first.machineDevpath.getD [] == second.machineDevpath.getD [] &&
    first.embeddedLocationContext.getD [] == second.embeddedLocationContext.getD [] &&
    serviceLabel first == serviceLabel second &&
    partLocationContext first == partLocationContext second
where
  serviceLabel (identifier : Identifier) : Text :=
    (identifier.redfishLocation.map RedfishLocation.serviceLabel).getD []
  partLocationContext (identifier : Identifier) : Text :=
    (identifier.redfishLocation.bind RedfishLocation.partLocationContext).getD []

/-- The nanoseconds since the epoch, of `AbslTimeFromProtoTime`. -/
def timeOf (seconds nanos : Int) : Int :=
  seconds * 1000000000 + nanos

variable (texts : ValueTexts) (options : VerificationOptions)

def internalErrorMessage (message : Text) (valueA valueB : QueryValue)
    (context : VerificationContext) : Text :=
  context.toText ++ message ++ text ", " ++ options.labelA ++ text ": '" ++ texts.format valueA ++
    text "', " ++ options.labelB ++ text ": '" ++ texts.format valueB ++ text "'"

/-- `Compare` for two values of the same type, with the outcome of their equality. -/
def compare (same : Bool) (valueA valueB : QueryValue) (comparison : Compare)
    (context : VerificationContext) : Check Unit :=
  match comparison with
  | .unknown => pure ()
  | .equal =>
    if same then pure ()
    else addAndReturnError
      (internalErrorMessage texts options (text "Failed equality check") valueA valueB context)
      context
  | .notEqual =>
    if same then addAndReturnError
      (internalErrorMessage texts options (text "Failed inequality check") valueA valueB context)
      context
    else pure ()
  | .other _ => .fail (.internal (text "Unsupported comparison "))

/-- `CompareQueryValues`, with `CompareRawData` in its cases. -/
def compareQueryValues (valueA valueB : QueryValue) (comparison : Compare)
    (context : VerificationContext) : Check Unit :=
  match valueA, valueB with
  | .int a, .int b => compare texts options (a == b) valueA valueB comparison context
  | .double a, .double b => compare texts options (a == b) valueA valueB comparison context
  | .string a, .string b => compare texts options (a == b) valueA valueB comparison context
  | .bool a, .bool b => compare texts options (a == b) valueA valueB comparison context
  | .timestamp secondsA nanosA, .timestamp secondsB nanosB =>
    compare texts options (timeOf secondsA nanosA == timeOf secondsB nanosB) valueA valueB
      comparison context
  | .identifier a, .identifier b =>
    compare texts options (sameIdentifier a b) valueA valueB comparison context
  | .rawString a, .rawString b => compare texts options (a == b) valueA valueB comparison context
  | .rawBytes a, .rawBytes b => compare texts options (a == b) valueA valueB comparison context
  | .rawUnset, .rawUnset => .fail (.failedPrecondition (text "Unsupported raw data type"))
  | valueA, valueB =>
    if kindCase valueA != kindCase valueB then
      Report.fail (.failedPrecondition
        (text "Query values have different types and cannot be compared."))
    else if kindCase valueA = .rawData then
      Report.fail (.failedPrecondition
        (text "Raw data values have different types and cannot be compared"))
    else if kindCase valueA = .subquery || kindCase valueA = .list then
      Report.fail (.failedPrecondition (text "Only scalar values can be compared"))
    else Report.fail (.failedPrecondition (text "Unsupported query value type"))

/-- How two data sets are compared: the function for one verification. -/
abbrev DataComparison := QueryResultData -> QueryResultData -> VerificationContext -> Check Unit

/-- What the comparison of two lists reads of its verification. -/
structure ListComparison where
  identifiers : List Text
  data : DataComparison
  comparison : Compare

/-- `subquery_value()`, which is empty for another kind of value. -/
def subqueryValue : QueryValue -> QueryResultData
  | .subquery fields => fields
  | _ => []

/-- `list_value().values()`, which is empty for another kind of value. -/
def listValue : QueryValue -> List QueryValue
  | .list values => values
  | _ => []

/-- The parts of an identifier of an item. -/
def identifierValues (fields : QueryResultData) : List Text -> StatusOr (List Text)
  | [] => .ok []
  | identifier :: rest =>
    match fields.lookup identifier with
    | none =>
      .error (.failedPrecondition (text "property '" ++ identifier ++ text "' is not present"))
    | some value =>
      (identifierValues fields rest).map fun later =>
        (identifier ++ text "=" ++ texts.dump value) :: later

def generateIdentifier (identifiers : List Text) (value : QueryValue) : StatusOr Text :=
  match value with
  | .subquery fields =>
    (identifierValues texts fields identifiers).map fun values => strJoin values (text ",")
  | _ =>
    .error (.failedPrecondition (text "Identifiers are only supported for subquery values"))

/-- An entry of `data_map`: the items of both lists, where there is one. -/
structure ItemPair where
  first : Option QueryValue
  second : Option QueryValue

/-- `data_map[key]`, with one of the items set. -/
def putItem (isFirstItem : Bool) (dataMap : HashMap Text ItemPair) (key : Text)
    (value : QueryValue) : HashMap Text ItemPair :=
  let pair := (dataMap.lookup key).getD ⟨none, none⟩
  dataMap.assign key
    (if isFirstItem then { pair with first := some value } else { pair with second := some value })

/-- The body of the loop of `add_to_data_map`. -/
def addItem (identifiers : List Text) (label : Text) (isFirstItem useIndex : Bool)
    (context : VerificationContext) (dataMap : HashMap Text ItemPair) (item : QueryValue × Nat) :
    Check (HashMap Text ItemPair) :=
  if useIndex then pure (putItem isFirstItem dataMap (strCatNat item.2) item.1)
  else
    match generateIdentifier texts identifiers item.1 with
    | .error status => do
        addError (text "Missing identifier in '" ++ label ++ text "': " ++ status.message) context
        pure dataMap
    | .ok identifier =>
      if (dataMap.lookup identifier).any (fun pair => isFirstItem || pair.second.isSome) then do
        addError (text "Duplicate identifier in " ++ label ++ text ": " ++ identifier) context
        pure dataMap
      else pure (putItem isFirstItem dataMap identifier item.1)

def addToDataMap (identifiers : List Text) (values : List QueryValue) (label : Text)
    (isFirstItem useIndex : Bool) (context : VerificationContext)
    (dataMap : HashMap Text ItemPair) : Check (HashMap Text ItemPair) := do
  let filled <- values.zipIdx.foldlM
    (addItem texts identifiers label isFirstItem useIndex context) dataMap
  processResult
  pure filled

/-- What the loop over `data_map` collects.  The status is present if it is not ok. -/
structure ListState where
  errorMessages : List Text
  listCompareStatus : Option Status

def checkListItem (identifier : Text) (useIndex : Bool) (label : Text)
    (context : VerificationContext) (item : Option QueryValue) (errorMessages : List Text) :
    Check (List Text) :=
  match item with
  | some _ => pure errorMessages
  | none => do
      let identifierText := if useIndex then text "index=" ++ identifier else identifier
      let errorMessage :=
        text "Missing value in '" ++ label ++ text "' with identifier " ++ identifierText
      addError errorMessage context
      pure (errorMessages ++ [errorMessage])

def compareItems (comparison : ListComparison) (itemA itemB : QueryValue)
    (context : VerificationContext) (state : ListState) : Check ListState :=
  match itemA with
  | .subquery fields => do
      let failure <- (comparison.data fields (subqueryValue itemB) context).attempt
      pure { state with listCompareStatus := failure.or state.listCompareStatus }
  | .list _ =>
    Report.fail (.failedPrecondition
      (text "Query result contains a list of lists, invalid structure"))
  | _ => do
      compareQueryValues texts options itemA itemB comparison.comparison context
      pure state

/-- The body of the loop over `data_map`. -/
def compareEntry (comparison : ListComparison) (useIndex : Bool) (context : VerificationContext)
    (state : ListState) (entry : Text × ItemPair) : Check ListState := do
  let afterA <- checkListItem entry.1 useIndex options.labelA context entry.2.first
    state.errorMessages
  let errorMessages <- checkListItem entry.1 useIndex options.labelB context entry.2.second afterA
  match errorMessages, entry.2.first, entry.2.second with
  | [], some itemA, some itemB =>
    let path := if useIndex then context.addIndex entry.1 else context.appendProperty entry.1
    compareItems texts options comparison itemA itemB ⟨path, context.uri⟩ ⟨[], state.listCompareStatus⟩
  | _, _, _ => pure { state with errorMessages := errorMessages }

/-- What `CompareListValues` returns after the loop. -/
def finishList (state : ListState) : Check Unit :=
  if !state.errorMessages.isEmpty then
    Report.fail (.internal (strJoin state.errorMessages (text "\n")))
  else
    match state.listCompareStatus with
    | some status => .fail status
    | none => pure ()

def compareListValues (order : IterationOrder (Text × ItemPair)) (comparison : ListComparison)
    (valuesA valuesB : List QueryValue) (context : VerificationContext) : Check Unit := do
  let useIndex := comparison.identifiers.isEmpty
  let first <- addToDataMap texts comparison.identifiers valuesA options.labelA true useIndex
    context ⟨[], List.nodup_nil⟩
  let dataMap <- addToDataMap texts comparison.identifiers valuesB options.labelB false useIndex
    context first
  let state <- (order.iterate dataMap.entries).foldlM
    (compareEntry texts options comparison useIndex context) ⟨[], none⟩
  finishList state

def getUriAnnotation (fields : QueryResultData) : Option Text :=
  (fields.lookup (text "_uri_")).map fun
    | .string value => value
    | _ => []

def annotate (valueA valueB : QueryResultData) (context : VerificationContext) :
    VerificationContext :=
  match getUriAnnotation valueA with
  | some annotation => { context with uri := annotation }
  | none =>
    match getUriAnnotation valueB with
    | some annotation => { context with uri := annotation }
    | none => context

/-- The comparison along a verification without fields. -/
def compareNothing : DataComparison := fun _ _ _ => pure ()

variable {Requirement : Type} (validates : QueryValue -> Requirement -> Bool)
  (order : IterationOrder (Text × ItemPair))

def checkCondition (value : QueryResultData) (condition : Condition Requirement) : Bool :=
  (value.lookup condition.propertyName).any fun found => validates found condition.condition

/-- Whether the conditions of an override are met by both data sets. -/
def hasCondition (valueA valueB : QueryResultData) : ConditionalTypes Requirement -> Bool
  | .notSet => false
  | .allOf conditions =>
    !conditions.isEmpty && conditions.all fun condition =>
      checkCondition validates valueA condition && checkCondition validates valueB condition
  | .anyOf conditions =>
    conditions.any fun condition =>
      checkCondition validates valueA condition && checkCondition validates valueB condition

/-- The switch over the kind of the first value. -/
def compareByKind (data : DataComparison) (list : ListComparison) (comparison : Compare)
    (valueA valueB : QueryValue) (context : VerificationContext) : Check Unit :=
  match valueA with
  | .subquery fields => data fields (subqueryValue valueB) context
  | .list values => compareListValues texts options order list values (listValue valueB) context
  | _ => compareQueryValues texts options valueA valueB comparison context

mutual

def compareFields : List (Text × QueryValueVerification Requirement) -> DataComparison
  | [], _, _, _ => pure ()
  | (property, operations) :: rest, valueA, valueB, context => do
      (match valueA.lookup property, valueB.lookup property with
        | none, none => pure ()
        | none, some _ =>
          addError (text "Missing property '" ++ property ++ text "' in " ++ options.labelA) context
        | some _, none =>
          addError (text "Missing property '" ++ property ++ text "' in " ++ options.labelB) context
        | some fieldA, some fieldB =>
          compareOperations operations valueA valueB fieldA fieldB
            ⟨context.appendProperty property, context.uri⟩)
      compareFields rest valueA valueB context

/-- The comparison of two fields, along the verification that `GetComparison` returns. -/
def compareOperations : QueryValueVerification Requirement -> QueryResultData -> QueryResultData ->
    QueryValue -> QueryValue -> VerificationContext -> Check Unit
  | .mk kind overrides, valueA, valueB, fieldA, fieldB, context =>
    compareOverrides overrides (compareKind kind fieldA fieldB context) valueA valueB
      fieldA fieldB context

/-- The loop of `GetComparison` over the overrides, and the comparison along the one that
applies. -/
def compareOverrides : List (ConditionalVerification Requirement) -> Check Unit ->
    QueryResultData -> QueryResultData -> QueryValue -> QueryValue -> VerificationContext ->
    Check Unit
  | [], otherwise, _, _, _, _, _ => otherwise
  | .mk conditionalVerify types :: rest, otherwise, valueA, valueB, fieldA, fieldB, context =>
    if hasCondition validates valueA valueB types then
      compareConditional conditionalVerify fieldA fieldB context
    else compareOverrides rest otherwise valueA valueB fieldA fieldB context

/-- The overrides of an override are not read. -/
def compareConditional : QueryValueVerification Requirement -> QueryValue -> QueryValue ->
    VerificationContext -> Check Unit
  | .mk kind _, fieldA, fieldB, context => compareKind kind fieldA fieldB context

/-- The switch over the kind of the first field. -/
def compareKind : VerificationKind Requirement -> QueryValue -> QueryValue ->
    VerificationContext -> Check Unit
  | .notSet, fieldA, fieldB, context =>
    compareByKind texts options order compareNothing ⟨[], compareNothing, .unknown⟩ .unknown
      fieldA fieldB context
  | .verify comparison, fieldA, fieldB, context =>
    compareByKind texts options order compareNothing ⟨[], compareNothing, .unknown⟩ comparison
      fieldA fieldB context
  | .listCompare identifiers verify, fieldA, fieldB, context =>
    compareByKind texts options order compareNothing
      ⟨identifiers, compareData verify, verify.comparison⟩ .unknown fieldA fieldB context
  | .dataCompare fields, fieldA, fieldB, context =>
    compareByKind texts options order (fun valueA valueB context =>
        compareFields fields valueA valueB (annotate valueA valueB context))
      ⟨[], compareNothing, .unknown⟩ .unknown fieldA fieldB context

/-- `CompareSubqueryValues` along the `data_compare` of a verification. -/
def compareData : QueryValueVerification Requirement -> DataComparison
  | .mk kind _, valueA, valueB, context => compareDataKind kind valueA valueB context

def compareDataKind : VerificationKind Requirement -> DataComparison
  | .dataCompare fields, valueA, valueB, context =>
    compareFields fields valueA valueB (annotate valueA valueB context)
  | .notSet, _, _, _ => pure ()
  | .verify _, _, _, _ => pure ()
  | .listCompare _ _, _, _, _ => pure ()

end

def compareSubqueryValues (verification : List (Text × QueryValueVerification Requirement)) :
    DataComparison :=
  fun valueA valueB context =>
    compareFields texts options validates order verification valueA valueB
      (annotate valueA valueB context)

end Ecclesia.Verification
