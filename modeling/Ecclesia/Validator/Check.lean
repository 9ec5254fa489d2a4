import Ecclesia.Normalizer.Fields
import Ecclesia.Validator.Config

namespace Ecclesia.Validator

open List

open Normalizer (hasType)

/-!
# The check of a query result

The validator walks through the data of a result and looks up the path of every field
in the table of the configured properties.  A field that is configured must have a
value of the configured type.  Any other field must hold data sets, which are checked
in turn.  The definitions follow `query_result_validator.cc`; a status that is not an
error is modelled by a returned value.
-/

/-- Whether a value takes no bytes when it is serialised. -/
def isUnset : QueryValue -> Bool
  | .notSet => true
  | _ => false

def compareTypes (path : Text) (value : QueryValue) (type : PrimitiveType) : StatusOr Unit :=
  let isEqual : Bool :=
    match value with
    | .int _ => type == .int64
    | .double _ => type == .double
    | .string _ => type == .string
    | .bool _ => type == .boolean
    | .identifier _ => true
    | .null | .list _ | .timestamp _ _ | .subquery _ | .notSet => false
    | .rawUnset | .rawString _ | .rawBytes _ => false
  if isEqual then .ok () else .error (.internal (text "Unexpected value type for " ++ path))

def checkElement (path : Text) (type : PrimitiveType) (element : QueryValue) : StatusOr Unit :=
  if isUnset element then .error (.internal (text "Empty value for " ++ path))
  else compareTypes path element type

def checkProperty (path : Text) (value : QueryValue) (config : RedfishProperty) : StatusOr Unit :=
  if isUnset value then .error (.internal (text "Empty value for " ++ path))
  else if config.propertyElementType = .collectionPrimitive then
    match value with
    | .list values => forM values (checkElement path config.type)
    | _ => .error (.internal (text "Unexpected value type for " ++ path))
  else compareTypes path value config.type

section

variable (table : List (Text × RedfishProperty))

mutual

/-- `QueryResultValidator::TraverseQueryResult` -/
def traverseQueryResult (path : Text) : QueryResultData -> StatusOr Unit
  | [] => .ok ()
  | (key, value) :: rest => do
      traverseField (path ++ text "/" ++ key) value
      traverseQueryResult path rest

/-- One round of the loop over the fields. -/
def traverseField (currentPath : Text) (value : QueryValue) : StatusOr Unit :=
  match table.lookup currentPath with
  | some config => checkProperty currentPath value config
  | none =>
    match value with
    | .list values => traverseElements currentPath values
    | .subquery fields => traverseQueryResult currentPath fields
    | _ => .error (.internal (text "Unknown " ++ currentPath ++ text " missing from configuration"))

/-- The loop over the elements of a list.  The data set of an element that holds none has
no fields. -/
def traverseElements (currentPath : Text) : List QueryValue -> StatusOr Unit
  | [] => .ok ()
  | .subquery fields :: rest => do
      traverseQueryResult currentPath fields
      traverseElements currentPath rest
  | _ :: rest => traverseElements currentPath rest

end

/-- `QueryResultValidator::Validate`.  The statistics of a result are not modelled. -/
def validate (query : DelliciusQuery) (result : QueryResult) : StatusOr Unit :=
  if result.queryId.isEmpty && result.status.isNone && result.data.isEmpty &&
      result.collectedProperties.isEmpty then
    .error (.invalidArgument (text "Query result is empty"))
  else if result.queryId ≠ query.queryId then
    .error (.invalidArgument (text "Query id mismatch: " ++ result.queryId ++ text " vs " ++
      query.queryId))
  else traverseQueryResult table [] result.data

end

def validateQueryResult (order : IterationOrder Text) (bound : Nat) (query : DelliciusQuery)
    (result : QueryResult) : Bounded Status Unit := do
  let table <- create order bound (some query)
  ExceptT.mk (some (validate table query result))

lemma andThen_eq_ok {first second : StatusOr Unit} :
    (first >>= fun _ => second) = .ok () ↔ first = .ok () ∧ second = .ok () := by
  cases first with
  | ok value =>
    cases value
    exact ⟨fun holds => ⟨rfl, holds⟩, And.right⟩
  | error status => exact ⟨nofun, fun holds => nomatch holds.1⟩

lemma forM_eq_ok {Item : Type} {items : List Item} {check : Item -> StatusOr Unit} :
    forM items check = .ok () ↔ ∀ item ∈ items, check item = .ok () := by
  induction items with
  | nil => simp [pure, Except.pure]
  | cons item rest ih =>
    rw [forM_cons, andThen_eq_ok, ih, forall_mem_cons]

lemma compareTypes_of_hasType {path : Text} {value : QueryValue} {own type : PrimitiveType}
    (typed : hasType own value = true) :
    compareTypes path value type = .ok () ↔ own = type ∧ own ≠ .dateTimeOffset := by
  cases own <;> cases value <;> first
    | exact absurd typed Bool.false_ne_true
    | cases type <;> simp [compareTypes]

lemma isUnset_of_hasType {value : QueryValue} {type : PrimitiveType}
    (typed : hasType type value = true) : isUnset value = false := by
  cases value with
  | notSet =>
    cases type with
    | _ => cases typed
  | _ => rfl

variable {table : List (Text × RedfishProperty)}

lemma traverseQueryResult_eq_ok {path : Text} {fields : QueryResultData} :
    traverseQueryResult table path fields = .ok () ↔ ∀ entry ∈ fields,
      traverseField table (path ++ text "/" ++ entry.1) entry.2 = .ok () := by
  induction fields with
  | nil => simp [traverseQueryResult]
  | cons entry rest ih =>
    rcases entry with ⟨key, value⟩
    rw [traverseQueryResult, andThen_eq_ok, ih, forall_mem_cons]

lemma traverseElements_eq_ok {path : Text} {dataSets : List QueryResultData} :
    traverseElements table path (dataSets.map .subquery) = .ok () ↔
      ∀ fields ∈ dataSets, traverseQueryResult table path fields = .ok () := by
  induction dataSets with
  | nil => simp [traverseElements]
  | cons fields rest ih =>
    rw [map_cons, traverseElements, andThen_eq_ok, ih, forall_mem_cons]

end Ecclesia.Validator
