import Ecclesia.Json.Value

namespace Ecclesia

open List

/-!
# Queries and query results

The messages of `query.proto` and `query_result.proto`, as far as the query
planner reads or writes them.  A protobuf map is a list of its entries; the
planner only inserts under keys that are not there yet.
-/

/-- `DelliciusQuery.Subquery.RedfishProperty.PropertyElementType` -/
inductive PropertyElementType where
  | unspecified
  | primitive
  | collectionPrimitive
deriving DecidableEq

/-- `DelliciusQuery.Subquery.RedfishProperty.PrimitiveType` -/
inductive PrimitiveType where
  | undefined
  | boolean
  | int64
  | string
  | double
  | dateTimeOffset
deriving DecidableEq

/-- `DelliciusQuery.Subquery.RedfishProperty` -/
structure RedfishProperty where
  property : Text
  name : Text
  collectAs : List Text
  type : PrimitiveType
  propertyElementType : PropertyElementType
  nullable : Bool
deriving DecidableEq

/-- `DelliciusQuery.Subquery.RawData.Type` -/
inductive RawDataType where
  | none
  | bytes
  | string
deriving DecidableEq

/-- `DelliciusQuery.Subquery.Freshness` -/
inductive SubqueryFreshness where
  | unspecified
  | optional
  | required
deriving DecidableEq

/-- The `resource` of a subquery, of which at most one form is set. -/
inductive SubqueryResource where
  | notSet
  | redpath (redpath : Text)
  | uriReferenceRedpath (redpath : Text)
  | uri (uri : Text)
deriving DecidableEq

/-- `DelliciusQuery.Subquery` -/
structure Subquery where
  subqueryId : Text
  rootSubqueryIds : List Text
  properties : List RedfishProperty
  normalizedProperties : List RedfishProperty
  fetchRawData : Option RawDataType
  resource : SubqueryResource
  freshness : SubqueryFreshness
  maxSizeInBytes : Option Int := none
deriving DecidableEq

/-- A subquery without any field set. -/
def Subquery.empty : Subquery := ⟨[], [], [], [], .none, .notSet, .unspecified, none⟩

structure DelliciusQuery where
  queryId : Text
  subquery : List Subquery
  serviceRoot : Option Text
deriving DecidableEq

/-- `QueryVariables`: the values of every variable. -/
abbrev QueryVariables := List (Text × List Text)

structure RedfishLocation where
  serviceLabel : Text
  partLocationContext : Option Text
deriving DecidableEq

structure Identifier where
  localDevpath : Option Text
  machineDevpath : Option Text
  embeddedLocationContext : Option Text
  redfishLocation : Option RedfishLocation
  isRoot : Option Bool
deriving DecidableEq

/-- An identifier without any field set. -/
def Identifier.empty : Identifier := ⟨none, none, none, none, none⟩

/-- `QueryValue`, with `notSet` for a value whose kind is not set, and `rawUnset` for a `RawData`
message without a field. A double is its exact rational value. -/
inductive QueryValue where
  | notSet
  | int (value : Int)
  | double (value : Rat)
  | string (value : Text)
  | bool (value : Bool)
  | timestamp (seconds : Int) (nanos : Int)
  | subquery (fields : List (Text × QueryValue))
  | list (values : List QueryValue)
  | identifier (identifier : Identifier)
  | rawUnset
  | rawString (value : Text)
  | rawBytes (value : Text)
  | null

/-- The fields of a `QueryResultData`. -/
abbrev QueryResultData := List (Text × QueryValue)

/-- `CollectedProperty.SensorIdentifier` -/
structure SensorIdentifier where
  name : Text
  readingType : Text
  readingUnits : Text
deriving DecidableEq

def SensorIdentifier.empty : SensorIdentifier := ⟨[], [], []⟩

structure CollectedProperty where
  identifier : Option Identifier
  value : QueryValue
  sensorIdentifier : Option SensorIdentifier

inductive ErrorCode where
  | none
  | serviceRootUnreachable
  | network
  | unauthenticated
  | internal
  | queryTimeout
  | unavailable
  | cancelled
deriving DecidableEq

/-- The `Status` message of a query result. -/
structure ResultStatus where
  errors : List Text
  errorCode : ErrorCode
deriving DecidableEq

/-- `QueryResult`, without its statistics. -/
structure QueryResult where
  queryId : Text
  status : Option ResultStatus
  data : QueryResultData
  collectedProperties : List (Text × List CollectedProperty)

def QueryResult.start (queryId : Text) : QueryResult := ⟨queryId, none, [], []⟩

/-- `add_errors` followed by `set_error_code` on the mutable status. -/
def addError (status : Option ResultStatus) (message : Text) (code : ErrorCode) :
    Option ResultStatus :=
  some ⟨(status.elim [] ResultStatus.errors) ++ [message], code⟩

namespace QueryResult

def addError (result : QueryResult) (message : Text) (code : ErrorCode) : QueryResult :=
  { result with status := Ecclesia.addError result.status message code }

end QueryResult

/-- A step from a value to a part of it. -/
inductive Selector where
  | field (name : Text)
  | element (index : Nat)
deriving DecidableEq

/-- A `QueryValue*` into the data of a result: the steps to the value, which stay valid when
something is inserted beside it. -/
abbrev Location := List Selector

namespace QueryValue

def hasRawData : QueryValue -> Bool
  | .rawUnset | .rawString _ | .rawBytes _ => true
  | _ => false

/-- `mutable_subquery_value()`: another kind of value is cleared. -/
def mutableSubquery : QueryValue -> QueryResultData
  | .subquery fields => fields
  | _ => []

/-- `mutable_list_value()->values()`: another kind of value is cleared. -/
def mutableList : QueryValue -> List QueryValue
  | .list values => values
  | _ => []

/-- The identifier held by a value. -/
def identifier? : QueryValue -> Option Identifier
  | .identifier found => some found
  | _ => none

end QueryValue

/-- Store a value under a key, in place when the key is there. -/
def setField (name : Text) (value : QueryValue) : QueryResultData -> QueryResultData
  | [] => [(name, value)]
  | (key, current) :: rest =>
    if key = name then (key, value) :: rest else (key, current) :: setField name value rest

namespace QueryValue

/-- The value at a location. -/
def at? : QueryValue -> Location -> Option QueryValue
  | value, [] => some value
  | .subquery fields, .field name :: rest =>
    match fields.lookup name with
    | some value => value.at? rest
    | none => none
  | .list values, .element index :: rest =>
    match values[index]? with
    | some value => value.at? rest
    | none => none
  | _, _ :: _ => none

/-- Change the value at a location.  Nothing happens when there is none. -/
def modify (change : QueryValue -> QueryValue) : Location -> QueryValue -> QueryValue
  | [], value => change value
  | .field name :: rest, .subquery fields =>
    match fields.lookup name with
    | some value => .subquery (setField name (modify change rest value) fields)
    | none => .subquery fields
  | .element index :: rest, .list values =>
    match values[index]? with
    | some value => .list (values.set index (modify change rest value))
    | none => .list values
  | _ :: _, value => value

end QueryValue

/-!
## Parts of a query value

The immediate parts of a value are the values of its fields or of its list.
-/

lemma mem_of_lookup {Value : Type} {key : Text} {value : Value} {map : List (Text × Value)}
    (looked : map.lookup key = some value) : (key, value) ∈ map := by
  rcases lookup_eq_some_iff.mp looked with ⟨before, after, split, _⟩
  rw [split]
  exact mem_append_right before (.head after)

namespace QueryValue

def parts : QueryValue -> List QueryValue
  | .subquery fields => fields.map Prod.snd
  | .list values => values
  | _ => []

lemma sizeOf_parts_lt (whole child : QueryValue) (isPart : child ∈ whole.parts) :
    sizeOf child < sizeOf whole := by
  cases whole with
  | subquery fields =>
    rcases mem_map.mp isPart with ⟨⟨key, value⟩, member, same⟩
    subst same
    have entry := sizeOf_lt_of_mem member
    rw [Prod.mk.sizeOf_spec] at entry
    rw [QueryValue.subquery.sizeOf_spec]
    dsimp only
    omega
  | list values =>
    have element : sizeOf child < sizeOf values := sizeOf_lt_of_mem isPart
    rw [QueryValue.list.sizeOf_spec]
    omega
  | _ => cases isPart

lemma induction_on_parts {motive : QueryValue -> Prop}
    (step : ∀ whole, (∀ child ∈ whole.parts, motive child) -> motive whole) :
    ∀ whole, motive whole :=
  induction_parts sizeOf_parts_lt step

/-- The value lies somewhere in the fields of a data set. -/
def InFields (part : QueryValue) (fields : QueryResultData) : Prop :=
  ∃ entry ∈ fields, PartOf parts part entry.2

lemma exists_inFields_iff {property : QueryValue -> Prop} {fields : QueryResultData} :
    (∃ part, property part ∧ InFields part fields) ↔
      ∃ entry ∈ fields, ∃ part, property part ∧ PartOf parts part entry.2 := by
  constructor
  · rintro ⟨part, holds, entry, member, inside⟩
    exact ⟨entry, member, part, holds, inside⟩
  · rintro ⟨entry, member, part, holds, inside⟩
    exact ⟨part, holds, entry, member, inside⟩

end QueryValue

end Ecclesia
