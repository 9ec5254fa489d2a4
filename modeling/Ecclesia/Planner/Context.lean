import Ecclesia.Planner.Trie
import Ecclesia.Predicates.Rule
import Ecclesia.Query.Proto
import Ecclesia.Redfish.Interface

namespace Ecclesia.Planner

open Absl

/-!
# The query planner and its execution contexts

The definitions follow `query_planner_impl.h` and the helper functions at the
beginning of `query_planner_impl.cc`.  Statistics, log messages and the query
tracker, which only observe an execution, are left out.
-/

variable {World Object Iterable : Type}

/-- `QueryPlanner::ExecutionMode` -/
inductive ExecutionMode where
  | failOnFirstError
  | continueOnSubqueryErrors
deriving DecidableEq

inductive QueryType where
  | polling
  | subscription
deriving DecidableEq

structure RedPathRules where
  redpathToQueryParams : List (Text × GetParams)
  redpathsToSubscribe : List Text

/-- `QueryPlanner`, with the normalizers, the substitution of variables and the construction of a
`$filter` string; they may change the world at every call. -/
structure QueryPlanner (World Object Iterable : Type) where
  query : DelliciusQuery
  normalizer : Object -> Subquery -> Bool -> StateM World (StatusOr QueryResultData)
  additionalNormalizers : List (DelliciusQuery -> QueryResult -> Bool ->
    StateM World (Status × QueryResult))
  redpathTrieRoot : RedPathTrieNode
  redpathRules : RedPathRules
  redfishInterface : Option (RedfishInterface World Object Iterable)
  views : RedfishViews World Object Iterable
  hasTimeoutManager : Bool
  executionMode : ExecutionMode
  isQueryExecutionCancelled : StateM World Bool
  now : StateM World Int
  numbers : Predicates.NumericLibrary
  substituteVariables : Text -> QueryVariables -> StatusOr Text
  buildFilterFromRedpathPredicateList : List Text -> StatusOr Text

/-- `subquery_id_to_subquery`: a later subquery replaces an earlier one. -/
def findSubquery (query : DelliciusQuery) (subqueryId : Text) : Option Subquery :=
  query.subquery.reverse.find? fun subquery => subquery.subqueryId = subqueryId

/-- `subquery_id_to_root_ids`, which has no entry for a subquery without root
subqueries. -/
def findRootIds (query : DelliciusQuery) (subqueryId : Text) : Option (List Text) :=
  (query.subquery.reverse.find? fun subquery =>
    subquery.subqueryId = subqueryId ∧ subquery.rootSubqueryIds ≠ []).map Subquery.rootSubqueryIds

/-- `root_id_to_subquery_ids.contains` -/
def isRootSubquery (query : DelliciusQuery) (subqueryId : Text) : Bool :=
  query.subquery.any fun subquery => subquery.rootSubqueryIds.contains subqueryId

structure RedfishResponse (Object Iterable : Type) where
  redfishObject : Option Object
  redfishIterable : Option Iterable
  redfishRawBytes : Option Text
deriving DecidableEq

/-- A response that holds an object alone. -/
def RedfishResponse.ofObject {Object Iterable : Type} (object : Option Object) :
    RedfishResponse Object Iterable :=
  ⟨object, none, none⟩

/-- `QueryExecutionContext`. Its results are listed from the latest one on; the result it refers to
is shared by all contexts and is passed along beside them. -/
structure QueryExecutionContext (Object Iterable : Type) where
  subqueryIdToSubqueryResult : List (Text × Location)
  redpathTrieNode : RedPathTrieNode
  lastRedpathPrefix : Text
  redfishResponse : RedfishResponse Object Iterable
  urisToSubscribe : List Text

section

variable {Object Iterable : Type}

lemma QueryExecutionContext.weight_lt_rank (context : QueryExecutionContext Object Iterable)
    (expression : RedPathExpression)
    (member : expression ∈ context.redpathTrieNode.childExpressions) :
    expression.weight < context.redpathTrieNode.rank :=
  RedPathTrieNode.weight_lt_rank member

def QueryExecutionContext.start (node : RedPathTrieNode)
    (response : RedfishResponse Object Iterable) : QueryExecutionContext Object Iterable :=
  ⟨[], node, [], response, []⟩

/-- `QueryExecutionContext::FromExisting`.  The trie node is set by the caller. -/
def QueryExecutionContext.fromExisting (context : QueryExecutionContext Object Iterable)
    (newRedpathPrefix : Text) (response : RedfishResponse Object Iterable) :
    QueryExecutionContext Object Iterable :=
  { context with
    lastRedpathPrefix := newRedpathPrefix
    redfishResponse := response
    urisToSubscribe := [] }

/-- What `FromExisting` reports when the query is cancelled. -/
def reportCancelled (status : Option ResultStatus) : Option ResultStatus :=
  match status with
  | some known =>
    if known.errorCode = .cancelled then status
    else addError status (text "Query execution cancelled.") .cancelled
  | none => addError status (text "Query execution cancelled.") .cancelled

end

/-- `AddExpressionToRedPath`, which ignores the predicate. -/
def addExpressionToRedPath (redpathPrefix : Text) (expression : RedPathExpression) : Text :=
  if expression.type = .predicate then redpathPrefix ++ text "[*]"
  else redpathPrefix ++ '/' :: expression.expression

section

variable (planner : QueryPlanner World Object Iterable)

def getQueryParamsForRedPath (redpathPrefix : Text) : GetParams :=
  let params := (planner.redpathRules.redpathToQueryParams.lookup redpathPrefix).getD {}
  if planner.hasTimeoutManager then { params with timeoutManager := true } else params

/-- The predicates among the expressions of a node, with their variables
substituted. -/
def substitutePredicates (queryVariables : QueryVariables) :
    List RedPathExpression -> StatusOr (List Text)
  | [] => .ok []
  | expression :: rest =>
    if expression.type = .predicate then do
      let newPredicate <- planner.substituteVariables expression.expression queryVariables
      let predicates <- substitutePredicates queryVariables rest
      return newPredicate :: predicates
    else substitutePredicates queryVariables rest

def getFilterStringFromNextNode (nextTrieNode : RedPathTrieNode) (queryVariables : QueryVariables) :
    StatusOr Text := do
  let predicates <- substitutePredicates planner queryVariables nextTrieNode.childExpressions
  planner.buildFilterFromRedpathPredicateList predicates

/-- The parameters for a node name.  A filter that cannot be built is left as
it is. -/
def paramsWithFilter (params : GetParams) (expression : RedPathExpression)
    (queryVariables : QueryVariables) : GetParams :=
  match params.filter with
  | none => params
  | some _ =>
    match getFilterStringFromNextNode planner expression.trieNode queryVariables with
    | .ok filterString => { params with filter := some filterString }
    | .error _ => params

end

variable (views : RedfishViews World Object Iterable)

def propertyOdataId : Text := text "@odata.id"

def propertyMembers : Text := text "Members"

/-- The kind and the text of an expression, as error messages quote them. -/
def describeExpression (expression : RedPathExpression) : Text :=
  if expression.type = .predicate then text "predicate [" ++ expression.expression ++ text "]"
  else text "node name " ++ expression.expression

def populateSubqueryErrorStatus (status : Option ResultStatus) (nodeStatus : Status)
    (lastRedpathPrefix : Text) (expression : RedPathExpression) : Option ResultStatus :=
  let errorMessage := text "Querying " ++ describeExpression expression ++
    text " from Redpath: " ++ addExpressionToRedPath lastRedpathPrefix expression ++
    text " resulted in error: " ++ nodeStatus.message
  let errorCode :=
    match nodeStatus.code with
    | .unavailable => .unavailable
    | .unauthenticated => .unauthenticated
    | .deadlineExceeded => .queryTimeout
    | .cancelled => .cancelled
    | _ => .internal
  addError status errorMessage errorCode

variable (response : RedfishResponse Object Iterable)

def getResponseJsonFromContext : Evaluation Json :=
  match response.redfishObject with
  | none => .internal (text "(RedfishObject is null)")
  | some object =>
    match views.getContentAsJson object with
    | .discarded =>
      .internal (text "(Cannot get content as Json from Parent RedfishObject)")
    | content =>
      if content.contains propertyOdataId then .ok content
      else .internal (text "(Parent URI Not Available from RedfishObject: No @odata.id)")

/-- The string under a key that is known to be there. -/
def readMember (value : Json) (name : Text) : Evaluation Text :=
  ((value.find name).getD .null).getString

def getChildUriFromNode (nodeName : Text) :
    Evaluation Text := do
  let content <- getResponseJsonFromContext views response
  let parentUri <- readMember content propertyOdataId
  match content.find nodeName with
  | none =>
    .internal (text "(RedfishObject does not contain: " ++ nodeName ++ text " at URI: " ++
      parentUri ++ text ")")
  | some child =>
    if child.contains propertyOdataId then readMember child propertyOdataId
    else
      .internal (text "(@odata.id missing from: " ++ nodeName ++ text " at URI: " ++
        parentUri ++ text ")")

/-- The constant `operator[]` at an index, which must be in range. -/
def constAtIndex (value : Json) (index : Nat) : Evaluation Json :=
  match value with
  | .array elements =>
    match elements[index]? with
    | some element => .ok element
    | none => .error (.exception (text "index out of range"))
  | _ => .error (.exception (text "type_error.305"))

def getChildUriFromIterable (index : Nat) :
    Evaluation Text :=
  if response.redfishObject.isNone && response.redfishIterable.isSome then
    .internal (text "(Queried resource is a ComplexType; no URI)")
  else do
    let content <- getResponseJsonFromContext views response
    let parentUri <- readMember content propertyOdataId
    match content.find propertyMembers with
    | none =>
      .internal (text "(RedfishObject is not an iterable: " ++ parentUri ++
        text " does not have Members[])")
    | some members =>
      match response.redfishIterable with
      | none => .error (.exception (text "RedfishIterable is null"))
      | some iterable =>
        if views.size iterable <= index then
          .internal (text "(Index " ++ strCatNat index ++ text " out of bounds " ++
            text "for RedfishIterable at URI: " ++ parentUri ++ text ")")
        else do
          let member <- constAtIndex members index
          if member.contains propertyOdataId then readMember member propertyOdataId
          else
            .internal (text "(@odata.id Not Available in Members[] at index " ++
              strCatNat index ++ text " at URI: " ++ parentUri ++ text ")")

/-- The status that is reported for a resource: the message names its URI, or
says why the URI is unknown. -/
def statusAtResource (childUri : Evaluation Text) (status : Status) : Failure :=
  match childUri with
  | .ok uri => .status ⟨status.code, text "At resource URI: " ++ uri ++ text ": " ++ status.message⟩
  | .error (.status unknown) => .status ⟨status.code,
      text "At resource URI: " ++ unknown.message ++ text ": " ++ status.message⟩
  | .error (.exception what) => .exception what

end Ecclesia.Planner
