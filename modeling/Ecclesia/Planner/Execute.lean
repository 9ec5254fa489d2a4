import Ecclesia.Planner.Context

namespace Ecclesia.Planner

open Absl

/-!
# Execution of one expression

`ExecuteQueryExpression` runs one RedPath expression relative to the resource
of a context and returns the contexts of the resources it selects.  Besides
the world it changes the status of the query result and the URIs that the
context collects for a subscription.
-/

/-- What the execution of an expression reads and changes beside its context. -/
structure ExecutionState (World : Type) where
  world : World
  status : Option ResultStatus
  urisToSubscribe : List Text

variable {World Object Iterable : Type}

def onWorld {Value : Type} (action : StateM World Value) : StateM (ExecutionState World) Value :=
  fun state =>
    let (value, world) := action state.world
    (value, { state with world := world })

/-- Add errors to the status of the query result. -/
def onStatus (change : Option ResultStatus -> Option ResultStatus) :
    StateM (ExecutionState World) Unit :=
  fun state => ((), { state with status := change state.status })

def rememberUri (uri : Text) : StateM (ExecutionState World) Unit :=
  fun state => ((), { state with urisToSubscribe := state.urisToSubscribe ++ [uri] })

variable (planner : QueryPlanner World Object Iterable)

def getRedfishObjectWithFreshness (params : GetParams) (variant : RedfishVariant Object Iterable)
    (isQueryExecutionCancelled : Bool) : StateM World (StatusOr (Option Object)) :=
  if isQueryExecutionCancelled then
    return .error (.cancelled (text "Query has been cancelled."))
  else if !variant.status.isOk then
    return .error (.failedPrecondition (text "RedfishVariant object has status: " ++
      variant.status.message))
  else
    match variant.object with
    | none => return .ok none
    | some object =>
      if params.freshness ≠ .required then return .ok (some object)
      else do
        let refetched <- planner.views.ensureFreshPayload object
          { timeoutManager := params.timeoutManager }
        match refetched with
        | .error status => return .error (.internal status.message)
        | .ok fresh => return .ok fresh

def executePredicateExpression (predicate : Text) (nodeIndex nodeSetSize : Nat)
    (response : RedfishResponse Object Iterable) (object : Object) : Evaluation Bool :=
  match Predicates.applyPredicateRule planner.numbers (planner.views.getContentAsJson object)
      ⟨predicate, nodeIndex, nodeSetSize⟩ with
  | .ok selected => .ok selected
  | .error (.exception what) => .error (.exception what)
  | .error (.status status) =>
    .error (statusAtResource (getChildUriFromIterable planner.views response nodeIndex) status)

/-- Whether the execution halts at this prefix and subscribes instead. -/
def subscribesAt (queryType : QueryType) (redpathPrefix : Text) : Bool :=
  decide (queryType = .subscription) &&
    planner.redpathRules.redpathsToSubscribe.contains redpathPrefix

/-- How one turn of the loop over the members ends. -/
inductive MemberTurn (Object Iterable : Type) where
  | next
  | push (response : RedfishResponse Object Iterable)
  | exit (failure : Failure)

section

variable (queryType : QueryType) (expression : RedPathExpression)
  (context : QueryExecutionContext Object Iterable) (params : GetParams)
  (newPredicate : Text) (iterable : Iterable)

/-- A member that could not be fetched. -/
def failMember (nodeIndex : Nat) (errorStatus : Status) :
    StateM (ExecutionState World) (MemberTurn Object Iterable) :=
  match statusAtResource (getChildUriFromIterable planner.views context.redfishResponse nodeIndex)
      errorStatus with
  | .exception what => return .exit (.exception what)
  | .status located =>
    if planner.executionMode = .failOnFirstError then return .exit (.status located)
    else if located.code ≠ .notFound then do
      onStatus fun status =>
        populateSubqueryErrorStatus status located context.lastRedpathPrefix expression
      return .next
    else return .next

/-- A member that was fetched. -/
def selectMember (nodeIndex : Nat) (object : Object) :
    StateM (ExecutionState World) (MemberTurn Object Iterable) :=
  if subscribesAt planner queryType
      (addExpressionToRedPath context.lastRedpathPrefix expression) then do
    let odataId <- onWorld (planner.views.getNodeValue object propertyOdataId)
    match odataId with
    | some uri => do
        rememberUri uri
        return .next
    | none => return .next
  else
    match executePredicateExpression planner newPredicate nodeIndex (planner.views.size iterable)
        context.redfishResponse object with
    | .error failure => return .exit failure
    | .ok true => return .push (.ofObject (some object))
    | .ok false => return .next

/-- One turn of the loop over the members. -/
def executeMember (nodeIndex : Nat) :
    StateM (ExecutionState World) (MemberTurn Object Iterable) := do
  let indexedNode <- onWorld (planner.views.index iterable nodeIndex)
  let cancelled <- onWorld planner.isQueryExecutionCancelled
  let indexedNodeAsObject <- onWorld
    (getRedfishObjectWithFreshness planner params indexedNode cancelled)
  match indexedNodeAsObject with
  | .error status =>
    if status.code = .cancelled then do
      onStatus reportCancelled
      return .push (.ofObject none)
    else
      failMember planner expression context nodeIndex
        (if indexedNode.status.isOk then status else indexedNode.status)
  | .ok none => return .next
  | .ok (some object) =>
    selectMember planner queryType expression context newPredicate iterable nodeIndex object

/-- The loop over the members at the given indices. -/
def executeMembers : List Nat ->
    StateM (ExecutionState World) (Evaluation (List (RedfishResponse Object Iterable)))
  | [] => return .ok []
  | nodeIndex :: rest => do
      let turn <- executeMember planner queryType expression context params newPredicate iterable
        nodeIndex
      match turn with
      | .exit failure => return .error failure
      | .next => executeMembers rest
      | .push response => do
          let others <- executeMembers rest
          return others.map fun responses => response :: responses

variable (queryVariables : QueryVariables) (interface : RedfishInterface World Object Iterable)
  (object : Object)

def getNavigationalPropertyToSubscribe (params : GetParams) : Evaluation Text :=
  match (planner.views.getContentAsJson object).find expression.expression with
  | none =>
    .internal (text "Cannot find " ++ describeExpression expression ++
      text " in Redfish Object for subscription.")
  | some child =>
    match child.find propertyOdataId with
    | none =>
      .internal (text "Cannot find navigational property: " ++ propertyOdataId ++
        text " in Redfish Object for subscription.")
    | some uri => do
        let property <- uri.getString
        let query := params.toText
        return property ++ (if query.isEmpty then [] else '?' :: query)

/-- Halt at an expression and remember the URI it leads to. -/
def subscribeToNode (params : GetParams) :
    StateM (ExecutionState World) (Evaluation (List (RedfishResponse Object Iterable))) :=
  match getNavigationalPropertyToSubscribe planner expression object params with
  | .ok uri => do
      rememberUri uri
      return .ok []
  | .error (.status _) => return .ok []
  | .error (.exception what) => return .error (.exception what)

/-- What follows the request for a node. -/
def acceptVariant (params : GetParams) (variant : RedfishVariant Object Iterable) :
    StateM (ExecutionState World) (Evaluation (List (RedfishResponse Object Iterable))) :=
  let located (status : Status) : Evaluation (List (RedfishResponse Object Iterable)) :=
    .error (statusAtResource
      (getChildUriFromNode planner.views context.redfishResponse expression.expression) status)
  if !variant.status.isOk then return located variant.status
  else if variant.iterable.isNone && variant.raw.isNone then
    match variant.object with
    | none => return .ok []
    | some _ => do
        let cancelled <- onWorld planner.isQueryExecutionCancelled
        let fresh <- onWorld (getRedfishObjectWithFreshness planner params variant cancelled)
        match fresh with
        | .error status => return located status
        | .ok object => return .ok [⟨object, none, none⟩]
  else return .ok [⟨variant.object, variant.iterable, variant.raw⟩]

def executeSinglePredicate (params : GetParams) :
    StateM (ExecutionState World) (Evaluation (List (RedfishResponse Object Iterable))) :=
  match executePredicateExpression planner expression.expression 0 1 context.redfishResponse
      object with
  | .error failure => return .error failure
  | .ok selected => do
      let fresh <- onWorld (planner.views.ensureFreshPayload object params)
      match fresh with
      | .error status => return .error (.status status)
      | .ok none => return .ok []
      | .ok (some refreshed) =>
        return .ok (if selected then [.ofObject (some refreshed)] else [])

/-- An expression relative to a single resource. -/
def executeOnObject :
    StateM (ExecutionState World) (Evaluation (List (RedfishResponse Object Iterable))) :=
  let newRedpathPrefix := addExpressionToRedPath context.lastRedpathPrefix expression
  let params := getQueryParamsForRedPath planner newRedpathPrefix
  if subscribesAt planner queryType newRedpathPrefix then
    subscribeToNode planner expression object params
  else do
    let cancelled <- onWorld planner.isQueryExecutionCancelled
    if cancelled then
      return .error (.status (.cancelled (text "Query execution cancelled for NodeName: " ++
        expression.expression)))
    else
      match expression.type with
      | .nodeName => do
          let filtered := paramsWithFilter planner params expression queryVariables
          let variant <- onWorld (planner.views.get object expression.expression filtered)
          acceptVariant planner expression context filtered variant
      | .nodeNameJsonPointer =>
        match PathUtil.resolveRedPathNodeToJson (planner.views.getContentAsJson object)
            expression.expression with
        | .error (.status _) => return .ok []
        | .error (.exception what) => return .error (.exception what)
        | .ok resolved =>
          match resolved.getString with
          | .error failure => return .error failure
          | .ok nodeName => do
              let pointed := getQueryParamsForRedPath planner nodeName
              let variant <- onWorld (interface.cachedGetUri nodeName pointed)
              acceptVariant planner expression context pointed variant
      | .nodeNameUriPointer => do
          let pointed := getQueryParamsForRedPath planner expression.expression
          let variant <- onWorld (interface.cachedGetUri expression.expression pointed)
          acceptVariant planner expression context pointed variant
      | .predicate => executeSinglePredicate planner expression context object params
      | .predicateTemplate =>
        acceptVariant planner expression context params (.ofStatus .okStatus)

end

/-- The iterable over whose members an expression runs: that of the response, if
the expression is a predicate. -/
def membersFor (response : RedfishResponse Object Iterable) (expression : RedPathExpression) :
    Option Iterable :=
  if expression.type = .predicate then response.redfishIterable else none

/-- The responses that `ExecuteQueryExpression` makes contexts from. -/
def executeForResponses (queryType : QueryType) (expression : RedPathExpression)
    (context : QueryExecutionContext Object Iterable) (queryVariables : QueryVariables)
    (interface : Option (RedfishInterface World Object Iterable)) :
    StateM (ExecutionState World) (Evaluation (List (RedfishResponse Object Iterable))) :=
  match interface with
  | none => return .error (.status (.internal (text "Redfish interface is null.")))
  | some interface =>
    match membersFor context.redfishResponse expression with
    | some iterable =>
      match planner.substituteVariables expression.expression queryVariables with
      | .error status => return .error (.status status)
      | .ok newPredicate =>
        executeMembers planner queryType expression context
          (getQueryParamsForRedPath planner
            (addExpressionToRedPath context.lastRedpathPrefix expression))
          newPredicate iterable (List.range (planner.views.size iterable))
    | none =>
      match context.redfishResponse.redfishObject with
      | none => return .ok []
      | some object =>
        executeOnObject planner queryType expression context queryVariables interface object

def executeQueryExpression (queryType : QueryType) (expression : RedPathExpression)
    (context : QueryExecutionContext Object Iterable) (queryVariables : QueryVariables)
    (interface : Option (RedfishInterface World Object Iterable)) :
    StateM (ExecutionState World) (Evaluation (List (QueryExecutionContext Object Iterable))) := do
  let responses <- executeForResponses planner queryType expression context queryVariables interface
  return responses.map fun found => found.map
    (context.fromExisting (addExpressionToRedPath context.lastRedpathPrefix expression))

end Ecclesia.Planner
