import Ecclesia.Planner.Context
import Ecclesia.StepPlanner.Session
import Ecclesia.StepPlanner.Handles

namespace Ecclesia.StepPlanner

open Absl

/-!
# Execution of RedPath steps

The planner takes the next step of all subqueries at once.  At a resource the steps that are
left are put together by their node names, every name is requested once, and the predicates
choose among what is found.  The resources that are reached are the context nodes of the next
step.

The service gives the same answer whenever it is asked the same thing.  A run ends early in
three ways: the program returns from all its calls after an error, it is left by an exception
of the JSON library, or an iterator is moved beyond its end.
-/

/-- A `SubqueryHandle` and the handles of its children. -/
inductive LinkedHandle where
  | mk (handle : SubqueryHandle) (childSubqueryHandles : List LinkedHandle)

namespace LinkedHandle

def handle : LinkedHandle -> SubqueryHandle
  | .mk handle _ => handle

def childSubqueryHandles : LinkedHandle -> List LinkedHandle
  | .mk _ childSubqueryHandles => childSubqueryHandles

def subquery (linked : LinkedHandle) : Subquery := linked.handle.subquery

def subqueryId (linked : LinkedHandle) : Text := linked.subquery.subqueryId

def isChildSubquery (linked : LinkedHandle) : Bool := !linked.subquery.rootSubqueryIds.isEmpty

def hasRedPath (linked : LinkedHandle) : Bool :=
  match linked.subquery.resource with
  | .redpath _ => true
  | _ => false

def hasUri (linked : LinkedHandle) : Bool :=
  match linked.subquery.resource with
  | .uri _ => true
  | _ => false

def hasUriReferenceRedpath (linked : LinkedHandle) : Bool :=
  match linked.subquery.resource with
  | .uriReferenceRedpath _ => true
  | _ => false

end LinkedHandle

def isEndOfRedPath : List RedPathStep -> Bool
  | [_] => true
  | _ => false

def getNode : List RedPathStep -> Text
  | [] => []
  | (node, _) :: _ => node

def getPredicate : List RedPathStep -> Text
  | [] => []
  | (_, predicate) :: _ => predicate

/-- `RedPathContext`, without the callback and the variables, which never change. -/
structure RedPathContext where
  subqueryHandle : LinkedHandle
  rootRedpathDataset : Option Nat
  redpathSteps : List RedPathStep

namespace RedPathContext

def subqueryId (context : RedPathContext) : Text := context.subqueryHandle.subqueryId

/-- Whether `PopulateResultOrContinueQuery` is at the end of the RedPath. -/
def isEnd (context : RedPathContext) : Bool :=
  match context.subqueryHandle.subquery.resource with
  | .redpath _ => isEndOfRedPath context.redpathSteps
  | .notSet => false
  | _ => true

/-- The key under which `DeduplicateNodeNamesAcrossSubqueries` puts a context. -/
def nodeName (context : RedPathContext) : Text :=
  match context.subqueryHandle.subquery.resource with
  | .uri uri => uri
  | .uriReferenceRedpath redpath => redpath
  | .redpath _ => getNode context.redpathSteps
  | .notSet => []

/-- The test of `FilterRedPathWithNoPredicate`. -/
def hasNoPredicate (context : RedPathContext) : Bool :=
  match context.subqueryHandle.subquery.resource with
  | .redpath _ => (getPredicate context.redpathSteps).isEmpty
  | .notSet => false
  | _ => true

end RedPathContext

structure ContextNode (Object : Type) where
  redfishObject : Object
  redpathCtxMultiple : List RedPathContext
  lastExecutedRedpath : Text

def deduplicateNodeNamesAcrossSubqueries (contexts : List RedPathContext) :
    HashMap Text (List RedPathContext) :=
  contexts.foldl (fun map context => map.pushBack context.nodeName context) .empty

structure ExecutionFlags where
  executionMode : Planner.ExecutionMode := .failOnFirstError
  enableUrlAnnotation : Bool := false

/-- How a run ends early. -/
inductive Stop (Object Properties : Type) where
  | returnedFalse (session : Session Object Properties)
  | exception (what : Text)
  | undefinedBehaviour

/-- A planner, the service that it queries and the normalizer, with the hash set and hash map it
iterates over. -/
structure QueryPlanner (Object Iterable Properties : Type) where
  planId : Text
  subqueryHandles : List LinkedHandle
  redpathToQueryParams : List (Text × GetParams)
  redfishInterface : Option (Text -> GetParams -> RedfishVariant Object Iterable)
  get : Object -> Text -> GetParams -> RedfishVariant Object Iterable
  ensureFreshPayload : Object -> StatusOr (Option Object)
  getContentAsJson : Object -> Json
  size : Iterable -> Nat
  index : Iterable -> Nat -> RedfishVariant Object Iterable
  normalizer : Object -> Subquery -> Bool -> StatusOr Properties
  numbers : Predicates.NumericLibrary
  buildFilterFromRedpathPredicateList : List Text -> StatusOr Text
  nodeOrder : IterationOrder Text
  predicateOrder : IterationOrder Text

/-- What is given to a run. -/
structure RunOptions (Properties : Type) where
  queryVariables : QueryVariables
  callback : Option (Callback Properties)
  flags : ExecutionFlags
  sizes : Sizes Properties

variable {Object Iterable Properties Item Result : Type}

abbrev Execution (Object Properties : Type) := Bounded (Stop Object Properties)

/-- A result and the session after it. -/
abbrev Stepped (Object Properties Result : Type) := Result × Session Object Properties

/-- A loop that appends what each turn gives to a list. -/
def gather (turn : Session Object Properties -> Item ->
      Execution Object Properties (Stepped Object Properties (List Result)))
    (items : List Item) (session : Session Object Properties) :
    Execution Object Properties (Stepped Object Properties (List Result)) :=
  items.foldlM
    (fun state item => do
      let (found, after) <- turn state.2 item
      return (state.1 ++ found, after))
    ([], session)

variable (planner : QueryPlanner Object Iterable Properties) (options : RunOptions Properties)

def getQueryParamsForRedPath (redpathPrefix : Text) : GetParams :=
  (planner.redpathToQueryParams.lookup redpathPrefix).getD {}

def getRedfishObjectWithFreshness (variant : RedfishVariant Object Iterable)
    (params : GetParams) : Option Object :=
  match variant.object with
  | none => none
  | some object =>
    if params.freshness ≠ .required then some object
    else
      match planner.ensureFreshPayload object with
      | .error _ => none
      | .ok fresh => fresh

/-- The contexts of the children of a subquery whose data set is given. -/
def childContexts (handle : LinkedHandle) (dataset : Option Nat) : List RedPathContext :=
  handle.childSubqueryHandles.map fun child =>
    ⟨child, dataset, child.handle.substituteVariables options.queryVariables⟩

variable (contextNode : ContextNode Object) (redfishObject : Object)
  (contexts : List RedPathContext) (session : Session Object Properties)

/-- One turn of `PopulateResultOrContinueQuery`, with nothing left at the end of a RedPath. -/
def populateResultOrContinue (context : RedPathContext) :
    Execution Object Properties (Stepped Object Properties (List RedPathContext)) :=
  let handle := context.subqueryHandle
  if session.isSubqueryTerminated handle.subqueryId then pure ([], session)
  else if context.isEnd then
    match session.normalize options.sizes options.callback redfishObject handle.subquery
        context.rootRedpathDataset (planner.normalizer redfishObject handle.subquery
          options.flags.enableUrlAnnotation) with
    | (.error _, after) => pure ([], after)
    | (.ok dataset, after) => pure (childContexts options handle dataset, after)
  else if handle.hasRedPath then
    match context.redpathSteps with
    | [] => throw .undefinedBehaviour
    | _ :: steps => pure ([{ context with redpathSteps := steps }], session)
  else pure ([context], session)

def populateResultOrContinueQuery :
    Execution Object Properties (Stepped Object Properties (List RedPathContext)) :=
  gather (populateResultOrContinue planner options redfishObject) contexts session

def populateRawData (rawData : Option Text) (contexts : List RedPathContext)
    (session : Session Object Properties) : Session Object Properties :=
  match rawData with
  | none => session
  | some raw =>
    contexts.foldl
      (fun session context => session.addRawData raw context.subqueryHandle.subquery
        context.rootRedpathDataset) session

/-- Whether a context passes `ExecutePredicateFromEachSubquery`. -/
def passesPredicate (nodeIndex nodeSetSize : Nat) (context : RedPathContext) : Except Text Bool :=
  match Predicates.applyPredicateRule planner.numbers (planner.getContentAsJson redfishObject)
      ⟨getPredicate context.redpathSteps, nodeIndex, nodeSetSize⟩ with
  | .ok passed => .ok passed
  | .error (.status _) => .ok false
  | .error (.exception what) => .error what

def executePredicateFromEachSubquery (redfishObject : Object) (nodeIndex nodeSetSize : Nat) :
    List RedPathContext -> Except Text (List RedPathContext)
  | [] => .ok []
  | context :: rest => do
      let passed <- passesPredicate planner redfishObject nodeIndex nodeSetSize context
      let filtered <- executePredicateFromEachSubquery redfishObject nodeIndex nodeSetSize rest
      return if passed then context :: filtered else filtered

/-- `ExecutePredicateExpression`.  The node is returned as it is when no predicate is
fulfilled. -/
def executePredicateExpression (nodeIndex nodeCount : Nat) (contextNode : ContextNode Object)
    (session : Session Object Properties) :
    Execution Object Properties (Stepped Object Properties (ContextNode Object)) :=
  match executePredicateFromEachSubquery planner contextNode.redfishObject nodeIndex nodeCount
      contextNode.redpathCtxMultiple with
  | .error what => throw (.exception what)
  | .ok [] => pure (contextNode, session)
  | .ok filtered => do
      let (contexts, after) <- populateResultOrContinueQuery planner options
        contextNode.redfishObject filtered session
      return ({ contextNode with redpathCtxMultiple := contexts }, after)

/-- `QueryPlanner::FetchUri` -/
def fetchUri (uri : Text) : RedfishVariant Object Iterable :=
  let variant :=
    match planner.redfishInterface with
    | none => .ofStatus (.internal (text "Null redfish interface"))
    | some getUri => getUri uri (getQueryParamsForRedPath planner uri)
  if variant.status.code = .notFound then
    .ofStatus (.notFound (text "Failed to fetch uri: " ++ uri ++ text " Error: " ++
      variant.status.message))
  else variant

/-- `QueryPlanner::FetchUriReference` -/
def fetchUriReference (nodeName : Text) :
    Except Text (RedfishVariant Object Iterable) :=
  let normalizedNodeName := strReplaceAll nodeName [(text "/", text ".")]
  match PathUtil.resolveRedPathNodeToJson (planner.getContentAsJson redfishObject)
      normalizedNodeName with
  | .error (.exception what) => .error what
  | .error (.status _) =>
    .ok (.ofStatus (.notFound (text "Failed to resolve NodeName: " ++ normalizedNodeName)))
  | .ok found =>
    match found.getString with
    | .ok uri => .ok (fetchUri planner uri)
    | .error _ => .error (text "type_error.302")

/-- The parameters with the filter for the predicates of all contexts, if one can be built. -/
def paramsWithFilter (params : GetParams) (contexts : List RedPathContext) : GetParams :=
  match params.filter with
  | none => params
  | some _ =>
    match planner.buildFilterFromRedpathPredicateList (planner.predicateOrder.iterate
        (contexts.map fun context => getPredicate context.redpathSteps).dedup) with
    | .ok filterString => { params with filter := some filterString }
    | .error _ => params

/-- The request for a node name and the parameters that it was made with. -/
def requestNode (nodeName : Text) (contexts : List RedPathContext) (params : GetParams)
    : Except Text (RedfishVariant Object Iterable × GetParams) :=
  if contexts.any fun context => context.subqueryHandle.hasUri then
    .ok (fetchUri planner nodeName, params)
  else if contexts.any fun context => context.subqueryHandle.hasUriReferenceRedpath then do
    let variant <- fetchUriReference planner redfishObject nodeName
    return (variant, params)
  else
    let filtered := paramsWithFilter planner params contexts
    .ok (planner.get redfishObject nodeName filtered, filtered)

/-- What the status of a variant does to a run, and whether the variant is looked at. -/
def checkStatus (status : Status) (contexts : List RedPathContext) (nodeName redpath : Text)
    (session : Session Object Properties) :
    Execution Object Properties (Stepped Object Properties Bool) :=
  if status.isOk then pure (true, session)
  else
    match session.populateSubqueryErrorStatus status (contexts.map RedPathContext.subqueryId)
        nodeName redpath with
    | (.notFound, after) => pure (false, after)
    | (_, after) =>
      match options.flags.executionMode with
      | .failOnFirstError => throw (.returnedFalse after)
      | .continueOnSubqueryErrors => pure (true, after)

section

variable (nodeName : Text) (contexts : List RedPathContext)

/-- The prefix under which the members of a collection are recorded. -/
def selectAllRedpath (redpathToExecute : Text) : Text :=
  redpathToExecute ++ text "[" ++ kPredicateSelectAll ++ text "]"

/-- One turn of the loop over the members of a collection. -/
def executeMember (redpathToExecute : Text) (iterable : Iterable)
    (session : Session Object Properties) (nodeIndex : Nat) :
    Execution Object Properties (Stepped Object Properties (List (ContextNode Object))) := do
  let allMembers := selectAllRedpath redpathToExecute
  let indexedNode := planner.index iterable nodeIndex
  let (found, after) <- checkStatus options indexedNode.status contexts nodeName allMembers session
  if found then
    match getRedfishObjectWithFreshness planner indexedNode
        (getQueryParamsForRedPath planner allMembers) with
    | none => return ([], after)
    | some object =>
      let (contextNode, final) <- executePredicateExpression planner options nodeIndex
        (planner.size iterable) ⟨object, contexts, allMembers⟩ after
      return ([contextNode], final)
  else return ([], after)

/-- The predicates at a collection, or at a resource that is no collection. -/
def executePredicates (redpathToExecute : Text) (variant : RedfishVariant Object Iterable)
    (session : Session Object Properties) :
    Execution Object Properties (Stepped Object Properties (List (ContextNode Object))) :=
  match variant.iterable with
  | some iterable =>
    gather (executeMember planner options nodeName contexts redpathToExecute iterable)
      (List.range (planner.size iterable)) session
  | none =>
    match getRedfishObjectWithFreshness planner variant
        (getQueryParamsForRedPath planner (selectAllRedpath redpathToExecute)) with
    | none => pure ([], session)
    | some object => do
        let (contextNode, after) <- executePredicateExpression planner options 0 1
          ⟨object, contexts, redpathToExecute⟩ session
        return ([contextNode], after)

/-- The part of a turn for one node name after the request. -/
def executeVariant (redpathToExecute : Text) (params : GetParams)
    (variant : RedfishVariant Object Iterable) (session : Session Object Properties) :
    Execution Object Properties (Stepped Object Properties (List (ContextNode Object))) := do
  let noPredicate := contexts.filter RedPathContext.hasNoPredicate
  if noPredicate.isEmpty then
    executePredicates planner options nodeName contexts redpathToExecute variant session
  else
    match getRedfishObjectWithFreshness planner variant params with
    | none => return ([], populateRawData variant.raw noPredicate session)
    | some object =>
      let (filtered, after) <- populateResultOrContinueQuery planner options object noPredicate
        session
      let contextNode : ContextNode Object := ⟨object, filtered, redpathToExecute⟩
      if noPredicate.length = contexts.length then return ([contextNode], after)
      else
        let (others, final) <- executePredicates planner options nodeName contexts
          redpathToExecute variant after
        return (contextNode :: others, final)

end

/-- One turn of the loop over the node names. -/
def executeNodeName (group : Text × List RedPathContext) :
    Execution Object Properties (Stepped Object Properties (List (ContextNode Object))) := do
  let (nodeName, contexts) := group
  let redpathToExecute := contextNode.lastExecutedRedpath ++ text "/" ++ nodeName
  match requestNode planner contextNode.redfishObject nodeName contexts
      (getQueryParamsForRedPath planner redpathToExecute) with
  | .error what => throw (.exception what)
  | .ok (variant, params) =>
    let (found, after) <- checkStatus options variant.status contexts nodeName
      contextNode.lastExecutedRedpath session
    if found then
      executeVariant planner options nodeName contexts redpathToExecute params variant after
    else return ([], after)

/-- The node names of some contexts, in the order in which their map is iterated. -/
def groupsOf : List (Text × List RedPathContext) :=
  let map := deduplicateNodeNamesAcrossSubqueries contexts
  (planner.nodeOrder.iterate map.keys).map fun nodeName => (nodeName, map.listAt nodeName)

def executeStep :
    Execution Object Properties (Stepped Object Properties (List (ContextNode Object))) :=
  gather (executeNodeName planner options contextNode)
    (groupsOf planner contextNode.redpathCtxMultiple) session

def executeRedPathStepFromEachSubquery : Nat -> ContextNode Object ->
    Session Object Properties ->
    Execution Object Properties (Session Object Properties)
  | 0, _, _ => .exhausted
  | bound + 1, contextNode, session =>
    if contextNode.redpathCtxMultiple.isEmpty then pure session
    else do
      let (contextNodes, after) <- executeStep planner options contextNode session
      contextNodes.foldlM (fun session newContextNode =>
          executeRedPathStepFromEachSubquery bound newContextNode session)
        after

/-- One turn of the loop of `ProcessSubqueries`, which goes on at once from the service root. -/
def rootContexts (handle : LinkedHandle) :
    Execution Object Properties (Stepped Object Properties (List RedPathContext)) :=
  if handle.isChildSubquery then pure ([], session)
  else
    let redpathSteps := handle.handle.substituteVariables options.queryVariables
    let contexts : List RedPathContext := [⟨handle, none, redpathSteps⟩]
    if handle.hasRedPath && (getNode redpathSteps).isEmpty then
      populateResultOrContinueQuery planner options redfishObject contexts session
    else pure (contexts, session)

def catchReturned (run : Execution Object Properties (Session Object Properties)) :
    Execution Object Properties (Session Object Properties) :=
  ExceptT.mk (run.run.map fun
    | .error (.returnedFalse session) => .ok session
    | outcome => outcome)

/-- `QueryPlanner::ProcessSubqueries` -/
def processSubqueries (bound : Nat) (variant : RedfishVariant Object Iterable)
    (session : Session Object Properties) :
    Execution Object Properties (Session Object Properties) :=
  match variant.object with
  | none => pure { session with result := { session.result with
      status := some (.failedPrecondition
        (text "Cannot query service root for query with id: " ++ session.result.queryId ++
          text ", Error: " ++ statusToString variant.status)) } }
  | some redfishObject => catchReturned do
      let (contexts, after) <- gather (rootContexts planner options redfishObject)
        planner.subqueryHandles session
      executeRedPathStepFromEachSubquery planner options bound ⟨redfishObject, contexts, []⟩ after

/-- `QueryPlanner::Run`, up to times and metrics. A callback gets the result once more at the end.
-/
def run (bound : Nat) (variant : RedfishVariant Object Iterable) :
    Execution Object Properties (Session Object Properties) :=
  processSubqueries planner options bound variant (.start planner.planId)

/-- All results that the callback gets in a run that ends in this session. -/
def Session.deliveredResults : List (DelliciusQueryResult Properties) :=
  session.delivered ++ [session.result]

end Ecclesia.StepPlanner
