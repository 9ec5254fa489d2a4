import Ecclesia.Library.Search
import Ecclesia.Planner.Execute
import Ecclesia.Planner.Normalize
import Ecclesia.Subscription.Events

namespace Ecclesia.Planner

open Absl List

/-!
# Running and resuming a query

`Run` queries the service root and traverses the trie breadth first.  The
context of a trie node is the resource relative to which the expressions of
the node are executed; every resource that an expression selects becomes a
context of the node behind the expression.  `Resume` does the same from the
resource of an event and with a loop of its own.
-/

/-- `QueryPlannerIntf::SubscriptionContext` -/
structure SubscriptionContext where
  redpathToTrieNode : List (Text × RedPathTrieNode)
  subscriptionConfigs : List Subscription.Configuration
  queryVariables : QueryVariables
  logRedfishTraces : Bool

/-- `QueryPlannerIntf::QueryExecutionOptions` -/
structure QueryExecutionOptions (World Object Iterable : Type) where
  queryVariables : QueryVariables
  urlAnnotationEnabled : Bool
  logRedfishTraces : Bool
  queryType : QueryType
  customServiceRoot : Text
  redfishInterface : Option (RedfishInterface World Object Iterable)

/-- `QueryPlannerIntf::QueryResumeOptions` -/
structure QueryResumeOptions (World Object Iterable : Type) where
  trieNode : RedPathTrieNode
  redfishVariant : RedfishVariant Object Iterable
  queryVariables : QueryVariables
  urlAnnotationEnabled : Bool
  redfishInterface : Option (RedfishInterface World Object Iterable)

/-- `QueryPlannerIntf::QueryExecutionResult` -/
structure QueryExecutionResult where
  queryResult : QueryResult
  subscriptionContext : Option SubscriptionContext

/-- The state of a traversal. The list of the normalised pairs is kept for the proofs. -/
structure RunState (World Object Iterable : Type) where
  world : World
  result : QueryResult
  subscriptionContext : Option SubscriptionContext
  normalized : List (Text × RedfishResponse Object Iterable)

/-- How a traversal is left early: by a return, with the session closed or not, or by an exception.
-/
inductive Leave (World Object Iterable : Type) where
  | returned (timingEnded : Bool) (state : RunState World Object Iterable)
  | thrown (what : Text)

variable {First Error Second : Type} {next : First -> Except Error Second}

/-- A successful sequence of two steps, taken apart. -/
lemma bind_ok {first : Except Error First} {value : Second}
    (ok : (first >>= next) = .ok value) : ∃ middle, first = .ok middle ∧
      next middle = .ok value := by
  cases first with
  | error failure => cases ok
  | ok middle => exact ⟨middle, rfl, ok⟩

lemma bind_error {first : Except Error First} {failure : Error}
    (failed : (first >>= next) = .error failure) : first = .error failure ∨
      ∃ middle, first = .ok middle ∧ next middle = .error failure := by
  cases first with
  | error other =>
    cases failed
    exact .inl rfl
  | ok middle => exact .inr ⟨middle, rfl, failed⟩

variable {World Object Iterable : Type}

namespace RunState

variable (state : RunState World Object Iterable)

/-- What the execution of an expression sees of the state. -/
def toExecution (context : QueryExecutionContext Object Iterable) : ExecutionState World :=
  ⟨state.world, state.result.status, context.urisToSubscribe⟩

def afterExecution (executed : ExecutionState World) :
    RunState World Object Iterable :=
  { state with
    world := executed.world
    result := { state.result with status := executed.status } }

def addError (state : RunState World Object Iterable) (message : Text) (code : ErrorCode) :
    RunState World Object Iterable :=
  { state with result := state.result.addError message code }

/-- `PopulateSubqueryErrorStatus` on the result of the run. -/
def populateError (status : Status) (lastRedpathPrefix : Text) (expression : RedPathExpression) :
    RunState World Object Iterable :=
  { state with
    result := { state.result with
      status :=
        populateSubqueryErrorStatus state.result.status status lastRedpathPrefix expression } }

end RunState

variable (planner : QueryPlanner World Object Iterable)

/-! ## Subscriptions -/

/-- `insert` into `redpath_to_trie_node`, which keeps an entry that is there. -/
def insertTrieNode (nodes : List (Text × RedPathTrieNode)) (redpath : Text)
    (node : RedPathTrieNode) : List (Text × RedPathTrieNode) :=
  if (nodes.lookup redpath).isSome then nodes else nodes ++ [(redpath, node)]

/-- `PopulateSubscriptionContext`.  The URIs of the current context are cleared
only when they are taken over. -/
def populateSubscriptionContext (executionContexts : List (QueryExecutionContext Object Iterable))
    (current : QueryExecutionContext Object Iterable) (expression : RedPathExpression)
    (options : QueryExecutionOptions World Object Iterable)
    (subscription : Option SubscriptionContext) :
    QueryExecutionContext Object Iterable × Option SubscriptionContext :=
  if !executionContexts.isEmpty || current.urisToSubscribe.isEmpty then (current, subscription)
  else
    let redpathSubscribed := addExpressionToRedPath current.lastRedpathPrefix expression
    let configuration : Subscription.Configuration :=
      ⟨planner.query.queryId, redpathSubscribed, current.urisToSubscribe,
        if expression.type = .predicate then expression.expression else []⟩
    let known := subscription.getD ⟨[], [], [], false⟩
    ({ current with urisToSubscribe := [] },
      some ⟨insertTrieNode known.redpathToTrieNode redpathSubscribed expression.trieNode,
        known.subscriptionConfigs ++ [configuration], options.queryVariables,
        options.logRedfishTraces⟩)

/-! ## The traversal of a run -/

section

variable (options : QueryExecutionOptions World Object Iterable)

def localInterface : Option (RedfishInterface World Object Iterable) :=
  match options.redfishInterface with
  | some interface => some interface
  | none => planner.redfishInterface

/-- A failed normalisation during the traversal, which ends the run. -/
def reportNormalizeFailure (state : RunState World Object Iterable) (subqueryId : Text)
    (status : Status) : RunState World Object Iterable :=
  state.addError (text "Unable to normalize: " ++ status.message ++ text " for subquery: " ++
      subqueryId)
    (if state.result.status.map ResultStatus.errorCode = some .cancelled then .cancelled
      else .internal)

/-- One turn of the loop over the selected contexts: normalise the context, and hand it on. -/
def normalizeContext (trieNode : RedPathTrieNode)
    (context : QueryExecutionContext Object Iterable) (state : RunState World Object Iterable) :
    Except (Leave World Object Iterable)
      (RunState World Object Iterable × QueryExecutionContext Object Iterable) :=
  if trieNode.subqueryId.isEmpty then .ok (state, { context with redpathTrieNode := trieNode })
  else
    let tried := tryNormalize planner trieNode.subqueryId (localInterface planner options) context
      options.urlAnnotationEnabled state.result state.world
    let changed := { state with world := tried.2, result := tried.1.2.1 }
    if tried.1.1.isOk then
      .ok ({ changed with
          normalized := state.normalized ++ [(trieNode.subqueryId, context.redfishResponse)] },
        { tried.1.2.2 with redpathTrieNode := trieNode })
    else
      .error (.returned false (reportNormalizeFailure changed trieNode.subqueryId tried.1.1))

/-- The loop over the contexts that an expression has selected. -/
def normalizeContexts (trieNode : RedPathTrieNode) :
    List (QueryExecutionContext Object Iterable) -> RunState World Object Iterable ->
      Except (Leave World Object Iterable)
        (RunState World Object Iterable × List (QueryExecutionContext Object Iterable))
  | [], state => .ok (state, [])
  | context :: rest, state => do
      let (between, next) <- normalizeContext planner options trieNode context state
      let (after, others) <- normalizeContexts trieNode rest between
      return (after, next :: others)

/-- What `Run` makes of the answer to an expression. -/
def respond (state : RunState World Object Iterable)
    (current : QueryExecutionContext Object Iterable) (expression : RedPathExpression)
    (answer : Evaluation (List (QueryExecutionContext Object Iterable))) :
    Except (Leave World Object Iterable)
      (RunState World Object Iterable × QueryExecutionContext Object Iterable ×
        List (QueryExecutionContext Object Iterable)) :=
  match answer with
  | .error (.exception what) => .error (.thrown what)
  | .error (.status status) =>
    if status.code = .notFound then .ok (state, current, [])
    else
      let reported := state.populateError status current.lastRedpathPrefix expression
      if status.code = .cancelled then
        .error (.returned false (reported.addError
          (text "Halted query execution: " ++ status.message) .cancelled))
      else if planner.executionMode = .continueOnSubqueryErrors then
        .ok (reported, current, [])
      else .error (.returned true reported)
  | .ok contexts => do
      let populated := populateSubscriptionContext planner contexts current expression options
        state.subscriptionContext
      let (after, found) <- normalizeContexts planner options expression.trieNode contexts
        { state with subscriptionContext := populated.2 }
      return (after, populated.1, found)

/-- One turn of the inner loop of `Run`: execute an expression relative to the
current context. -/
def followExpression (state : RunState World Object Iterable)
    (context : QueryExecutionContext Object Iterable) (expression : RedPathExpression) :
    Except (Leave World Object Iterable)
      (RunState World Object Iterable × QueryExecutionContext Object Iterable ×
        List (QueryExecutionContext Object Iterable)) :=
  let executed := executeQueryExpression planner options.queryType expression context
    options.queryVariables (localInterface planner options) (state.toExecution context)
  respond planner options (state.afterExecution executed.2)
    { context with urisToSubscribe := executed.2.urisToSubscribe } expression executed.1

variable {context : QueryExecutionContext Object Iterable}
  {state after : RunState World Object Iterable}

/-- A context that is handed on to a trie node.  It may know other results than before. -/
def HandedOn (trieNode : RedPathTrieNode) (context next : QueryExecutionContext Object Iterable) :
    Prop :=
  ∃ results,
    next = { context with subqueryIdToSubqueryResult := results, redpathTrieNode := trieNode }

/-- `TryNormalize` leaves the status alone, and changes of the context the known results only. -/
lemma tryNormalize_keeps (subqueryId : Text)
    (given : Option (RedfishInterface World Object Iterable))
    (context : QueryExecutionContext Object Iterable) (urlAnnotationEnabled : Bool)
    (result : QueryResult) (world : World) :
    let tried := (tryNormalize planner subqueryId given context urlAnnotationEnabled result world).1
    tried.2.1.status = result.status ∧
      ∃ results, tried.2.2 = { context with subqueryIdToSubqueryResult := results } := by
  unfold tryNormalize
  cases findSubquery planner.query subqueryId with
  | none => exact ⟨rfl, _, rfl⟩
  | some subquery =>
    simp only [bind, StateT.bind]
    rcases buildQueryValue planner subquery subqueryId given context urlAnnotationEnabled world
      with ⟨built, after⟩
    cases built with
    | error status => exact ⟨rfl, _, rfl⟩
    | ok found =>
      cases found with
      | none => exact ⟨rfl, _, rfl⟩
      | some pair => exact ⟨rfl, _, rfl⟩

variable {trieNode : RedPathTrieNode} {next : QueryExecutionContext Object Iterable}

lemma normalizeContext_handsOn
    (normalized : normalizeContext planner options trieNode context state = .ok (after, next)) :
    HandedOn trieNode context next ∧ after.result.status = state.result.status ∧
      after.subscriptionContext = state.subscriptionContext := by
  unfold normalizeContext at normalized
  split_ifs at normalized
  · cases normalized
    exact ⟨⟨_, rfl⟩, rfl, rfl⟩
  · simp only at normalized
    split_ifs at normalized
    cases normalized
    rcases tryNormalize_keeps planner trieNode.subqueryId (localInterface planner options) context
      options.urlAnnotationEnabled state.result state.world with ⟨status, results, same⟩
    exact ⟨⟨results, by rw [same]⟩, status, rfl⟩

variable {contexts found : List (QueryExecutionContext Object Iterable)}

lemma normalizeContexts_handsOn
    (normalized : normalizeContexts planner options trieNode contexts state = .ok (after, found)) :
    Forall₂ (HandedOn trieNode) contexts found ∧
      after.result.status = state.result.status ∧
      after.subscriptionContext = state.subscriptionContext := by
  induction contexts generalizing state after found with
  | nil =>
    cases normalized
    exact ⟨.nil, rfl, rfl⟩
  | cons context rest ih =>
    rcases bind_ok normalized with ⟨⟨between, first⟩, ranFirst, others⟩
    rcases bind_ok others with ⟨⟨later, others⟩, ranRest, same⟩
    cases same
    rcases normalizeContext_handsOn planner options ranFirst with ⟨here, status, subscription⟩
    rcases ih ranRest with ⟨handed, statusRest, subscriptionRest⟩
    exact ⟨.cons here handed, statusRest.trans status, subscriptionRest.trans subscription⟩

lemma handedOn_of_mem (handed : Forall₂ (HandedOn trieNode) contexts found)
    (member : next ∈ found) : ∃ context ∈ contexts, HandedOn trieNode context next := by
  induction handed with
  | nil => cases member
  | cons here _ ih =>
    rcases mem_cons.mp member with rfl | member
    · exact ⟨_, .head _, here⟩
    · rcases ih member with ⟨context, listed, handed⟩
      exact ⟨context, .tail _ listed, handed⟩

lemma followExpression_trieNode
    {current : QueryExecutionContext Object Iterable} {expression : RedPathExpression}
    (followed : followExpression planner options state context expression =
      .ok (after, current, found)) :
    ∀ next ∈ found, next.redpathTrieNode = expression.trieNode := by
  simp only [followExpression, respond] at followed
  split at followed
  · cases followed
  · split_ifs at followed
    · cases followed
      exact forall_mem_nil _
    · cases followed
      exact forall_mem_nil _
  · rcases bind_ok followed with ⟨⟨later, others⟩, ran, same⟩
    cases same
    intro next member
    rcases handedOn_of_mem (normalizeContexts_handsOn planner options ran).1 member with
      ⟨-, -, results, rfl⟩
    rfl

/-- The traversal of `Run` as a breadth first search over contexts. -/
def runSearch : Search (RunState World Object Iterable)
    (QueryExecutionContext Object Iterable) RedPathExpression (Leave World Object Iterable) where
  edges context := context.redpathTrieNode.childExpressions
  follow := followExpression planner options
  rank context := context.redpathTrieNode.rank
  weight := RedPathExpression.weight
  weight_lt := QueryExecutionContext.weight_lt_rank
  rank_lt _ _ expression _ _ _ followed next member := by
    rw [followExpression_trieNode planner options followed next member]
    exact expression.rank_lt_weight

end

/-! ## Run -/

section

variable (options : QueryExecutionOptions World Object Iterable)

def kDefaultRedfishServiceRoot : Text := text "/redfish/v1"

def serviceRoot : Text :=
  planner.query.serviceRoot.getD kDefaultRedfishServiceRoot

def serviceRootName : Text :=
  (getQueryParamsForRedPath planner (text "/")).uriPrefix ++ serviceRoot planner

/-- Fetch the service root.  The error is what the run reports before it
returns. -/
def queryServiceRoot : StateM World (Except (Text × ErrorCode) Object) :=
  match localInterface planner options with
  | none =>
    return .error (text "Redfish interface is not set before query execution", .internal)
  | some interface => do
      let cancelled <- planner.isQueryExecutionCancelled
      if cancelled then
        return .error (text "Query execution cancelled before querying service root.", .cancelled)
      else do
        let params := getQueryParamsForRedPath planner (text "/")
        let variant <- interface.getRoot params
          (if options.customServiceRoot.isEmpty then serviceRoot planner
            else options.customServiceRoot)
        if variant.status.code = .deadlineExceeded then
          return .error (text "Timed out while querying service root", .queryTimeout)
        else do
          let stillCancelled <- planner.isQueryExecutionCancelled
          let object <- getRedfishObjectWithFreshness planner params variant stillCancelled
          match object with
          | .ok (some root) => return .ok root
          | .ok none =>
            return .error (text "Attempting to reach service root " ++
              serviceRootName planner ++ text " resulted in error: " ++
              text "Getting object with freshness returned nullptr", .serviceRootUnreachable)
          | .error status =>
            return .error (text "Attempting to reach service root " ++
              serviceRootName planner ++ text " resulted in error: " ++ status.message,
              if status.code = .deadlineExceeded then .queryTimeout
              else if status.code = .cancelled then .cancelled
              else .serviceRootUnreachable)

/-- The context of a trie node at a response and the first state, or what the run returns if the
response cannot be normalised. -/
def startTraversal (node : RedPathTrieNode) (response : RedfishResponse Object Iterable)
    (world : World) :
    Except (RunState World Object Iterable)
      (RunState World Object Iterable × QueryExecutionContext Object Iterable) :=
  let context := .start node response
  let state : RunState World Object Iterable := ⟨world, .start planner.query.queryId, none, []⟩
  if node.subqueryId.isEmpty then .ok (state, context)
  else
    let tried := tryNormalize planner node.subqueryId (localInterface planner options) context
      options.urlAnnotationEnabled state.result state.world
    let changed := { state with world := tried.2, result := tried.1.2.1 }
    if tried.1.1.isOk then
      .ok ({ changed with normalized := [(node.subqueryId, context.redfishResponse)] }, tried.1.2.2)
    else
      .error (changed.addError (text "Querying service root: " ++ serviceRootName planner ++
        text " resulted in error: " ++ tried.1.1.message) .internal)

variable {context : QueryExecutionContext Object Iterable} {state : RunState World Object Iterable}

lemma startTraversal_fresh {node : RedPathTrieNode} {response : RedfishResponse Object Iterable}
    {world : World}
    (started : startTraversal planner options node response world = .ok (state, context)) :
    (∃ results, context = { QueryExecutionContext.start node response with
      subqueryIdToSubqueryResult := results }) ∧ state.subscriptionContext = none := by
  unfold startTraversal at started
  by_cases unnamed : node.subqueryId.isEmpty
  · simp only [if_pos unnamed] at started
    cases started
    exact ⟨⟨_, rfl⟩, rfl⟩
  · simp only [if_neg unnamed] at started
    split_ifs at started
    cases started
    exact ⟨(tryNormalize_keeps planner _ _ _ _ _ _).2, rfl⟩

/-- How a run ends: with its result, the timeout manager and the world as they
are then; or with an exception. -/
inductive RunOutcome (World : Type) where
  | returned (result : QueryExecutionResult) (timeoutManager : Option QueryTimeoutManager)
      (world : World)
  | thrown (what : Text)

variable (timeoutManager : Option QueryTimeoutManager)

def beginTiming : StateM World (StatusOr (Option QueryTimeoutManager)) :=
  match timeoutManager with
  | none => return .ok none
  | some manager => do
      let now <- planner.now
      return (manager.startTiming now).map some

def finishTiming : StateM World (Status × Option QueryTimeoutManager) :=
  match timeoutManager with
  | none => return (.okStatus, none)
  | some manager => do
      let now <- planner.now
      let (status, ended) := manager.endTiming now
      return (status, some ended)

/-- The normal end of a run, behind the traversal. -/
def finishRun (state : RunState World Object Iterable) : RunOutcome World :=
  let normalized := tryNormalizeOnFinalQueryResult planner options.urlAnnotationEnabled
    planner.additionalNormalizers state.result state.world
  let finished := finishTiming planner timeoutManager normalized.2
  let final :=
    if finished.1.1.isOk then normalized.1
    else normalized.1.addError (text "Timed out while executing query") .queryTimeout
  .returned ⟨final, state.subscriptionContext⟩ finished.1.2 finished.2

def endTraversal (explored : Except (Leave World Object Iterable) (RunState World Object Iterable))
    :
    RunOutcome World :=
  match explored with
  | .ok final => finishRun planner options timeoutManager final
  | .error (.thrown what) => .thrown what
  | .error (.returned true final) =>
    let finished := finishTiming planner timeoutManager final.world
    .returned ⟨final.result, none⟩ finished.1.2 finished.2
  | .error (.returned false final) =>
    .returned ⟨final.result, none⟩ timeoutManager final.world

/-- The part of a run that starts with the service root. -/
def runFromRoot (root : Object) (world : World) :
    RunOutcome World :=
  match startTraversal planner options planner.redpathTrieRoot (.ofObject (some root)) world with
  | .error final => .returned ⟨final.result, none⟩ timeoutManager final.world
  | .ok (state, context) =>
    endTraversal planner options timeoutManager ((runSearch planner options).run state context)

variable (world : World)

/-- The part of a run in which its timing session is open. -/
def runTimed : RunOutcome World :=
  let queried := queryServiceRoot planner options world
  match queried.1 with
  | .error (message, code) =>
    .returned ⟨(QueryResult.start planner.query.queryId).addError message code, none⟩
      timeoutManager queried.2
  | .ok root => runFromRoot planner options timeoutManager root queried.2

/-- `QueryPlanner::Run` -/
def run : RunOutcome World :=
  let started := beginTiming planner timeoutManager world
  match started.1 with
  | .error _ =>
    .returned ⟨(QueryResult.start planner.query.queryId).addError
      (text "Timed out before query execution could start") .queryTimeout, none⟩
      timeoutManager started.2
  | .ok timing => runTimed planner options timing started.2

/-- The traversal from a trie node at a response comes to its end, in this
state. -/
def Traverses (node : RedPathTrieNode) (response : RedfishResponse Object Iterable)
    (world : World) (final : RunState World Object Iterable) : Prop :=
  ∃ state context, startTraversal planner options node response world =
      .ok (state, context) ∧
    (runSearch planner options).run state context = .ok final

/-- A run starts its timing session, if there is one, and gets its service
root. -/
structure GetsRoot (timing : Option QueryTimeoutManager) (root : Object) : Prop where
  started : (beginTiming planner timeoutManager world).1 = .ok timing
  fetched : (queryServiceRoot planner options
    (beginTiming planner timeoutManager world).2).1 = .ok root

/-- The world once the service root was fetched. -/
def worldAtRoot : World :=
  (queryServiceRoot planner options (beginTiming planner timeoutManager world).2).2

/-- A run gets this service root, traverses its trie from there to the end, and
ends normally in this state. -/
structure RunEndsIn (timing : Option QueryTimeoutManager) (root : Object)
    (final : RunState World Object Iterable) : Prop where
  gets : GetsRoot planner options timeoutManager world timing root
  traverses : Traverses planner options planner.redpathTrieRoot (.ofObject (some root))
    (worldAtRoot planner options timeoutManager world) final
  returns : run planner options timeoutManager world = finishRun planner options timing final

lemma GetsRoot.runEndsIn {timeoutManager timing : Option QueryTimeoutManager} {world : World}
    {root : Object} (gets : GetsRoot planner options timeoutManager world timing root)
    {final : RunState World Object Iterable}
    (traverses : Traverses planner options planner.redpathTrieRoot (.ofObject (some root))
      (worldAtRoot planner options timeoutManager world) final) :
    RunEndsIn planner options timeoutManager world timing root final := by
  refine ⟨gets, traverses, ?_⟩
  rcases traverses with ⟨state, context, begun, ran⟩
  unfold worldAtRoot at begun
  unfold run runTimed
  simp only [gets.started, gets.fetched, runFromRoot, begun, ran]
  rfl

variable {planner options} {final : RunState World Object Iterable}

lemma Traverses.within {node : RedPathTrieNode} {response : RedfishResponse Object Iterable}
    {world : World}
    (begun : startTraversal planner options node response world = .ok (state, context))
    (bound : Nat) (explored : (runSearch planner options).exploreWithin bound state context
      context.redpathTrieNode.childExpressions [] = some (.ok final)) :
    Traverses planner options node response world final :=
  ⟨state, context, begun, Search.run_of_within _ bound explored⟩

/-- A run that gets its service root ends if its traversal does. -/
lemma RunEndsIn.within {timeoutManager timing : Option QueryTimeoutManager} {world : World}
    {root : Object} (gets : GetsRoot planner options timeoutManager world timing root)
    (begun : startTraversal planner options planner.redpathTrieRoot (.ofObject (some root))
      (worldAtRoot planner options timeoutManager world) = .ok (state, context)) (bound : Nat)
    (explored : (runSearch planner options).exploreWithin bound state context
      context.redpathTrieNode.childExpressions [] = some (.ok final)) :
    RunEndsIn planner options timeoutManager world timing root final :=
  gets.runEndsIn planner options (.within begun bound explored)

end

/-! ## Resume -/

variable (options : QueryResumeOptions World Object Iterable)

/-- The interface a resumed query uses. -/
def resumeInterface : Option (RedfishInterface World Object Iterable) :=
  match options.redfishInterface with
  | some interface => some interface
  | none => planner.redfishInterface

/-- One turn of the loop over the selected contexts, where a normalised one is not handed on. -/
def resumeContext (trieNode : RedPathTrieNode)
    (context : QueryExecutionContext Object Iterable) (state : RunState World Object Iterable) :
    Except (Leave World Object Iterable)
      (RunState World Object Iterable × List (QueryExecutionContext Object Iterable)) :=
  if trieNode.subqueryId.isEmpty || context.redfishResponse.redfishObject.isNone then
    .ok (state, [{ context with redpathTrieNode := trieNode }])
  else
    let tried := tryNormalize planner trieNode.subqueryId planner.redfishInterface context
      options.urlAnnotationEnabled state.result state.world
    let changed := { state with world := tried.2, result := tried.1.2.1 }
    if tried.1.1.isOk then
      .ok ({ changed with
          normalized := state.normalized ++ [(trieNode.subqueryId, context.redfishResponse)] },
        [])
    else
      .error (.returned false (changed.addError (text "Unable to normalize: " ++
        tried.1.1.message ++ text " for subquery: " ++ trieNode.subqueryId) .internal))

def resumeContexts (trieNode : RedPathTrieNode) :
    List (QueryExecutionContext Object Iterable) -> RunState World Object Iterable ->
      Except (Leave World Object Iterable)
        (RunState World Object Iterable × List (QueryExecutionContext Object Iterable))
  | [], state => .ok (state, [])
  | context :: rest, state => do
      let (between, pushed) <- resumeContext planner options trieNode context state
      let (after, others) <- resumeContexts trieNode rest between
      return (after, pushed ++ others)

/-- One turn of the inner loop of `Resume`. -/
def resumeExpression (state : RunState World Object Iterable)
    (context : QueryExecutionContext Object Iterable) (expression : RedPathExpression) :
    Except (Leave World Object Iterable)
      (RunState World Object Iterable × QueryExecutionContext Object Iterable ×
        List (QueryExecutionContext Object Iterable)) :=
  let executed := executeQueryExpression planner .polling expression context
    options.queryVariables (resumeInterface planner options) (state.toExecution context)
  let current := { context with urisToSubscribe := executed.2.urisToSubscribe }
  let state := state.afterExecution executed.2
  match executed.1 with
  | .error (.exception what) => .error (.thrown what)
  | .error (.status status) =>
    if status.code = .notFound then .ok (state, current, [])
    else .ok (state.populateError status current.lastRedpathPrefix expression, current, [])
  | .ok contexts => do
      let (after, found) <- resumeContexts planner options expression.trieNode contexts state
      return (after, current, found)

variable {found : List (QueryExecutionContext Object Iterable)}
  {state after : RunState World Object Iterable}

lemma resumeContexts_trieNode {trieNode : RedPathTrieNode}
    {contexts : List (QueryExecutionContext Object Iterable)}
    (resumed : resumeContexts planner options trieNode contexts state = .ok (after, found)) :
    ∀ next ∈ found, next.redpathTrieNode = trieNode := by
  induction contexts generalizing state after found with
  | nil =>
    cases resumed
    exact forall_mem_nil _
  | cons context rest ih =>
    rcases bind_ok resumed with ⟨⟨between, pushed⟩, ranFirst, others⟩
    rcases bind_ok others with ⟨⟨later, others⟩, ranRest, same⟩
    cases same
    intro next member
    rcases mem_append.mp member with member | member
    · unfold resumeContext at ranFirst
      split_ifs at ranFirst
      · cases ranFirst
        rw [mem_singleton.mp member]
      · simp only at ranFirst
        split_ifs at ranFirst
        cases ranFirst
        exact nomatch member
    · exact ih ranRest next member

variable {context : QueryExecutionContext Object Iterable}

lemma resumeExpression_trieNode
    {current : QueryExecutionContext Object Iterable} {expression : RedPathExpression}
    (followed : resumeExpression planner options state context expression =
      .ok (after, current, found)) :
    ∀ next ∈ found, next.redpathTrieNode = expression.trieNode := by
  simp only [resumeExpression] at followed
  split at followed
  · cases followed
  · split_ifs at followed
    · cases followed
      exact forall_mem_nil _
    · cases followed
      exact forall_mem_nil _
  · rcases bind_ok followed with ⟨⟨later, others⟩, ran, same⟩
    cases same
    exact resumeContexts_trieNode planner options ran

/-- The traversal of `Resume`. -/
def resumeSearch : Search (RunState World Object Iterable)
    (QueryExecutionContext Object Iterable) RedPathExpression (Leave World Object Iterable) where
  edges context := context.redpathTrieNode.childExpressions
  follow := resumeExpression planner options
  rank context := context.redpathTrieNode.rank
  weight := RedPathExpression.weight
  weight_lt := QueryExecutionContext.weight_lt_rank
  rank_lt _ _ expression _ _ _ followed next member := by
    rw [resumeExpression_trieNode planner options followed next member]
    exact expression.rank_lt_weight

def QueryResumeOptions.response : RedfishResponse Object Iterable :=
  ⟨options.redfishVariant.object, options.redfishVariant.iterable, none⟩

/-- The first state and context of a resumed traversal, or what is returned instead. -/
def startResume (world : World) :
    Except (RunState World Object Iterable)
      (RunState World Object Iterable × QueryExecutionContext Object Iterable) :=
  let node := options.trieNode
  let context := .start node options.response
  let state : RunState World Object Iterable := ⟨world, .start planner.query.queryId, none, []⟩
  if node.subqueryId.isEmpty || context.redfishResponse.redfishObject.isNone then
    .ok (state, context)
  else
    let tried := tryNormalize planner node.subqueryId planner.redfishInterface context
      options.urlAnnotationEnabled state.result state.world
    let changed := { state with world := tried.2, result := tried.1.2.1 }
    if tried.1.1.isOk then
      .ok ({ changed with normalized := [(node.subqueryId, context.redfishResponse)] }, tried.1.2.2)
    else
      .error (changed.addError (text "Unable to normalize resumed query: " ++
        tried.1.1.message) .internal)

/-- The error for a query that is resumed without an interface. -/
def missingInterface (node : RedPathTrieNode) : Text :=
  match node.childExpressions with
  | [] => text "Redfish interface is not set when " ++
      text "resuming with no remaining expressions to query"
  | expression :: _ => text "Redfish interface is not set before querying " ++
      (if expression.type = .predicate then
        text "predicate [" ++ expression.expression ++ text "]"
      else text "node " ++ expression.expression)

/-- The normal end of a resumed query, behind the traversal. -/
def finishResume (state : RunState World Object Iterable) : RunState World Object Iterable :=
  let normalized := tryNormalizeOnFinalQueryResult planner options.urlAnnotationEnabled
    planner.additionalNormalizers state.result state.world
  { state with result := normalized.1, world := normalized.2 }

/-- How a resumed query ends: with its last state, whose result is returned; or
with an exception. -/
def resume (world : World) : Except Text (RunState World Object Iterable) :=
  match startResume planner options world with
  | .error final => .ok final
  | .ok (state, context) =>
    match resumeInterface planner options with
    | none => .ok (state.addError (missingInterface options.trieNode) .internal)
    | some _ =>
      match (resumeSearch planner options).run state context with
      | .error (.thrown what) => .error what
      | .error (.returned _ final) => .ok final
      | .ok final => .ok (finishResume planner options final)

/-- A resumed query traverses the trie to the end, and ends normally in this
state. -/
structure ResumeEndsIn (world : World) (final : RunState World Object Iterable) : Prop where
  traverses : ∃ state context, startResume planner options world = .ok (state, context) ∧
    (resumeSearch planner options).run state context = .ok final
  returns : resume planner options world = .ok (finishResume planner options final)

lemma resumeEndsIn {interface : RedfishInterface World Object Iterable}
    (local_ : resumeInterface planner options = some interface) {world : World}
    {final : RunState World Object Iterable}
    (started : startResume planner options world = .ok (state, context))
    (ran : (resumeSearch planner options).run state context = .ok final) :
    ResumeEndsIn planner options world final := by
  refine ⟨⟨state, context, started, ran⟩, ?_⟩
  unfold resume
  simp only [started, local_, ran]

end Ecclesia.Planner
