import Ecclesia.Query.Proto
import Ecclesia.StubArbiter.Calls

namespace Ecclesia.Engine

open StubArbiter

/-!
# Queries through a transport arbiter

An engine with a transport arbiter runs the plan of a query on the interface that its
arbiter chooses.  The result of a query is a variable of the loop over the queries, which
the callback of the arbiter sets.  When the arbiter has no interface to offer, the callback
is not called and the variable keeps its default value, with an empty query id and no
error.  The definitions follow `transport_arbiter_query_engine.cc`.
-/

/-- What a plan is run with, besides an interface. -/
structure PlanOptions where
  queryVariables : QueryVariables
  urlAnnotationEnabled : Bool
  logRedfishTraces : Bool
  customServiceRoot : Text

/-- A plan of the engine. The id in its results need not be the key under which the engine has it.
-/
structure QueryPlan (World Interface : Type) where
  planId : Text
  run : PlanOptions -> Option Interface -> World -> QueryResult × World
  named : ∀ options interface world, (run options interface world).1.queryId = planId

inductive TransportPriority where
  | primary
  | secondary
deriving DecidableEq

structure TransportMetrics (Time : Type) where
  transportPriority : TransportPriority
  startTime : Time
  endTime : Time

/-- A query result with what the engine adds to its statistics and its status. -/
structure TransportResult (Time : Type) where
  queryResult : QueryResult
  transportMetrics : List (TransportMetrics Time)
  transportCodes : List (TransportPriority × ErrorCode)

def statusFromQueryResultStatus (status : ResultStatus) : Status :=
  let message := (status.errors.intersperse (text "\n")).flatten
  match status.errorCode with
  | .none => .okStatus
  | .network => .deadlineExceeded message
  | .serviceRootUnreachable => .failedPrecondition message
  | .unauthenticated => ⟨.unauthenticated, message⟩
  | .queryTimeout => .deadlineExceeded message
  | .internal => .internal message
  | .unavailable => ⟨.unavailable, message⟩
  | .cancelled => .cancelled message

/-- The status of a result, which is empty when it was never set. -/
def resultStatus (result : QueryResult) : ResultStatus := result.status.getD ⟨[], .none⟩

variable {World Interface Time Duration : Type}

/-- `process_endpoint_metrics`, if there are metrics for the label. -/
def processEndpointMetrics (metrics : Metrics Time)
    (transportStatus : HashMap PriorityLabel ErrorCode) (label : PriorityLabel)
    (priority : TransportPriority) (result : TransportResult Time) : TransportResult Time :=
  match metrics.endpointMetrics.lookup label with
  | none => result
  | some endpoint =>
    { queryResult := { result.queryResult with
        status := some (resultStatus result.queryResult) }
      transportMetrics := result.transportMetrics ++
        [⟨priority, endpoint.startTime, endpoint.endTime⟩]
      transportCodes := result.transportCodes ++
        ((transportStatus.lookup label).map fun code => (priority, code)).toList }

def processMetrics (metrics : Metrics Time) (transportStatus : HashMap PriorityLabel ErrorCode)
    (result : QueryResult) : TransportResult Time :=
  processEndpointMetrics metrics transportStatus .secondary .secondary
    (processEndpointMetrics metrics transportStatus .primary .primary ⟨result, [], []⟩)

/-- `QueryEngineWithTransportArbiter`.  The type of its arbiter was checked when the arbiter
was made. -/
structure TransportArbiterEngine (World Interface Time Duration : Type) where
  idToRedpathQueryPlans : HashMap Text (QueryPlan World Interface)
  arbiterConfig : Config Duration
  known : arbiterConfig.type ≠ .unknown
  surroundings : Surroundings World Interface Time
  urlAnnotationEnabled : Bool
  logRedfishTraces : Bool

structure RedpathQueryOptions where
  googleServiceRoot : Bool
  queryArguments : HashMap Text QueryVariables
  priorityLabel : PriorityLabel

def RedpathQueryOptions.initialStub (options : RedpathQueryOptions) : PriorityLabel :=
  if options.priorityLabel = .unknown then .primary else options.priorityLabel

/-- What the callback sets in a turn of the loop. The list of the results is kept for the proofs. -/
structure Locals where
  resultSingle : QueryResult
  transportStatus : HashMap PriorityLabel ErrorCode
  results : List QueryResult

def Locals.start : Locals := ⟨.start [], .empty, []⟩

/-- What an arbiter is given, beside variables that it does not touch. -/
def besides (surroundings : Surroundings World Interface Time) :
    Surroundings (World × Locals) Interface Time where
  time := fun world => surroundings.time world.1
  pass := fun world => (surroundings.pass world.1, world.2)
  stubFactory := fun label world =>
    let made := surroundings.stubFactory label world.1
    (made.1, (made.2, world.2))

def runPlan (plan : QueryPlan World Interface) (options : PlanOptions) :
    Callback (World × Locals) Interface :=
  fun interface label world =>
    let ran := plan.run options interface world.1
    (statusFromQueryResultStatus (resultStatus ran.1),
      (ran.2, ⟨ran.1, world.2.transportStatus.assign label (resultStatus ran.1).errorCode,
        world.2.results ++ [ran.1]⟩))

/-- One turn of the loop, kept for the proofs, with the arbiter and the world before it. -/
structure QueryRecord (World Interface Time : Type) where
  queryId : Text
  plan : QueryPlan World Interface
  arbiter : Arbiter Interface Time
  world : World
  locals : Locals
  metrics : Metrics Time

structure EngineState (World Interface Time : Type) where
  arbiter : Arbiter Interface Time
  world : World
  queryIdToResult : HashMap Text (TransportResult Time)
  records : List (QueryRecord World Interface Time)

variable [LinearOrder Time] [HAdd Time Duration Time] [Inhabited Time] [DecidableEq Interface]
  (engine : TransportArbiterEngine World Interface Time Duration) (options : RedpathQueryOptions)

def planOptions (queryId : Text) : PlanOptions where
  queryVariables := (options.queryArguments.lookup queryId).getD []
  urlAnnotationEnabled := engine.urlAnnotationEnabled
  logRedfishTraces := engine.logRedfishTraces
  customServiceRoot := if options.googleServiceRoot then text "/google/v1" else []

/-- One turn of the loop, for a query that has a plan. -/
def executeQuery (queryId : Text) (plan : QueryPlan World Interface)
    (state : EngineState World Interface Time) : EngineState World Interface Time :=
  let execution := execute (besides engine.surroundings) engine.arbiterConfig engine.known
    (runPlan plan (planOptions engine options queryId)) options.initialStub state.arbiter
    (state.world, .start)
  let locals := execution.world.2
  let result := processMetrics execution.metrics locals.transportStatus locals.resultSingle
  { arbiter := execution.arbiter
    world := execution.world.1
    queryIdToResult := state.queryIdToResult.insert result.queryResult.queryId result
    records := state.records ++
      [⟨queryId, plan, state.arbiter, state.world, locals, execution.metrics⟩] }

/-- One turn of the loop. -/
def executeTurn (state : EngineState World Interface Time) (queryId : Text) :
    EngineState World Interface Time :=
  match engine.idToRedpathQueryPlans.lookup queryId with
  | none => state
  | some plan => executeQuery engine options queryId plan state

def executeRedpathQuery (queryIds : List Text) (arbiter : Arbiter Interface Time) (world : World) :
    EngineState World Interface Time :=
  queryIds.foldl (executeTurn engine options) ⟨arbiter, world, .empty, []⟩

/-- The entry of a query is the result of the last run of its plan, or an error if it was not run.
-/
def QueryRecord.Answers (record : QueryRecord World Interface Time)
    (entry : TransportResult Time) : Prop :=
  match record.locals.results.getLast? with
  | some result => entry = processMetrics record.metrics record.locals.transportStatus result
  | none => (resultStatus entry.queryResult).errorCode ≠ .none

/-- Every requested query that has a plan has an entry of its own, and nothing else has
one. -/
structure EveryQueryAnswered (queryIds : List Text) (final : EngineState World Interface Time) :
    Prop where
  keys : ∀ key, (final.queryIdToResult.lookup key).isSome = true ↔
    key ∈ queryIds ∧ (engine.idToRedpathQueryPlans.lookup key).isSome = true
  entries : ∀ key entry, final.queryIdToResult.lookup key = some entry ->
    ∃ record ∈ final.records, record.queryId = key ∧ record.Answers entry

/-- Before a turn, the arbiter has or can make an interface, and the plan is kept under its own id.
-/
def QueryRecord.Served (record : QueryRecord World Interface Time) : Prop :=
  record.plan.planId = record.queryId ∧
    serves engine.surroundings engine.arbiterConfig options.initialStub record.arbiter
      record.world = true

end Ecclesia.Engine
