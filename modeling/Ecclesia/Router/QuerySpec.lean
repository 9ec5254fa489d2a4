import Ecclesia.Library.Chain
import Ecclesia.Router.Selection

namespace Ecclesia.Router

/-!
# The queries of a server

A router spec has a list of selections for each query id.  Every selection that matches the
server writes its query, its rule and its timeout into one entry for the query id.  The
definitions follow `GetQuerySpec` in `util.cc`.

Queries and rules are messages, of which only the id of a query is read here.
-/

structure QueryAndRulePath where
  queryPath : Text
  rulePath : Text

structure QueryAndRule (Query Rule : Type) where
  query : Query
  rule : Option Rule

/-- The `query_spec` of a selection. -/
inductive SelectedQuery (Query Rule : Type) where
  | notSet
  | queryAndRulePath (paths : QueryAndRulePath)
  | queryAndRule (messages : QueryAndRule Query Rule)

/-- A `google.protobuf.Duration`. -/
structure ProtoDuration where
  seconds : Int
  nanos : Int

structure QuerySelectionSpec (Query Rule : Type) where
  select : List SelectionClass
  querySpec : SelectedQuery Query Rule
  timeout : Option ProtoDuration

/-- `QuerySpec::QueryInfo` -/
structure QueryInfo (Query Rule Duration : Type) where
  query : Query
  rule : Rule
  timeout : Option Duration

/-- Messages without contents, the files of queries and rules, and durations. A file that cannot be
read is an error. -/
structure Resources (Query Rule Duration : Type) where
  queryId : Query -> Text
  emptyQuery : Query
  emptyRule : Rule
  getQuery : Text -> StatusOr Query
  getRules : Text -> StatusOr (HashMap Text Rule)
  duration : ProtoDuration -> Duration
  getQuery_error : ∀ path status, getQuery path = .error status -> status.isOk = false
  getRules_error : ∀ path status, getRules path = .error status -> status.isOk = false

variable {Query Rule Duration : Type} (resources : Resources Query Rule Duration)

def addTimeoutFromSelectionSpec (selectionSpec : QuerySelectionSpec Query Rule)
    (queryInfo : QueryInfo Query Rule Duration) : QueryInfo Query Rule Duration :=
  match selectionSpec.timeout with
  | some timeout => { queryInfo with timeout := some (resources.duration timeout) }
  | none => queryInfo

def infoAt (queryIdToInfo : HashMap Text (QueryInfo Query Rule Duration)) (queryId : Text) :
    QueryInfo Query Rule Duration :=
  (queryIdToInfo.lookup queryId).getD ⟨resources.emptyQuery, resources.emptyRule, none⟩

def addToQuerySpec (queryId : Text) (selectionSpec : QuerySelectionSpec Query Rule)
    (queryIdToInfo : HashMap Text (QueryInfo Query Rule Duration)) :
    Status × HashMap Text (QueryInfo Query Rule Duration) :=
  match selectionSpec.querySpec with
  | .queryAndRulePath paths =>
    if paths.queryPath.isEmpty then
      (.failedPrecondition (text "Query path is not specified for query: " ++ queryId),
        queryIdToInfo)
    else
      match resources.getQuery paths.queryPath with
      | .error status => (status, queryIdToInfo)
      | .ok query =>
        if queryId != resources.queryId query then
          (.failedPrecondition (text "Query id mismatch - router spec: " ++ queryId ++
            text " vs query spec: " ++ resources.queryId query), queryIdToInfo)
        else
          let queryInfo := addTimeoutFromSelectionSpec resources selectionSpec
            { infoAt resources queryIdToInfo queryId with query := query }
          if paths.rulePath.isEmpty then (.okStatus, queryIdToInfo.assign queryId queryInfo)
          else
            match resources.getRules paths.rulePath with
            | .error status => (status, queryIdToInfo.assign queryId queryInfo)
            | .ok queryRules =>
              match queryRules.lookup queryId with
              | some rule =>
                (.okStatus, queryIdToInfo.assign queryId { queryInfo with rule := rule })
              | none => (.okStatus, queryIdToInfo.assign queryId queryInfo)
  | .queryAndRule messages =>
    let queryInfo := { infoAt resources queryIdToInfo queryId with query := messages.query }
    let withRule :=
      match messages.rule with
      | some rule => { queryInfo with rule := rule }
      | none => queryInfo
    (.okStatus, queryIdToInfo.assign queryId
      (addTimeoutFromSelectionSpec resources selectionSpec withRule))
  | .notSet => (.okStatus, queryIdToInfo)

variable {World : Type} (serverTag : Text) (serverType : ServerType)
  (serverClass : Option ServerClass)

/-- The inner loop of `ExecuteOnMatchingQuerySelections`. -/
def executeOnQuerySelectionSpecs (queryId : Text)
    (executeFn : Text -> QuerySelectionSpec Query Rule -> World -> Status × World) :
    List (QuerySelectionSpec Query Rule) -> World -> Status × World
  | [], world => (.okStatus, world)
  | querySelectSpec :: rest, world =>
    if querySelectSpec.select.isEmpty then
      (.failedPrecondition
        (text "Both server tag and server type not specified for query: " ++ queryId), world)
    else
      match executeOnMatchingSelections serverTag serverType serverClass
        (executeFn queryId querySelectSpec) querySelectSpec.select world with
      | (status, after) =>
        if status.isOk then executeOnQuerySelectionSpecs queryId executeFn rest after
        else (status, after)

/-- `ExecuteOnMatchingQuerySelections`, for the entries in the order in which they are iterated. -/
def executeOnMatchingQuerySelections
    (executeFn : Text -> QuerySelectionSpec Query Rule -> World -> Status × World) :
    List (Text × List (QuerySelectionSpec Query Rule)) -> World -> Status × World
  | [], world => (.okStatus, world)
  | (queryId, selectSpec) :: rest, world =>
    match executeOnQuerySelectionSpecs serverTag serverType serverClass queryId executeFn
      selectSpec world with
    | (status, after) =>
      if status.isOk then executeOnMatchingQuerySelections executeFn rest after
      else (status, after)

abbrev SelectionSpecs (Query Rule : Type) := HashMap Text (List (QuerySelectionSpec Query Rule))

/-- `GetQuerySpec`, which returns the map by query id. -/
def getQuerySpec (order : IterationOrder (Text × List (QuerySelectionSpec Query Rule)))
    (selectionSpecs : SelectionSpecs Query Rule) :
    StatusOr (HashMap Text (QueryInfo Query Rule Duration)) :=
  match executeOnMatchingQuerySelections serverTag serverType serverClass
    (addToQuerySpec resources) (order.iterate selectionSpecs.entries) .empty with
  | (status, queryIdToInfo) => if status.isOk then .ok queryIdToInfo else .error status

end Ecclesia.Router
