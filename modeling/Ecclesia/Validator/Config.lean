import Ecclesia.Library.Assoc
import Ecclesia.Library.Bounded
import Ecclesia.Query.Join

namespace Ecclesia.Validator

open Query

/-!
# The configuration of the query result validator

The validator of query results keeps a table of all properties that can occur in a
result, under the path on which they occur.  The paths of a subquery are those of
the subqueries it is rooted in, prolonged by its own id.  They are built by a
recursion that climbs from a subquery to its roots, and that stops where paths have
been built before.  The definitions follow `query_result_validator.cc`; the order in
which the hash table of the subqueries is iterated is a parameter.
-/

section

variable {query : DelliciusQuery}

/-- A `SubqueryConfig`: the subquery at a position of the query. -/
abbrev SubqueryConfig (query : DelliciusQuery) := Fin query.subquery.length

namespace SubqueryConfig

def subquery (config : SubqueryConfig query) : Subquery := query.subquery.get config

def subqueryId (config : SubqueryConfig query) : Text := config.subquery.subqueryId

def rootSubqueryIds (config : SubqueryConfig query) : List Text := config.subquery.rootSubqueryIds

end SubqueryConfig

/-- The entry of `subquery_id_to_config` under an id: the subqueries with the id, in
the order of the query. -/
def configsWithId (query : DelliciusQuery) (id : Text) : List (SubqueryConfig query) :=
  (List.finRange query.subquery.length).filter fun config => config.subqueryId == id

/-- The keys of `subquery_id_to_config`. -/
def configIds (query : DelliciusQuery) : List Text :=
  (query.subquery.map Subquery.subqueryId).dedup

/-- The paths generated so far for every subquery, and the table of properties. -/
structure ConfigState (query : DelliciusQuery) where
  paths : SubqueryConfig query -> List Text
  propertyNameToConfigMap : List (Text × RedfishProperty)

def ConfigState.start (query : DelliciusQuery) : ConfigState query := ⟨fun _ => [], []⟩

/-- The name under which a property appears in a result. -/
def propertyName (property : RedfishProperty) : Text :=
  if property.name.isEmpty then property.property else property.name

/-- One round of the loop of `populate_property_map`. -/
def insertProperty (path : Text) (map : List (Text × RedfishProperty))
    (property : RedfishProperty) : Bounded Status (List (Text × RedfishProperty)) :=
  let key := path ++ text "/" ++ propertyName property
  if (map.lookup key).isSome then throw (.internal (text "Duplicate path: " ++ path))
  else pure ((key, property) :: map)

def populatePropertyMap (path : Text) (config : SubqueryConfig query)
    (state : ConfigState query) : Bounded Status (ConfigState query) := do
  let map <- config.subquery.properties.foldlM (insertProperty path) state.propertyNameToConfigMap
  pure ⟨Function.update state.paths config (state.paths config ++ [path]), map⟩

variable
  (traverse : SubqueryConfig query -> ConfigState query -> Bounded Status (ConfigState query))

/-- The paths of a root are generated if it has none. -/
def ensurePaths (rootConfig : SubqueryConfig query) (state : ConfigState query) :
    Bounded Status (ConfigState query) :=
  if (state.paths rootConfig).isEmpty then do
    let after <- traverse rootConfig state
    if (after.paths rootConfig).isEmpty then
      throw (.notFound (text "No paths were generated for " ++ rootConfig.subqueryId))
    else pure after
  else pure state

/-- The inner loop of `TraverseQueryConfig`: one root with an id. -/
def visitRootConfig (config : SubqueryConfig query) (state : ConfigState query)
    (rootConfig : SubqueryConfig query) : Bounded Status (ConfigState query) := do
  let ready <- ensurePaths traverse rootConfig state
  (ready.paths rootConfig).foldlM (fun state rootPath =>
      populatePropertyMap (rootPath ++ text "/" ++ config.subqueryId) config state) ready

/-- The outer loop of `TraverseQueryConfig`: one root id. -/
def visitRoot (config : SubqueryConfig query) (state : ConfigState query) (rootSubquery : Text) :
    Bounded Status (ConfigState query) :=
  if rootSubquery = config.subqueryId then
    throw (.internal (text "Cycle detected: " ++ rootSubquery))
  else if (configsWithId query rootSubquery).isEmpty then
    throw (.notFound (text "No subquery found for " ++ rootSubquery))
  else (configsWithId query rootSubquery).foldlM (visitRootConfig traverse config) state

/-- `TraverseQueryConfig`, with a bound on the depth of the recursion. -/
def traverseQueryConfig : Nat -> SubqueryConfig query -> ConfigState query ->
    Bounded Status (ConfigState query)
  | 0, _, _ => .exhausted
  | bound + 1, config, state =>
    if !(state.paths config).isEmpty then pure state
    else if config.rootSubqueryIds.isEmpty then
      populatePropertyMap (text "/" ++ config.subqueryId) config state
    else config.rootSubqueryIds.foldlM (visitRoot (traverseQueryConfig bound) config) state

end

variable (order : IterationOrder Text) (bound : Nat)

/-- The loop over all subqueries with an id. -/
def traverseConfigsWithId (query : DelliciusQuery) (state : ConfigState query) (id : Text) :
    Bounded Status (ConfigState query) :=
  (configsWithId query id).foldlM (fun state config => traverseQueryConfig bound config state) state

def buildQueryConfigMap (query : DelliciusQuery) :
    Bounded Status (List (Text × RedfishProperty)) := do
  let state <- (order.iterate (configIds query)).foldlM (traverseConfigsWithId bound query)
    (.start query)
  pure state.propertyNameToConfigMap

/-- `QueryResultValidator::Create`: the table of a validator. -/
def create (query : Option DelliciusQuery) : Bounded Status (List (Text × RedfishProperty)) :=
  match query with
  | none => throw (.invalidArgument (text "Query Configuration is Empty"))
  | some query =>
    if query.queryId.isEmpty then throw (.invalidArgument (text "Query ID is empty"))
    else buildQueryConfigMap order bound query

end Ecclesia.Validator
