import Ecclesia.Json.PathUtil
import Ecclesia.Library.Assoc
import Ecclesia.Library.Bounded
import Ecclesia.Library.Chain
import Ecclesia.Planner.Trie
import Ecclesia.Query.Proto

namespace Ecclesia.StepPlanner

open Absl Planner

/-!
# Subquery handles

The step-wise planner makes a handle for each subquery.  A handle has the steps of its
RedPath and points to the handles of the subqueries that name it as a root.  Handles are
made on demand, from a subquery up to its roots.

A handle is owned under the id of its subquery, and a pointer to it is this id.
-/

/-- `RedPathStep`: a node name and a predicate. -/
abbrev RedPathStep := Text × Text

/-- The characters of a node name in the regular expression of `query_planner.cc`. -/
def isStepNameCharacter (c : Char) : Bool :=
  asciiIsAlnum c || c == '.'

def kServiceRootNode : Text := text "/"

def stepOfExpression (redpath stepExpression : Text) : StatusOr RedPathStep :=
  let failed : Status := .invalidArgument
    (text "Cannot parse Step expression " ++ stepExpression ++ text " in RedPath " ++ redpath)
  match matchLocationStep isStepNameCharacter stepExpression with
  | none => .error failed
  | some (nodeName, predicate) => if nodeName.isEmpty then .error failed else .ok (nodeName, predicate)

/-- The service root has one step with nothing in it. -/
def redPathToSteps (redpath : Text) : StatusOr (List RedPathStep) :=
  if redpath = kServiceRootNode then .ok [([], [])]
  else ((strSplit '/' redpath).filter fun step => !step.isEmpty).mapM (stepOfExpression redpath)

/-- What a `SubqueryHandle` has when a query starts. -/
structure SubqueryHandle where
  subquery : Subquery
  nodes : List Text
  predicates : List Text
  childSubqueryHandles : List Text

namespace SubqueryHandle

def construct (subquery : Subquery) (redpathSteps : List RedPathStep) : SubqueryHandle where
  subquery := subquery
  nodes := redpathSteps.map Prod.fst
  predicates := redpathSteps.map Prod.snd
  childSubqueryHandles := []

def addChildSubqueryHandle (handle : SubqueryHandle) (child : Text) : SubqueryHandle :=
  { handle with childSubqueryHandles := handle.childSubqueryHandles ++ [child] }

def link (handle : SubqueryHandle) : Option Text -> SubqueryHandle
  | none => handle
  | some child => handle.addChildSubqueryHandle child

@[simp] lemma subquery_link (handle : SubqueryHandle) (child : Option Text) :
    (handle.link child).subquery = handle.subquery := by
  cases child with
  | none => rfl
  | some child => rfl

end SubqueryHandle

/-- `id_to_subquery_handle_` -/
abbrev HandleMap := HashMap Text SubqueryHandle

/-- `id_to_subquery_`, as the constructor fills it. -/
def idToSubquery (query : DelliciusQuery) : HashMap Text Subquery :=
  query.subquery.foldl (fun map subquery => map.assign subquery.subqueryId subquery) .empty

def newSubqueryHandle (subquery : Subquery) : StatusOr SubqueryHandle :=
  match subquery.resource with
  | .redpath redpath =>
    match redPathToSteps redpath with
    | .error status => .error status
    | .ok steps => .ok (.construct subquery steps)
  | _ => .ok (.construct subquery [])

/-- The chain is copied for every root, with the subqueries on the way from the first one. -/
def buildSubqueryHandleChain (subqueries : HashMap Text Subquery) :
    Nat -> Text -> HashSet Text -> Option Text -> HandleMap -> Bounded Status HandleMap
  | 0, _, _, _, _ => .exhausted
  | bound + 1, subqueryId, subqueryIdChain, childSubqueryHandle, handles =>
    match subqueries.lookup subqueryId with
    | none => throw (.internal (text "Cannot find a subquery for id: " ++ subqueryId))
    | some subquery =>
      if subqueryId ∈ subqueryIdChain.elements then
        throw (.internal (text "Loop detected in subquery links"))
      else
        match handles.lookup subqueryId with
        | some handle => pure (handles.assign subqueryId (handle.link childSubqueryHandle))
        | none =>
          match newSubqueryHandle subquery with
          | .error status => throw status
          | .ok handle =>
            subquery.rootSubqueryIds.foldlM (fun built rootSubqueryId =>
                buildSubqueryHandleChain subqueries bound rootSubqueryId
                  (subqueryIdChain.insert subqueryId) (some subqueryId) built)
              (handles.assign subqueryId (handle.link childSubqueryHandle))

def getSubqueryHandles (order : IterationOrder (Text × SubqueryHandle)) (bound : Nat)
    (query : DelliciusQuery) : Bounded Status (List SubqueryHandle) := do
  let handles <- query.subquery.foldlM
    (fun built subquery => buildSubqueryHandleChain (idToSubquery query) bound subquery.subqueryId
      ⟨[], List.nodup_nil⟩ none built)
    (.empty : HandleMap)
  let collection := (order.iterate handles.entries).map Prod.snd
  if collection.isEmpty then throw (.internal (text "No SubqueryHandle created"))
  else pure collection

open Absl

/-!
## Variables in predicates

The predicates of a RedPath are made concrete when a subquery starts.  A condition whose
variable has no value is taken out of its predicate.
-/

def kPredicateSelectAll : Text := text "*"

/-- The expressions that are kept; none if the last one has a variable and nothing was kept. -/
def keepPopulated : Bool -> List Text -> List Text -> Option (List Text)
  | _, newExpressions, [] => some newExpressions
  | true, newExpressions, _ :: rest => keepPopulated false newExpressions rest
  | false, newExpressions, expr :: rest =>
    if strContains expr (text "$") then
      if rest.isEmpty then
        -- The operator before the last expression goes with it.
        if newExpressions.isEmpty then none else some newExpressions.dropLast
      else keepPopulated true newExpressions rest
    else keepPopulated false (newExpressions ++ [expr]) rest

def invalidateUnpopulatedVariables (predicate : Text) : Text :=
  let expressions := PathUtil.splitExprByDelimiterWithEscape predicate ' ' '\\'
  if expressions.length = 1 then kPredicateSelectAll
  else
    match keepPopulated false [] expressions with
    | none => kPredicateSelectAll
    | some newExpressions => strJoin newExpressions (text " ")

/-- The replacements for the variables that have a name and a value.  Only the first value
counts. -/
def variableReplacements (queryVariables : QueryVariables) : List (Text × Text) :=
  queryVariables.filterMap fun entry =>
    match entry.1, entry.2 with
    | [], _ => none
    | _, [] => none
    | name, value :: _ => some (text "$" ++ name, value)

def substitutePredicate (queryVariables : QueryVariables) (predicate : Text) : Text :=
  let newPredicate := strReplaceAll predicate (variableReplacements queryVariables)
  if strContains newPredicate (text "$") then invalidateUnpopulatedVariables newPredicate
  else newPredicate

/-- `SubstituteVariables`: the steps that are still to be taken. -/
def SubqueryHandle.substituteVariables (handle : SubqueryHandle) (queryVariables : QueryVariables) :
    List RedPathStep :=
  handle.nodes.zip (handle.predicates.map (substitutePredicate queryVariables))

example : substitutePredicate [(text "Type", [text "Temperature"]), (text "Threshold", [text "50"])]
    (text "ReadingType=$Type and ReadingUnits=$Units and Reading>$Threshold") =
    text "ReadingType=Temperature and Reading>50" := by
  decide

end Ecclesia.StepPlanner
