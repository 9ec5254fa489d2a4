import Ecclesia.Planner.Run
import Ecclesia.Planner.Static

namespace Ecclesia.Planner

open Absl

/-!
# Queries against a service given by tables

A finite static service, and planners that query it, for concrete runs.
Objects and iterables are numbers, and every answer is looked up.  What is in
no table is not found.
-/

structure ServiceTable where
  root : RedfishVariant Nat Nat
  nodes : List ((Nat × Text) × RedfishVariant Nat Nat)
  members : List (Nat × List (RedfishVariant Nat Nat))
  contents : List (Nat × Json)

namespace ServiceTable

/-- The answer for a missing resource. -/
def absent : RedfishVariant Nat Nat :=
  .ofStatus (.notFound (text "no such resource"))

def interface (table : ServiceTable) : RedfishInterface Unit Nat Nat where
  getRoot _ _ := return table.root
  cachedGetUri _ _ := return absent

def views (table : ServiceTable) : RedfishViews Unit Nat Nat where
  get object name _ := return (table.nodes.lookup (object, name)).getD absent
  ensureFreshPayload object _ := return .ok (some object)
  getContentAsJson object := (table.contents.lookup object).getD .null
  size iterable := ((table.members.lookup iterable).getD []).length
  index iterable position :=
    return (((table.members.lookup iterable).getD [])[position]?).getD absent

def tree (table : ServiceTable) : ResourceTree Nat Nat where
  get object name _ := (table.nodes.lookup (object, name)).getD absent
  cachedGetUri _ _ := absent
  ensureFreshPayload object _ := .ok (some object)
  index iterable position := (((table.members.lookup iterable).getD [])[position]?).getD absent
  normalize object _ _ := .ok [(text "Number", .int object)]

end ServiceTable

/-- A collection: the object and the iterable of one number. -/
def collection (number : Nat) : RedfishVariant Nat Nat :=
  ⟨.okStatus, some number, some number, none, none⟩

/-- A subquery without properties of its own. -/
def plainSubquery (subqueryId : Text) (rootSubqueryIds : List Text) : Subquery :=
  ⟨subqueryId, rootSubqueryIds, [], [], none, .notSet, .unspecified, none⟩

/-- A planner whose normalizer reports the number of a resource; it is never cancelled. -/
def tablePlanner (table : ServiceTable) (subqueries : List Subquery) (trie : RedPathTrieNode)
    (mode : ExecutionMode) : QueryPlanner Unit Nat Nat where
  query := ⟨text "query", subqueries, none⟩
  normalizer object _ _ := return .ok [(text "Number", .int object)]
  additionalNormalizers := []
  redpathTrieRoot := trie
  redpathRules := ⟨[], []⟩
  redfishInterface := some table.interface
  views := table.views
  hasTimeoutManager := true
  executionMode := mode
  isQueryExecutionCancelled := return false
  now := return 0
  numbers := Predicates.integerLibrary
  substituteVariables predicate _ := .ok predicate
  buildFilterFromRedpathPredicateList _ := .ok []

lemma tablePlanner_isStatic (table : ServiceTable) (subqueries : List Subquery)
    (trie : RedPathTrieNode) (mode : ExecutionMode) :
    IsStatic (tablePlanner table subqueries trie mode) table.interface table.tree where
  get _ _ _ := .pure _
  cachedGetUri _ _ := .pure _
  ensureFreshPayload _ _ := .pure _
  index _ _ := .pure _
  normalize _ _ _ := .pure _
  notCancelled := .pure _

def pollingOptions : QueryExecutionOptions Unit Nat Nat :=
  ⟨[], false, false, .polling, [], none⟩

end Ecclesia.Planner
