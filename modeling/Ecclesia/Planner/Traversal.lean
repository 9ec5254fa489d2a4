import Ecclesia.Planner.Run
import Ecclesia.Planner.Static

namespace Ecclesia.Planner

open Absl

/-!
# The ideal traversal

What a traversal is for can be said without errors, fetches and states of the
world: at every place an expression selects some responses, a response yields
a value for the subquery that ends there, and the values are stored in the
order of a breadth first search.  The ideal traversal does just this, for any
selection.  The main result is that `Run` refines it wherever its answers and
values match.
-/

variable {World Object Iterable : Type}

/-- Store the value of a subquery, if there is one, and remember its location. -/
def recordValue (query : DelliciusQuery) (subqueryId : Text) (value : Option QueryValue)
    (results : List (Text × Location)) (data : QueryResultData) :
    QueryResultData × List (Text × Location) :=
  match value with
  | none => (data, results)
  | some built =>
    let stored := storeQueryValue query subqueryId built results data
    (stored.1, (subqueryId, stored.2) :: results)

section

def treeValue (planner : QueryPlanner World Object Iterable)
    (tree : ResourceTree Object Iterable) (urlAnnotationEnabled : Bool) (subqueryId : Text)
    (place : Place Object Iterable) : StatusOr (Option QueryValue) :=
  match findSubquery planner.query subqueryId with
  | none => .error (.notFound (text "Subquery for subquery id " ++ subqueryId ++
      text " not found in query execution context."))
  | some subquery =>
    match rawValueFor subquery place.redfishResponse with
    | some value => .ok (some value)
    | none =>
      match place.redfishResponse.redfishObject with
      | none => .error (.internal (text "Redfish object is null in query execution context: " ++
          place.lastRedpathPrefix))
      | some object =>
        match tree.normalize object subquery urlAnnotationEnabled with
        | .ok fields => .ok (some (.subquery fields))
        | .error status =>
          if status.code ≠ .notFound then .error status
          else if !subquery.properties.isEmpty ||
              !isRootSubquery planner.query subqueryId then .ok none
          else .ok (some (.subquery []))

variable {planner : QueryPlanner World Object Iterable} {tree : ResourceTree Object Iterable}
  {interface : RedfishInterface World Object Iterable}

/-- The value that is built, without the properties that are collected. -/
def BuiltValue.values (built : StatusOr (Option BuiltValue)) : StatusOr (Option QueryValue) :=
  built.map fun value => value.map Prod.fst

lemma IsStatic.buildQueryValue_values (static : IsStatic planner interface tree)
    {subqueryId : Text} {subquery : Subquery}
    (known : findSubquery planner.query subqueryId = some subquery)
    (given : Option (RedfishInterface World Object Iterable))
    (context : QueryExecutionContext Object Iterable) (urlAnnotationEnabled : Bool)
    (world : World) :
    BuiltValue.values (buildQueryValue planner subquery subqueryId given context
        urlAnnotationEnabled world).1 =
      treeValue planner tree urlAnnotationEnabled subqueryId context.place := by
  unfold buildQueryValue treeValue
  simp only [known, QueryExecutionContext.place]
  cases rawValueFor subquery context.redfishResponse with
  | some value => rfl
  | none =>
    cases context.redfishResponse.redfishObject with
    | none => rfl
    | some object =>
      have answered := (static.normalize object subquery urlAnnotationEnabled world).1
      rcases ran : planner.normalizer object subquery urlAnnotationEnabled world with
        ⟨answer, after⟩
      rw [ran] at answered
      simp only [buildObjectValue, bind, StateT.bind, ran]
      rw [<- answered]
      cases answer with
      | ok fields => rfl
      | error status =>
        simp only
        by_cases other : status.code ≠ .notFound
        · rw [if_pos other, if_pos other]
          rfl
        · rw [if_neg other, if_neg other]
          by_cases empty : (!subquery.properties.isEmpty ||
              !isRootSubquery planner.query subqueryId) = true
          · rw [if_pos empty, if_pos empty]
            rfl
          · rw [if_neg empty, if_neg empty]
            rfl

/-- `TryNormalize` in a static tree stores the value, and changes nothing else that is observed. -/
lemma IsStatic.tryNormalize_stores (static : IsStatic planner interface tree)
    {urlAnnotationEnabled : Bool} {subqueryId : Text}
    {context : QueryExecutionContext Object Iterable} {value : Option QueryValue}
    (built : treeValue planner tree urlAnnotationEnabled subqueryId context.place = .ok value)
    (given : Option (RedfishInterface World Object Iterable)) (result : QueryResult)
    (world : World) :
    let tried := (tryNormalize planner subqueryId given context urlAnnotationEnabled result world).1
    let stored := recordValue planner.query subqueryId value context.subqueryIdToSubqueryResult
      result.data
    tried.1.isOk = true ∧ tried.2.1.data = stored.1 ∧ tried.2.1.status = result.status ∧
      tried.2.1.queryId = result.queryId ∧
      tried.2.2 = { context with subqueryIdToSubqueryResult := stored.2 } := by
  cases known : findSubquery planner.query subqueryId with
  | none =>
    rw [treeValue, known] at built
    cases built
  | some subquery =>
    have values := static.buildQueryValue_values known given context urlAnnotationEnabled world
    rw [built] at values
    unfold tryNormalize
    simp only [known, bind, StateT.bind]
    cases answer : (buildQueryValue planner subquery subqueryId given context
        urlAnnotationEnabled world).1 with
    | error status =>
      rw [answer] at values
      cases values
    | ok found =>
      rw [answer] at values
      rw [show buildQueryValue planner subquery subqueryId given context
          urlAnnotationEnabled world = (.ok found, (buildQueryValue planner subquery
            subqueryId given context urlAnnotationEnabled world).2) from
        Prod.ext answer rfl]
      cases found with
      | none =>
        cases values
        exact ⟨rfl, rfl, rfl, rfl, rfl⟩
      | some pair =>
        rcases pair with ⟨queryValue, collected⟩
        cases values
        exact ⟨rfl, rfl, rfl, rfl, rfl⟩

end

/-- What an expression selects at a place, and which value a place yields for a subquery. -/
structure Ideal (Object Iterable : Type) where
  query : DelliciusQuery
  select : Place Object Iterable -> RedPathExpression -> List (RedfishResponse Object Iterable)
  value : Text -> Place Object Iterable -> Option QueryValue

/-- What is observed of a traversal: the data of the result, and the normalised pairs. -/
structure Observed (Object Iterable : Type) where
  data : QueryResultData
  normalized : List (Text × RedfishResponse Object Iterable)

def RunState.observed (state : RunState World Object Iterable) : Observed Object Iterable :=
  ⟨state.result.data, state.normalized⟩

def QueryExecutionContext.contextsFor (context : QueryExecutionContext Object Iterable)
    (expression : RedPathExpression) (responses : List (RedfishResponse Object Iterable)) :
    List (QueryExecutionContext Object Iterable) :=
  responses.map (context.fromExisting (addExpressionToRedPath context.lastRedpathPrefix expression))

namespace Ideal

variable (ideal : Ideal Object Iterable)

variable (trieNode : RedPathTrieNode) (context : QueryExecutionContext Object Iterable)
  (seen : Observed Object Iterable)

/-- Normalise one context and hand it to a trie node. -/
def normalize : Observed Object Iterable × QueryExecutionContext Object Iterable :=
  if trieNode.subqueryId.isEmpty then (seen, { context with redpathTrieNode := trieNode })
  else
    let stored := recordValue ideal.query trieNode.subqueryId
      (ideal.value trieNode.subqueryId context.place) context.subqueryIdToSubqueryResult seen.data
    (⟨stored.1, seen.normalized ++ [(trieNode.subqueryId, context.redfishResponse)]⟩,
      { context with subqueryIdToSubqueryResult := stored.2, redpathTrieNode := trieNode })

def normalizeAll (trieNode : RedPathTrieNode) :
    List (QueryExecutionContext Object Iterable) -> Observed Object Iterable ->
      Observed Object Iterable × List (QueryExecutionContext Object Iterable)
  | [], seen => (seen, [])
  | context :: rest, seen =>
    let first := ideal.normalize trieNode context seen
    let others := normalizeAll trieNode rest first.1
    (others.1, first.2 :: others.2)

def follow (context : QueryExecutionContext Object Iterable) (expression : RedPathExpression) :
    Except Empty (Observed Object Iterable × QueryExecutionContext Object Iterable ×
      List (QueryExecutionContext Object Iterable)) :=
  let normalized := ideal.normalizeAll expression.trieNode
    (context.contextsFor expression (ideal.select context.place expression)) seen
  .ok (normalized.1, context, normalized.2)

lemma normalize_trieNode :
    (ideal.normalize trieNode context seen).2.redpathTrieNode = trieNode := by
  unfold normalize
  split_ifs
  · rfl
  · rfl

lemma normalize_place : (ideal.normalize trieNode context seen).2.place = context.place := by
  unfold normalize
  split_ifs
  · rfl
  · rfl

lemma normalize_uris :
    (ideal.normalize trieNode context seen).2.urisToSubscribe = context.urisToSubscribe := by
  unfold normalize
  split_ifs
  · rfl
  · rfl

lemma normalizeAll_member {trieNode : RedPathTrieNode}
    {contexts : List (QueryExecutionContext Object Iterable)} {seen : Observed Object Iterable}
    {next : QueryExecutionContext Object Iterable}
    (member : next ∈ (ideal.normalizeAll trieNode contexts seen).2) :
    next.redpathTrieNode = trieNode ∧ ∃ context ∈ contexts,
      next.place = context.place ∧ next.urisToSubscribe = context.urisToSubscribe := by
  induction contexts generalizing seen with
  | nil => exact nomatch member
  | cons context rest ih =>
    rcases List.mem_cons.mp member with rfl | member
    · exact ⟨ideal.normalize_trieNode _ _ _, context, .head _,
        ideal.normalize_place _ _ _, ideal.normalize_uris _ _ _⟩
    · rcases ih member with ⟨atNode, source, listed, samePlace⟩
      exact ⟨atNode, source, .tail _ listed, samePlace⟩

lemma follow_member {seen after : Observed Object Iterable}
    {context changed next : QueryExecutionContext Object Iterable}
    {expression : RedPathExpression} {found : List (QueryExecutionContext Object Iterable)}
    (followed : ideal.follow seen context expression = .ok (after, changed, found))
    (member : next ∈ found) :
    next.redpathTrieNode = expression.trieNode ∧ next.urisToSubscribe = [] ∧
      ∃ response ∈ ideal.select context.place expression,
        next.place = context.place.next expression response := by
  cases followed
  rcases ideal.normalizeAll_member member with ⟨atNode, source, listed, samePlace, sameUris⟩
  rcases List.mem_map.mp listed with ⟨response, selected, rfl⟩
  exact ⟨atNode, sameUris, response, selected, samePlace⟩

/-- The ideal traversal as a breadth first search. -/
def search : Search (Observed Object Iterable) (QueryExecutionContext Object Iterable)
    RedPathExpression Empty where
  edges context := context.redpathTrieNode.childExpressions
  follow := ideal.follow
  rank context := context.redpathTrieNode.rank
  weight := RedPathExpression.weight
  weight_lt := QueryExecutionContext.weight_lt_rank
  rank_lt _ _ expression _ _ _ followed next member := by
    rw [(ideal.follow_member followed member).1]
    exact expression.rank_lt_weight

/-- The whole ideal traversal, from a trie node and the response it belongs to. -/
def run (node : RedPathTrieNode) (response : RedfishResponse Object Iterable) :
    Except Empty (Observed Object Iterable) :=
  let started := ideal.normalize node (.start node response) ⟨[], []⟩
  ideal.search.run started.1 started.2

end Ideal

/-- The trie nodes and places that a traversal with the given selection comes
to. -/
inductive Comes
    (select : Place Object Iterable -> RedPathExpression -> List (RedfishResponse Object Iterable))
    (root : RedPathTrieNode) (start : Place Object Iterable) :
    RedPathTrieNode -> Place Object Iterable -> Prop where
  | start : Comes select root start root start
  | step {node : RedPathTrieNode} {place : Place Object Iterable}
      {expression : RedPathExpression} {response : RedfishResponse Object Iterable}
      (came : Comes select root start node place)
      (member : expression ∈ node.childExpressions)
      (selected : response ∈ select place expression) :
      Comes select root start expression.trieNode (place.next expression response)

end Ecclesia.Planner
