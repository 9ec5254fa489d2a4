import Mathlib.Tactic.IntervalCases
import Ecclesia.Planner.Refinement
import Ecclesia.Planner.Selection
import Ecclesia.Planner.Table

namespace Ecclesia.Planner

open Absl List

/-!
# The resources a run visits

A subquery ends at a node of the trie, and the expressions on the way to that
node are its path.  Evaluating a path step by step from the service root gives
the resources of the subquery.  A run evaluates all paths at once, with shared
prefixes and one queue for all of them; the main result is that it visits
exactly the same resources, in whatever order it takes the expressions.
-/

variable {Object Iterable : Type}

mutual

/-- The ends of subqueries in a trie, each with the path that leads there. -/
def RedPathTrieNode.ends : RedPathTrieNode -> List (List RedPathExpression × Text)
  | .mk subqueryId children =>
    (if subqueryId.isEmpty then [] else [([], subqueryId)]) ++ endsBelow children

def RedPathExpression.ends : RedPathExpression -> List (List RedPathExpression × Text)
  | .mk type content node =>
    node.ends.map fun place => (.mk type content node :: place.1, place.2)

def endsBelow : List RedPathExpression -> List (List RedPathExpression × Text)
  | [] => []
  | expression :: rest => expression.ends ++ endsBelow rest

end

section

variable (select : Place Object Iterable -> RedPathExpression -> List (RedfishResponse Object Iterable))

def evaluatePath (place : Place Object Iterable) :
    List RedPathExpression -> List (Place Object Iterable)
  | [] => [place]
  | expression :: path =>
    (select place expression).flatMap fun response =>
      evaluatePath (place.next expression response) path

variable (place : Place Object Iterable)

/-- The pairs of subquery ids and resources that paths lead to. -/
def visits (ends : List (List RedPathExpression × Text)) :
    List (Text × RedfishResponse Object Iterable) :=
  ends.flatMap fun ending =>
    (evaluatePath select place ending.1).map fun reached => (ending.2, reached.redfishResponse)

/-- The pair of a node at a place itself. -/
def RedPathTrieNode.ownVisit (node : RedPathTrieNode) (place : Place Object Iterable) :
    List (Text × RedfishResponse Object Iterable) :=
  if node.subqueryId.isEmpty then [] else [(node.subqueryId, place.redfishResponse)]

/-- The pairs behind an expression. -/
def visitsBehind (expression : RedPathExpression) :
    List (Text × RedfishResponse Object Iterable) :=
  (select place expression).flatMap fun response =>
    visits select (place.next expression response) expression.trieNode.ends

/-- Two loops may be exchanged. -/
lemma flatMap_flatMap_perm {First Second Piece : Type} (first : List First)
    (second : List Second) (pieces : First -> Second -> List Piece) :
    (first.flatMap fun one => second.flatMap (pieces one)).Perm
      (second.flatMap fun two => first.flatMap fun one => pieces one two) := by
  apply Multiset.coe_eq_coe.mp
  simp only [<- Multiset.coe_bind]
  exact Multiset.bind_bind _ _

lemma visits_append (first second : List (List RedPathExpression × Text)) :
    visits select place (first ++ second) =
      visits select place first ++ visits select place second :=
  flatMap_append

lemma visits_expression (expression : RedPathExpression) :
    (visits select place expression.ends).Perm (visitsBehind select place expression) := by
  cases expression with
  | mk type content node =>
    unfold visits visitsBehind
    rw [RedPathExpression.ends, flatMap_map]
    simp only [evaluatePath, map_flatMap]
    exact flatMap_flatMap_perm _ _ _

lemma visits_endsBelow (children : List RedPathExpression) :
    (visits select place (endsBelow children)).Perm
      (children.flatMap (visitsBehind select place)) := by
  induction children with
  | nil => exact .refl _
  | cons expression rest ih =>
    rw [endsBelow, visits_append]
    exact (visits_expression select place expression).append ih

lemma visits_node (node : RedPathTrieNode) :
    (visits select place node.ends).Perm
      (node.ownVisit place ++ node.childExpressions.flatMap (visitsBehind select place)) := by
  cases node with
  | mk subqueryId children =>
    rw [RedPathTrieNode.ends, visits_append]
    refine .append ?_ (visits_endsBelow select place children)
    cases subqueryId with
    | nil => exact .refl _
    | cons character rest => exact .refl _

end

mutual

/-- The same trie, with the expressions of its nodes in another order. -/
inductive RedPathTrieNode.Reordered : RedPathTrieNode -> RedPathTrieNode -> Prop where
  | mk {subqueryId : Text} {children others : List RedPathExpression}
      (siblings : SiblingsReordered children others) :
      RedPathTrieNode.Reordered (.mk subqueryId children) (.mk subqueryId others)

inductive RedPathExpression.Reordered : RedPathExpression -> RedPathExpression -> Prop where
  | mk {type : ExpressionType} {content : Text} {node other : RedPathTrieNode}
      (reordered : RedPathTrieNode.Reordered node other) :
      RedPathExpression.Reordered (.mk type content node) (.mk type content other)

inductive SiblingsReordered : List RedPathExpression -> List RedPathExpression -> Prop where
  | nil : SiblingsReordered [] []
  | cons {first second : RedPathExpression} {rest others : List RedPathExpression}
      (reordered : RedPathExpression.Reordered first second)
      (siblings : SiblingsReordered rest others) :
      SiblingsReordered (first :: rest) (second :: others)
  | swap (first second : RedPathExpression) (rest : List RedPathExpression) :
      SiblingsReordered (first :: second :: rest) (second :: first :: rest)
  | trans {first second third : List RedPathExpression}
      (before : SiblingsReordered first second) (after : SiblingsReordered second third) :
      SiblingsReordered first third

end

section

variable {select : Place Object Iterable -> RedPathExpression -> List (RedfishResponse Object Iterable)}

/-- What an expression selects does not depend on the order of the expressions
behind it. -/
def OrderFree
    (select : Place Object Iterable -> RedPathExpression ->
      List (RedfishResponse Object Iterable)) : Prop :=
  ∀ place first second, RedPathExpression.Reordered first second ->
    select place first = select place second

mutual

theorem RedPathTrieNode.Reordered.visits_perm {node other : RedPathTrieNode}
    (free : OrderFree select) (place : Place Object Iterable) :
    node.Reordered other -> (visits select place node.ends).Perm (visits select place other.ends)
  | .mk siblings => by
    rw [RedPathTrieNode.ends, RedPathTrieNode.ends, visits_append, visits_append]
    exact List.Perm.append_left _ (siblings.visits_perm free place)

theorem RedPathExpression.Reordered.visits_perm {expression other : RedPathExpression}
    (free : OrderFree select) (place : Place Object Iterable) :
    expression.Reordered other ->
      (visits select place expression.ends).Perm (visits select place other.ends)
  | .mk reordered => by
    refine (visits_expression select place _).trans
      (.trans ?_ (visits_expression select place _).symm)
    unfold visitsBehind
    rw [free place _ _ (.mk reordered)]
    apply List.Perm.flatMap_left _
    intro response _
    exact reordered.visits_perm free _

theorem SiblingsReordered.visits_perm {children others : List RedPathExpression}
    (free : OrderFree select) (place : Place Object Iterable) :
    SiblingsReordered children others ->
      (visits select place (endsBelow children)).Perm (visits select place (endsBelow others))
  | .nil => .refl _
  | .cons reordered siblings => by
    rw [endsBelow, endsBelow, visits_append, visits_append]
    exact (reordered.visits_perm free place).append (siblings.visits_perm free place)
  | .swap first second rest => by
    simp only [endsBelow, visits_append, <- append_assoc]
    exact perm_append_comm.append_right _
  | .trans before after =>
    (before.visits_perm free place).trans (after.visits_perm free place)

end

end

namespace Ideal

variable (ideal : Ideal Object Iterable)

lemma normalize_normalized (trieNode : RedPathTrieNode)
    (context : QueryExecutionContext Object Iterable) (seen : Observed Object Iterable) :
    (ideal.normalize trieNode context seen).1.normalized =
      seen.normalized ++ trieNode.ownVisit context.place := by
  unfold normalize RedPathTrieNode.ownVisit
  by_cases unnamed : trieNode.subqueryId.isEmpty
  · rw [if_pos unnamed, if_pos unnamed, append_nil]
  · rw [if_neg unnamed, if_neg unnamed]
    rfl

lemma normalizeAll_normalized (trieNode : RedPathTrieNode)
    (contexts : List (QueryExecutionContext Object Iterable)) (seen : Observed Object Iterable) :
    (ideal.normalizeAll trieNode contexts seen).1.normalized =
      seen.normalized ++ contexts.flatMap fun context => trieNode.ownVisit context.place := by
  induction contexts generalizing seen with
  | nil => exact (append_nil _).symm
  | cons context rest ih =>
    rw [normalizeAll, ih, normalize_normalized, flatMap_cons, append_assoc]

lemma normalizeAll_flatMap {Piece : Type}
    (pieces : RedPathTrieNode -> Place Object Iterable -> List Piece) (trieNode : RedPathTrieNode)
    (contexts : List (QueryExecutionContext Object Iterable)) (seen : Observed Object Iterable) :
    ((ideal.normalizeAll trieNode contexts seen).2.flatMap fun next =>
        pieces next.redpathTrieNode next.place) =
      contexts.flatMap fun context => pieces trieNode context.place := by
  induction contexts generalizing seen with
  | nil => rfl
  | cons context rest ih =>
    rw [normalizeAll, flatMap_cons, flatMap_cons, normalize_trieNode, normalize_place, ih]

lemma follow_pays (seen : Observed Object Iterable)
    (context : QueryExecutionContext Object Iterable) (expression : RedPathExpression) :
    ∃ after found, ideal.follow seen context expression = .ok (after, context, found) ∧
      (after.normalized ++ found.flatMap fun next =>
        next.redpathTrieNode.childExpressions.flatMap (visitsBehind ideal.select next.place)).Perm
        (seen.normalized ++ visitsBehind ideal.select context.place expression) := by
  refine ⟨_, _, rfl, ?_⟩
  rw [normalizeAll_normalized, append_assoc]
  apply List.Perm.append_left _
  rw [ideal.normalizeAll_flatMap fun node place =>
    node.childExpressions.flatMap (visitsBehind ideal.select place)]
  apply (flatMap_append_perm _ _ _).trans
  unfold QueryExecutionContext.contextsFor visitsBehind
  rw [flatMap_map]
  apply List.Perm.flatMap_left _
  intro response _
  exact (visits_node ideal.select _ expression.trieNode).symm

lemma run_normalized (node : RedPathTrieNode) (response : RedfishResponse Object Iterable) :
    ∃ seen, ideal.run node response = .ok seen ∧
      seen.normalized.Perm (visits ideal.select ⟨[], response⟩ node.ends) := by
  rcases ideal.search.explore_collects Observed.normalized
    (fun context => visitsBehind ideal.select context.place) (fun _ => True)
    (fun seen context expression _ => by
      rcases ideal.follow_pays seen context expression with ⟨after, found, followed, paid⟩
      exact ⟨after, context, found, followed, trivial, rfl, fun _ _ => trivial, paid⟩)
    trivial (fun _ _ => trivial) with ⟨final, explored, collects⟩
  refine ⟨final, explored, collects.trans ?_⟩
  rw [flatMap_nil, append_nil, normalize_normalized]
  change (node.ownVisit _ ++ (ideal.normalize node _ _).2.redpathTrieNode.childExpressions.flatMap
    (visitsBehind ideal.select (ideal.normalize node _ _).2.place)).Perm _
  rw [normalize_trieNode, normalize_place]
  exact (visits_node ideal.select _ node).symm

end Ideal

section

variable {World Object Iterable : Type}

/-- The value that a place yields for a subquery, if it can be built. -/
def valueAt (planner : QueryPlanner World Object Iterable) (tree : ResourceTree Object Iterable)
    (urlAnnotationEnabled : Bool) (subqueryId : Text) (place : Place Object Iterable) :
    Option QueryValue :=
  match treeValue planner tree urlAnnotationEnabled subqueryId place with
  | .ok value => value
  | .error _ => none

def rootPlace (root : Object) : Place Object Iterable :=
  ⟨[], .ofObject (some root)⟩

variable {planner : QueryPlanner World Object Iterable} {tree : ResourceTree Object Iterable}

/-- A value is built or left out, but its normalisation does not fail. -/
def Normalises (planner : QueryPlanner World Object Iterable)
    (tree : ResourceTree Object Iterable) (urlAnnotationEnabled : Bool) (node : RedPathTrieNode)
    (place : Place Object Iterable) : Prop :=
  node.subqueryId ≠ [] -> ∃ value,
    treeValue planner tree urlAnnotationEnabled node.subqueryId place = .ok value

lemma Normalises.valueAt {urlAnnotationEnabled : Bool} {node : RedPathTrieNode}
    {place : Place Object Iterable}
    (normalises : Normalises planner tree urlAnnotationEnabled node place)
    (named : node.subqueryId ≠ []) :
    treeValue planner tree urlAnnotationEnabled node.subqueryId place =
      .ok (Planner.valueAt planner tree urlAnnotationEnabled node.subqueryId place) := by
  rcases normalises named with ⟨value, built⟩
  rw [Planner.valueAt, built]

/-- The traversal in which every expression selects what is available. -/
def availableIdeal (planner : QueryPlanner World Object Iterable)
    (tree : ResourceTree Object Iterable)
    (options : QueryExecutionOptions World Object Iterable) : Ideal Object Iterable where
  query := planner.query
  select := available planner tree options.queryVariables
  value := valueAt planner tree options.urlAnnotationEnabled

/-- The trie nodes and places that a run from this root comes to, if it follows
what is available. -/
def ComesFrom (planner : QueryPlanner World Object Iterable) (tree : ResourceTree Object Iterable)
    (options : QueryExecutionOptions World Object Iterable) (root : Object) :
    RedPathTrieNode -> Place Object Iterable -> Prop :=
  Comes (available planner tree options.queryVariables) planner.redpathTrieRoot (rootPlace root)

variable {interface : RedfishInterface World Object Iterable}
  {options : QueryExecutionOptions World Object Iterable}

lemma ErrorFreeAt.matches_available {place : Place Object Iterable} {expression : RedPathExpression}
    (errorFree : ErrorFreeAt planner tree options.queryVariables place expression)
    (normalises : ∀ response ∈ available planner tree options.queryVariables place expression,
      Normalises planner tree options.urlAnnotationEnabled expression.trieNode
        (place.next expression response)) :
    Matches planner tree options.queryVariables options.urlAnnotationEnabled
      (availableIdeal planner tree options) place expression := by
  constructor
  · rcases errorFree.answer with answered | ⟨nothing, status, answered, missing⟩
    · exact .inl answered
    · exact .inr ⟨nothing, status, answered, .inl missing⟩
  · intro response selected named
    exact (normalises response selected).valueAt named

section

variable (static : IsStatic planner interface tree) (polling : options.queryType = .polling)
  (local_ : localInterface planner options = some interface)
  {timeoutManager timing : Option QueryTimeoutManager} {world : World} {root : Object}
  (gets : GetsRoot planner options timeoutManager world timing root)
  (errorFree : ∀ node place expression, ComesFrom planner tree options root node place ->
    expression ∈ node.childExpressions ->
      ErrorFreeAt planner tree options.queryVariables place expression)
  (normalises : ∀ node place, ComesFrom planner tree options root node place ->
    Normalises planner tree options.urlAnnotationEnabled node place)

include static polling local_ gets errorFree normalises

lemma IsStatic.run_available :
    ∃ final, RunEndsIn planner options timeoutManager world timing root final ∧
      (availableIdeal planner tree options).run planner.redpathTrieRoot
        (.ofObject (some root)) = .ok final.observed := by
  have sameQuery : (availableIdeal planner tree options).query = planner.query := rfl
  rcases static.traverses_refines polling local_ sameQuery
    (fun named => (normalises _ _ .start).valueAt named)
    (fun node place expression comes member =>
      (errorFree node place expression comes member).matches_available fun response selected =>
        normalises _ _ (.step comes member selected))
    (fun impossible : False => impossible.elim)
    (worldAtRoot planner options timeoutManager world) with ⟨final, traverses, ideally, -⟩
  exact ⟨final, gets.runEndsIn planner options traverses, ideally⟩

/-- For every trie, in every order of the expressions of its nodes, and every static tree in which
nothing goes wrong: a polling run normalises exactly the pairs that the paths of the trie lead to,
each as often as its path does, and in any other order the same if the answers do not depend on it.
-/
theorem IsStatic.run_visits :
    ∃ final, RunEndsIn planner options timeoutManager world timing root final ∧
      final.normalized.Perm (visits (available planner tree options.queryVariables)
        (rootPlace root) planner.redpathTrieRoot.ends) ∧
      ∀ other, planner.redpathTrieRoot.Reordered other ->
        OrderFree (available planner tree options.queryVariables) ->
        final.normalized.Perm (visits (available planner tree options.queryVariables)
          (rootPlace root) other.ends) := by
  rcases static.run_available polling local_ gets errorFree normalises with ⟨final, ends, ideally⟩
  rcases (availableIdeal planner tree options).run_normalized planner.redpathTrieRoot
    (.ofObject (some root)) with ⟨seen, same, collects⟩
  rw [ideally] at same
  cases same
  refine ⟨final, ends, collects, ?_⟩
  intro other reordered free
  exact collects.trans (reordered.visits_perm free _)

end

/-- Without `$filter` parameters the answers do not depend on the order. -/
lemma available_orderFree
    (noFilter : ∀ redpath, (getQueryParamsForRedPath planner redpath).filter = none)
    (queryVariables : QueryVariables) : OrderFree (available planner tree queryVariables) := by
  intro place first second reordered
  cases reordered with
  | @mk type content node other reordered =>
    have unfiltered : ∀ trieNode : RedPathTrieNode,
        paramsWithFilter planner (paramsAt planner place (.mk type content trieNode))
            (.mk type content trieNode) queryVariables =
          paramsAt planner place (.mk type content trieNode) := by
      intro trieNode
      unfold paramsWithFilter
      rw [show (paramsAt planner place (.mk type content trieNode)).filter = none from noFilter _]
    have answers : ∀ object,
        objectAnswer planner tree queryVariables place (.mk type content node) object =
          objectAnswer planner tree queryVariables place (.mk type content other) object := by
      intro object
      simp only [objectAnswer, unfiltered]
      rfl
    unfold available
    simp only [answers]
    rfl

end

/-- The members of the chassis collection, as a subquery of its own. -/
def everyMember : RedPathExpression :=
  .mk .predicate (text "*") (.mk (text "chassis") [])

def chassisNode : RedPathExpression :=
  .mk .nodeName (text "Chassis") (.mk [] [everyMember])

/-- A node that the service does not have. -/
def systemsNode : RedPathExpression :=
  .mk .nodeName (text "Systems") (.mk (text "systems") [])

def chassisTable : ServiceTable where
  root := .ofObject 0
  nodes := [((0, text "Chassis"), collection 1)]
  members := [(1, [.ofObject 2, .ofObject 3])]
  contents := []

def chassisPlanner : QueryPlanner Unit Nat Nat :=
  tablePlanner chassisTable [plainSubquery (text "chassis") [], plainSubquery (text "systems") []]
    (.mk [] [systemsNode, chassisNode]) .failOnFirstError

variable {node : RedPathTrieNode} {place : Place Nat Nat}

lemma chassisPlanner_comes
    (comes : ComesFrom chassisPlanner chassisTable.tree pollingOptions 0 node place) :
    (node = chassisPlanner.redpathTrieRoot ∧ place = rootPlace 0) ∨
      (node = chassisNode.trieNode ∧ place = ⟨text "/Chassis", ⟨some 1, some 1, none⟩⟩) ∨
      (node = everyMember.trieNode ∧
        ∃ object, place.redfishResponse = .ofObject (some object)) := by
  induction comes with
  | start => exact .inl ⟨rfl, rfl⟩
  | step came member selected ih =>
    rcases ih with ⟨rfl, rfl⟩ | ⟨rfl, rfl⟩ | ⟨rfl, -⟩
    · rcases mem_pair.mp member with rfl | rfl
      · exact nomatch selected
      · cases mem_singleton.mp selected
        exact .inr (.inl ⟨rfl, rfl⟩)
    · cases mem_singleton.mp member
      refine .inr (.inr ⟨rfl, ?_⟩)
      rcases mem_pair.mp selected with rfl | rfl
      · exact ⟨2, rfl⟩
      · exact ⟨3, rfl⟩
    · exact nomatch member

lemma chassisPlanner_errorFree {expression : RedPathExpression}
    (comes : ComesFrom chassisPlanner chassisTable.tree pollingOptions 0 node place)
    (member : expression ∈ node.childExpressions) :
    ErrorFreeAt chassisPlanner chassisTable.tree [] place expression := by
  rcases chassisPlanner_comes comes with ⟨rfl, rfl⟩ | ⟨rfl, rfl⟩ | ⟨rfl, -⟩
  · rcases mem_pair.mp member with rfl | rfl
    · refine ⟨nofun, ?_⟩
      rintro object failure - shown answered
      cases shown
      cases answered
      exact ⟨_, rfl, rfl⟩
    · refine ⟨nofun, ?_⟩
      rintro object failure - shown answered
      cases shown
      cases answered
  · cases mem_singleton.mp member
    refine ⟨?_, nofun⟩
    intro iterable same
    cases same
    refine ⟨text "*", rfl, ?_⟩
    intro nodeIndex inside
    change nodeIndex < 2 at inside
    interval_cases nodeIndex
    · exact trivial
    · exact trivial
  · exact nomatch member

lemma chassisPlanner_normalises
    (comes : ComesFrom chassisPlanner chassisTable.tree pollingOptions 0 node place) :
    Normalises chassisPlanner chassisTable.tree false node place := by
  intro named
  rcases chassisPlanner_comes comes with ⟨rfl, rfl⟩ | ⟨rfl, rfl⟩ | ⟨rfl, object, shown⟩
  · exact absurd rfl named
  · exact absurd rfl named
  · refine ⟨some (.subquery [(text "Number", .int object)]), ?_⟩
    rw [treeValue, shown]
    rfl

/-- Both members of the collection are visited once each, in either order of the nodes. -/
theorem run_visits_chassisPlanner :
    ∃ final, RunEndsIn chassisPlanner pollingOptions none () none 0 final ∧
      final.normalized.Perm [(text "chassis", .ofObject (some 2)),
        (text "chassis", .ofObject (some 3))] ∧
      final.normalized.Perm (visits (available chassisPlanner chassisTable.tree [])
        (rootPlace 0) (RedPathTrieNode.mk [] [chassisNode, systemsNode]).ends) := by
  have static : IsStatic chassisPlanner chassisTable.interface chassisTable.tree :=
    tablePlanner_isStatic _ _ _ _
  have gets : GetsRoot chassisPlanner pollingOptions none () none 0 := ⟨rfl, rfl⟩
  rcases static.run_visits rfl rfl gets (fun _ _ _ => chassisPlanner_errorFree)
    (fun _ _ => chassisPlanner_normalises) with ⟨final, ran, visited, orders⟩
  refine ⟨final, ran, visited, orders _ (.mk (.swap _ _ _)) ?_⟩
  exact available_orderFree (fun _ => rfl) []

end Ecclesia.Planner
