import Ecclesia.Planner.Freshness
import Ecclesia.Planner.Visits

namespace Ecclesia.Planner

open Absl Query List

/-!
# Planners of queries

`BuildQueryPlanner` makes the trie of a query and gives it to a planner.  What the planner visits is
what the RedPaths of the query lead to.
-/

/-- The node at an address with what is below it, up to a depth.  The child expressions are a hash
set. -/
def Trie.node (trie : Trie) (childOrder : IterationOrder (Expression × Nat)) :
    Nat -> Nat -> RedPathTrieNode
  | 0, _ => .mk [] []
  | depth + 1, address =>
    match trie[address]? with
    | none => .mk [] []
    | some here => .mk here.mark ((childOrder.iterate here.children).map fun child =>
        .mk child.1.type child.1.expression (node trie childOrder depth child.2))

/-- `BuildQueryPlanner`, where the options are those of the planner apart from what is made here. -/
def buildQueryPlanner {World Object Iterable : Type} (order : IterationOrder Text)
    (sequenceOrder : IterationOrder (List Text)) (childOrder : IterationOrder (Expression × Nat))
    (bound : Nat) (options : QueryPlanner World Object Iterable)
    (redpathToQueryParams : HashMap Text GetParams) :
    Option (Except Status (QueryPlanner World Object Iterable)) :=
  match createRedPathTrie order sequenceOrder bound options.query with
  | none => none
  | some (.error status) => some (.error status)
  | some (.ok trie) =>
    match (joinSubqueries order bound options.query).bind fun joined =>
      combineQueryParams sequenceOrder options.query redpathToQueryParams joined.2 with
    | none => none
    | some combined => some (.ok { options with
        redpathTrieRoot := trie.node childOrder trie.length 0
        redpathRules := { options.redpathRules with redpathToQueryParams := combined.entries } })

def RedPathExpression.written (expression : RedPathExpression) : Expression :=
  ⟨expression.type, expression.expression⟩

/-- The paths of the ends of subqueries, without what is below their expressions. -/
def writtenEnds (ends : List (List RedPathExpression × Text)) : List (List Expression × Text) :=
  ends.map fun ending => (ending.1.map RedPathExpression.written, ending.2)

/-- Every end of a subquery in a sequence is there once. -/
structure ListsEnds (query : DelliciusQuery) (sequences : List (List Text))
    (ends : List (List RedPathExpression × Text)) : Prop where
  once : (writtenEnds ends).Nodup
  mem_iff : ∀ path subqueryId, (path, subqueryId) ∈ writtenEnds ends ↔
    EndsAt query sequences subqueryId path

section

variable {trie : Trie} {words : List (List Expression)} {ids : List Expression -> Text}
  {childOrder : IterationOrder (Expression × Nat)}

lemma endsBelow_eq (children : List RedPathExpression) :
    endsBelow children = children.flatMap RedPathExpression.ends := by
  induction children with
  | nil => rfl
  | cons expression rest ih => rw [endsBelow, ih, flatMap_cons]

lemma writtenEnds_node {address depth : Nat} {node : TreeNode Expression Text}
    (found : trie[address]? = some node) :
    writtenEnds (trie.node childOrder (depth + 1) address).ends =
      (if node.mark.isEmpty then [] else [([], node.mark)]) ++
        (childOrder.iterate node.children).flatMap fun child =>
          (writtenEnds (trie.node childOrder depth child.2).ends).map
            (Prod.map (child.1 :: ·) id) := by
  simp only [Trie.node, found, RedPathTrieNode.ends, endsBelow_eq, writtenEnds, map_append,
    flatMap_map, map_flatMap, RedPathExpression.ends, map_map]
  congr 1
  split
  · rfl
  · rfl

lemma nodup_inits {Symbol : Type} (word : List Symbol) : word.inits.Nodup := by
  induction word with
  | nil => exact nodup_singleton []
  | cons symbol rest ih =>
    rw [inits_cons, nodup_cons]
    exact ⟨by simp, ih.map cons_injective⟩

variable (represents : trie.Represents [] words ids)

include represents

lemma mem_writtenEnds (depth : Nat) {path : List Expression} {subqueryId : Text} :
    ∀ {address : Nat} {word : List Expression}, words[address]? = some word ->
      ((path, subqueryId) ∈ writtenEnds (trie.node childOrder depth address).ends ↔
        path.length < depth ∧ subqueryId ≠ [] ∧ word ++ path ∈ words ∧
          ids (word ++ path) = subqueryId) := by
  induction depth generalizing path with
  | zero =>
    intro address word _
    exact iff_of_false not_mem_nil fun both => Nat.not_lt_zero _ both.1
  | succ depth ih =>
    intro address word spelled
    rcases represents.node_of_word spelled with ⟨node, found⟩
    have mark := represents.marked found spelled
    rw [writtenEnds_node found, mem_append, mem_flatMap, mark]
    cases path with
    | nil =>
      have notBelow : ¬ ∃ child ∈ childOrder.iterate node.children, ([], subqueryId) ∈
          (writtenEnds (trie.node childOrder depth child.2).ends).map
            (Prod.map (child.1 :: ·) id) := by
        rintro ⟨child, -, below⟩
        rcases mem_map.mp below with ⟨ending, -, impossible⟩
        cases impossible
      rw [or_iff_left notBelow, append_nil, length_nil, and_iff_right depth.succ_pos,
        and_iff_right (mem_of_getElem? spelled)]
      by_cases unnamed : (ids word).isEmpty = true
      · rw [if_pos unnamed, List.isEmpty_iff.mp unnamed]
        exact iff_of_false not_mem_nil fun both => both.1 both.2.symm
      · rw [if_neg unnamed, mem_singleton, Prod.mk.injEq, and_iff_right rfl]
        exact ⟨fun same => ⟨fun nothing => unnamed (by rw [<- same, nothing]; rfl), same.symm⟩,
          fun both => both.2.symm⟩
    | cons expression rest =>
      have notHere : ¬ (expression :: rest, subqueryId) ∈
          (if (ids word).isEmpty then [] else [([], ids word)]) := by
        split
        · exact not_mem_nil
        · exact fun impossible => nomatch mem_singleton.mp impossible
      rw [or_iff_right notHere, append_cons, length_cons, Nat.add_lt_add_iff_right]
      constructor
      · rintro ⟨child, isChild, below⟩
        rcases mem_map.mp below with ⟨⟨path, _⟩, ends, same⟩
        cases same
        exact (ih ((represents.children found spelled child.1 child.2).mp
          (childOrder.mem_iterate.mp isChild))).mp ends
      · intro ends
        rcases getElem?_of_mem (represents.mem_of_append rest ends.2.2.1) with ⟨target, reached⟩
        have isChild := (represents.children found spelled expression target).mpr reached
        exact ⟨(expression, target), childOrder.mem_iterate.mpr isChild,
          mem_map.mpr ⟨(rest, subqueryId), (ih reached).mpr ends, rfl⟩⟩

lemma nodup_writtenEnds (depth : Nat) : ∀ {address : Nat} {word : List Expression},
    words[address]? = some word ->
      (writtenEnds (trie.node childOrder depth address).ends).Nodup := by
  induction depth with
  | zero => exact fun _ => nodup_nil
  | succ depth ih =>
    intro address word spelled
    rcases represents.node_of_word spelled with ⟨node, found⟩
    have labels : ((childOrder.iterate node.children).map Prod.fst).Nodup :=
      ((childOrder.perm _).map _).nodup_iff.mpr (represents.labels node (mem_of_getElem? found))
    rw [writtenEnds_node found, nodup_append', nodup_flatMap]
    refine ⟨by split <;> simp, ⟨?_, ?_⟩, ?_⟩
    · intro child isChild
      have reached := (represents.children found spelled child.1 child.2).mp
        (childOrder.mem_iterate.mp isChild)
      exact (ih reached).map (cons_injective.prodMap Function.injective_id)
    · refine (pairwise_map.mp labels).imp fun {one other} apart => ?_
      intro ending inOne inOther
      rcases mem_map.mp inOne with ⟨first, -, rfl⟩
      rcases mem_map.mp inOther with ⟨second, -, same⟩
      exact apart (cons.inj (Prod.mk.inj same).1).1.symm
    · intro ending here below
      rcases mem_flatMap.mp below with ⟨child, -, below⟩
      rcases mem_map.mp below with ⟨first, -, rfl⟩
      split at here
      · exact not_mem_nil here
      · cases mem_singleton.mp here

lemma length_lt_of_mem {word : List Expression} (inside : word ∈ words) :
    word.length < trie.length := by
  have below : word.inits ⊆ words := by
    intro front isFront
    rcases (mem_inits _ _).mp isFront with ⟨rest, rfl⟩
    exact represents.mem_of_append rest inside
  have bound := ((nodup_inits word).subperm below).length_le
  rwa [length_inits, represents.length_eq] at bound

end

section

variable {World Object Iterable : Type} {implOptions planner : QueryPlanner World Object Iterable}
  {order : IterationOrder Text} {sequenceOrder : IterationOrder (List Text)}
  {childOrder : IterationOrder (Expression × Nat)} {bound : Nat}
  {redpathToQueryParams : HashMap Text GetParams}
  (named : ∀ subquery ∈ implOptions.query.subquery, subquery.subqueryId ≠ [])
  (enough : (buildParentChildSubqueryMap implOptions.query).length < bound)
  (built : buildQueryPlanner order sequenceOrder childOrder bound implOptions redpathToQueryParams =
    some (.ok planner))

include named enough built

lemma buildQueryPlanner_listsEnds : ∃ status sequences,
    joinSubqueries order bound implOptions.query = some (status, sequences) ∧
      status.isOk = true ∧ ListsEnds implOptions.query sequences planner.redpathTrieRoot.ends := by
  rcases joinSubqueries_joins implOptions.query order enough with ⟨status, sequences, joined, joins⟩
  refine ⟨status, sequences, joined, ?_⟩
  have fine : status.isOk = true := by
    by_contra failed
    have refused : createRedPathTrie order sequenceOrder bound implOptions.query =
        some (.error status) := by
      rw [createRedPathTrie, joined]
      exact if_pos (by rw [Bool.eq_false_iff.mpr failed]; rfl)
    rw [buildQueryPlanner, refused] at built
    cases built
  rcases createRedPathTrie_builds named order sequenceOrder joined joins fine with
    ⟨outcome, created, builds⟩
  unfold buildQueryPlanner at built
  rw [created] at built
  cases outcome with
  | error status => cases built
  | ok trie =>
    rcases builds with ⟨-, words, ids, holds⟩
    have represents := holds.represents
    dsimp only at built
    split at built
    · cases built
    · cases built
      refine ⟨fine, nodup_writtenEnds represents _ represents.root, ?_⟩
      intro path subqueryId
      rw [mem_writtenEnds represents _ represents.root, nil_append]
      constructor
      · rintro ⟨-, isNamed, -, ends⟩
        exact (holds.id_iff _ path isNamed).mp ends
      · intro ends
        have isNamed := holds.named _ _ ends
        have inside := (holds.mem_iff path).mpr (.inr ⟨_, _, ends, prefix_rfl⟩)
        exact ⟨length_lt_of_mem represents inside, isNamed, inside,
          (holds.id_iff _ path isNamed).mpr ends⟩

end

def leafNode : RedPathExpression :=
  .mk .nodeName (text "Chassis") (.mk (text "chassis") [])

def leafTable : ServiceTable := ⟨.ofObject 0, [((0, text "Chassis"), .ofObject 1)], [], []⟩

def leafPlanner (childExpressions : List RedPathExpression) : QueryPlanner Unit Nat Nat :=
  tablePlanner leafTable [redpathSubquery (text "chassis") [] (text "/Chassis")]
    (.mk [] childExpressions) .failOnFirstError

lemma leafPlanner_comes {node : RedPathTrieNode} {place : Place Nat Nat}
    (comes : ComesFrom (leafPlanner [leafNode]) leafTable.tree pollingOptions 0 node place) :
    (node = .mk [] [leafNode] ∧ place = rootPlace 0) ∨
      (node = leafNode.trieNode ∧ place.redfishResponse = .ofObject (some 1)) := by
  induction comes with
  | start => exact .inl ⟨rfl, rfl⟩
  | step came member selected ih =>
    rcases ih with ⟨rfl, rfl⟩ | ⟨rfl, -⟩
    · cases mem_singleton.mp member
      cases mem_singleton.mp selected
      exact .inr ⟨rfl, rfl⟩
    · exact nomatch member

end Ecclesia.Planner
