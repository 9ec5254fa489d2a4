import Ecclesia.Planner.Losses

namespace Ecclesia.Planner

open Absl

/-!
# Isolation of errors

A run that continues on errors is meant to lose nothing but what fails itself:
it should give the data of the traversal in which the failing members and
branches are absent.  A failing fetch is handled for each member.  A predicate
that cannot be evaluated on one member ends the loop over all of them.
-/

section

variable {World Object Iterable : Type}

/-- What an expression really selects in a static tree: an expression that fails
selects nothing. -/
def answered (planner : QueryPlanner World Object Iterable)
    (tree : ResourceTree Object Iterable) (queryVariables : QueryVariables)
    (place : Place Object Iterable) (expression : RedPathExpression) :
    List (RedfishResponse Object Iterable) :=
  match treeAnswer planner tree queryVariables place expression with
  | .ok responses => responses
  | .error _ => []

/-- The expression fails only with a status, and not with a cancellation. -/
def FailsPlainly (planner : QueryPlanner World Object Iterable)
    (tree : ResourceTree Object Iterable) (queryVariables : QueryVariables)
    (place : Place Object Iterable) (expression : RedPathExpression) : Prop :=
  ∀ failure, treeAnswer planner tree queryVariables place expression = .error failure ->
    ∃ status, failure = .status status ∧ status.code ≠ .cancelled

/-- The predicate of the expression cannot be evaluated on some member of the
collection. -/
def HasBrokenMember (planner : QueryPlanner World Object Iterable)
    (tree : ResourceTree Object Iterable) (queryVariables : QueryVariables)
    (place : Place Object Iterable) (expression : RedPathExpression) : Prop :=
  ∃ iterable newPredicate nodeIndex failure,
    membersFor place.redfishResponse expression = some iterable ∧
    planner.substituteVariables expression.expression queryVariables = .ok newPredicate ∧
    nodeIndex < planner.views.size iterable ∧
    verdict planner tree place (paramsAt planner place expression) newPredicate iterable
      nodeIndex = .broken failure

variable {planner : QueryPlanner World Object Iterable} {tree : ResourceTree Object Iterable}

/-- An expression selects all that is available, or it fails and selects
nothing. -/
lemma answered_passesOver (queryVariables : QueryVariables) :
    PassesOver (available planner tree queryVariables) (answered planner tree queryVariables) := by
  intro place expression
  unfold answered treeAnswer available
  cases membersFor place.redfishResponse expression with
  | some iterable =>
    cases planner.substituteVariables expression.expression queryVariables with
    | error status => exact .inr rfl
    | ok newPredicate =>
      simp only
      rcases membersAnswer_cases place (paramsAt planner place expression) newPredicate
        iterable with all | ⟨nodeIndex, failure, -, -, left⟩
      · rw [all]
        exact .inl rfl
      · rw [left]
        exact .inr rfl
  | none =>
    cases place.redfishResponse.redfishObject with
    | none => exact .inl rfl
    | some object =>
      simp only
      cases objectAnswer planner tree queryVariables place expression object with
      | ok responses => exact .inl rfl
      | error failure => exact .inr rfl

variable {place : Place Object Iterable}

lemma Verdict.turn_exit (mode : planner.executionMode = .continueOnSubqueryErrors)
    {nodeIndex : Nat} {verdict : Verdict Object} {status : Status}
    (leaves : verdict.turn planner place nodeIndex = .exit (.status status)) :
    verdict = .broken (.status status) := by
  cases verdict with
  | unavailable other =>
    simp only [Verdict.turn, mode] at leaves
    split at leaves
    · cases leaves
    · cases leaves
  | nothing => cases leaves
  | broken failure =>
    cases leaves
    rfl
  | refused => cases leaves
  | accepted object => cases leaves

variable {expression : RedPathExpression}

lemma answered_eq_or_iff (mode : planner.executionMode = .continueOnSubqueryErrors)
    {queryVariables : QueryVariables}
    (plain : FailsPlainly planner tree queryVariables place expression) :
    (answered planner tree queryVariables place expression =
        available planner tree queryVariables place expression ∨
      visitsBehind (available planner tree queryVariables) place expression = []) ↔
      (HasBrokenMember planner tree queryVariables place expression ->
        visitsBehind (available planner tree queryVariables) place expression = []) := by
  constructor
  · rintro (same | nothing) ⟨iterable, newPredicate, nodeIndex, failure, found, substituted,
      inside, broken⟩
    · have leaves : (verdict planner tree place (paramsAt planner place expression) newPredicate
          iterable nodeIndex).turn planner place nodeIndex = .exit failure := by
        rw [broken]
        rfl
      rcases membersAnswer_of_exit inside leaves with ⟨other, fails⟩
      have nothing : answered planner tree queryVariables place expression = [] := by
        unfold answered treeAnswer
        rw [found]
        simp only [substituted, fails]
      unfold visitsBehind
      rw [<- same, nothing]
      rfl
    · exact nothing
  · intro isolated
    by_cases broken : HasBrokenMember planner tree queryVariables place expression
    · exact .inr (isolated broken)
    · refine .inl ?_
      unfold FailsPlainly at plain
      unfold answered available
      unfold treeAnswer at plain ⊢
      cases found : membersFor place.redfishResponse expression with
      | some iterable =>
        rw [found] at plain
        cases substituted : planner.substituteVariables expression.expression queryVariables with
        | error status => rfl
        | ok newPredicate =>
          rw [substituted] at plain
          simp only at plain ⊢
          rcases membersAnswer_cases place (paramsAt planner place expression) newPredicate
            iterable with all | ⟨nodeIndex, failure, inside, leaves, fails⟩
          · rw [all]
          · rcases plain failure fails with ⟨status, rfl, -⟩
            exact absurd ⟨iterable, newPredicate, nodeIndex, _, found, substituted, inside,
              Verdict.turn_exit mode leaves⟩ broken
      | none =>
        cases place.redfishResponse.redfishObject with
        | none => rfl
        | some object =>
          simp only
          cases objectAnswer planner tree queryVariables place expression object with
          | ok responses => rfl
          | error failure => rfl

variable {interface : RedfishInterface World Object Iterable}
  {options : QueryExecutionOptions World Object Iterable}

/-- The traversal in which an expression that fails selects nothing. -/
def answeredIdeal (planner : QueryPlanner World Object Iterable)
    (tree : ResourceTree Object Iterable)
    (options : QueryExecutionOptions World Object Iterable) : Ideal Object Iterable :=
  (availableIdeal planner tree options).withSelect (answered planner tree options.queryVariables)

lemma answered_matches (passed : ∀ failure,
      treeAnswer planner tree options.queryVariables place expression = .error failure ->
        ∃ status, failure = .status status ∧ PassedOver planner status)
    (normalises : ∀ response ∈ answered planner tree options.queryVariables place expression,
        Normalises planner tree options.urlAnnotationEnabled expression.trieNode
          (place.next expression response)) :
    Matches planner tree options.queryVariables options.urlAnnotationEnabled
      (answeredIdeal planner tree options) place expression := by
  constructor
  · change treeAnswer planner tree options.queryVariables place expression =
        .ok (answered planner tree options.queryVariables place expression) ∨
      (answered planner tree options.queryVariables place expression = [] ∧ _)
    unfold answered
    cases fails : treeAnswer planner tree options.queryVariables place expression with
    | ok responses => exact .inl rfl
    | error failure =>
      rcases passed failure fails with ⟨status, rfl, passes⟩
      exact .inr ⟨rfl, status, rfl, passes⟩
  · intro response selected named
    exact (normalises response selected).valueAt named

/-- For every query and every static tree in which fetches and predicates fail in any way but by a
cancellation: a run that continues on errors observes the same as the traversal without the failing
members and branches, exactly when nothing is to be visited behind the collections with a member on
which the predicate cannot be evaluated. -/
theorem IsStatic.run_isolates_iff (static : IsStatic planner interface tree)
    (polling : options.queryType = .polling)
    (local_ : localInterface planner options = some interface)
    (mode : planner.executionMode = .continueOnSubqueryErrors)
    {timeoutManager timing : Option QueryTimeoutManager} {world : World} {root : Object}
    (gets : GetsRoot planner options timeoutManager world timing root)
    (plain : ∀ node place expression, ComesFrom planner tree options root node place ->
      expression ∈ node.childExpressions ->
        FailsPlainly planner tree options.queryVariables place expression)
    (normalises : ∀ node place, ComesFrom planner tree options root node place ->
      Normalises planner tree options.urlAnnotationEnabled node place) :
    ∃ final, RunEndsIn planner options timeoutManager world timing root final ∧
      ((availableIdeal planner tree options).run planner.redpathTrieRoot
          (.ofObject (some root)) = .ok final.observed ↔
        ∀ node place expression, ComesFrom planner tree options root node place ->
          expression ∈ node.childExpressions ->
          HasBrokenMember planner tree options.queryVariables place expression ->
            visitsBehind (available planner tree options.queryVariables) place expression =
              []) := by
  have passes : PassesOver (availableIdeal planner tree options).select
      (answered planner tree options.queryVariables) := answered_passesOver _
  have sameQuery : (answeredIdeal planner tree options).query = planner.query := rfl
  rcases static.traverses_refines polling local_ sameQuery
    (fun named => (normalises _ _ .start).valueAt named)
    (fun node place expression comes member => answered_matches (fun failure fails => by
        rcases plain _ _ _ (comes.widen passes) member failure fails with ⟨status, rfl, going⟩
        exact ⟨status, rfl, .inr ⟨mode, going⟩⟩)
      (fun response selected =>
        normalises _ _ ((Comes.step comes member selected).widen passes)))
    (fun impossible : False => impossible.elim)
    (worldAtRoot planner options timeoutManager world) with ⟨final, traverses, ideally, -⟩
  refine ⟨final, gets.runEndsIn planner options traverses, ?_⟩
  rw [<- ideally, eq_comm, answeredIdeal,
    (availableIdeal planner tree options).run_withSelect_eq_iff passes]
  constructor
  · intro lossless node place expression comes member
    exact (answered_eq_or_iff mode (plain _ _ _ comes member)).mp (lossless _ _ _ comes member)
  · intro isolated node place expression comes member
    exact (answered_eq_or_iff mode (plain _ _ _ comes member)).mpr (isolated _ _ _ comes member)

end

/-- The large members of a collection, as a subquery. -/
def largeMembers : RedPathExpression :=
  .mk .predicate (text "Size>5") (.mk (text "large") [])

def largeChassis : RedPathExpression :=
  .mk .nodeName (text "Chassis") (.mk [] [largeMembers])

/-- A collection with one large member and another one. -/
def sizeTable (other : RedfishVariant Nat Nat) : ServiceTable where
  root := .ofObject 0
  nodes := [((0, text "Chassis"), collection 1)]
  members := [(1, [.ofObject 2, other])]
  contents := [(2, .object [(text "Size", .integer 7)]),
    (3, .object [(text "Size", .string (text "unknown"))])]

def sizePlanner (other : RedfishVariant Nat Nat) : QueryPlanner Unit Nat Nat :=
  tablePlanner (sizeTable other) [plainSubquery (text "large") []] (.mk [] [largeChassis])
    .continueOnSubqueryErrors

/-- The predicate cannot be evaluated on the second member: the run loses the first one, too. -/
theorem broken_member_discards_others :
    ∃ final, RunEndsIn (sizePlanner (.ofObject 3)) pollingOptions none () none 0 final ∧
      final.observed = ⟨[], []⟩ ∧
      (availableIdeal (sizePlanner (.ofObject 3)) (sizeTable (.ofObject 3)).tree
        pollingOptions).run (.mk [] [largeChassis]) (.ofObject (some 0)) =
          .ok ⟨[(text "large", .list [.subquery [(text "Number", .int 2)]])],
            [(text "large", .ofObject (some 2))]⟩ := by
  exact ⟨_, .within ⟨rfl, rfl⟩ rfl 4 rfl, rfl, Search.run_of_within _ 5 rfl⟩

/-- A member that cannot be fetched. -/
def unreachable : RedfishVariant Nat Nat :=
  .ofStatus ⟨.unavailable, text "down"⟩

/-- Where a run comes to when the second member cannot be fetched. -/
lemma sizePlanner_comes {node : RedPathTrieNode} {place : Place Nat Nat}
    (comes : ComesFrom (sizePlanner unreachable) (sizeTable unreachable).tree pollingOptions 0
      node place) :
    (node = .mk [] [largeChassis] ∧ place = rootPlace 0) ∨
      (node = .mk [] [largeMembers] ∧ place = ⟨text "/Chassis", ⟨some 1, some 1, none⟩⟩) ∨
      (node = .mk (text "large") [] ∧ place.redfishResponse = .ofObject (some 2)) := by
  induction comes with
  | start => exact .inl ⟨rfl, rfl⟩
  | step came member selected ih =>
    rcases ih with ⟨rfl, rfl⟩ | ⟨rfl, rfl⟩ | ⟨rfl, -⟩
    · cases List.mem_singleton.mp member
      cases List.mem_singleton.mp selected
      exact .inr (.inl ⟨rfl, rfl⟩)
    · cases List.mem_singleton.mp member
      cases List.mem_singleton.mp selected
      exact .inr (.inr ⟨rfl, rfl⟩)
    · exact nomatch member

/-- The second member cannot be fetched: the first one is not affected. -/
theorem run_isolates_sizePlanner :
    ∃ final, RunEndsIn (sizePlanner unreachable) pollingOptions none () none 0 final ∧
      (availableIdeal (sizePlanner unreachable) (sizeTable unreachable).tree pollingOptions).run
        (.mk [] [largeChassis]) (.ofObject (some 0)) = .ok final.observed := by
  have static : IsStatic (sizePlanner unreachable) (sizeTable unreachable).interface
      (sizeTable unreachable).tree := tablePlanner_isStatic _ _ _ _
  have gets : GetsRoot (sizePlanner unreachable) pollingOptions none () none 0 := ⟨rfl, rfl⟩
  rcases static.run_isolates_iff rfl rfl rfl gets
    (fun node place expression comes member failure fails => by
      rcases sizePlanner_comes comes with ⟨rfl, rfl⟩ | ⟨rfl, rfl⟩ | ⟨rfl, -⟩
      · cases List.mem_singleton.mp member
        cases fails
      · cases List.mem_singleton.mp member
        cases fails
      · exact nomatch member)
    (fun node place comes named => by
      rcases sizePlanner_comes comes with ⟨rfl, rfl⟩ | ⟨rfl, rfl⟩ | ⟨rfl, shown⟩
      · exact absurd rfl named
      · exact absurd rfl named
      · refine ⟨some (.subquery [(text "Number", .int 2)]), ?_⟩
        rw [treeValue, shown]
        rfl) with ⟨final, ends, isolated⟩
  refine ⟨final, ends, isolated.mpr ?_⟩
  rintro node place expression comes member ⟨iterable, newPredicate, nodeIndex, failure, found,
    substituted, inside, broken⟩
  rcases sizePlanner_comes comes with ⟨rfl, rfl⟩ | ⟨rfl, rfl⟩ | ⟨rfl, -⟩
  · cases List.mem_singleton.mp member
    cases found
  · cases List.mem_singleton.mp member
    cases found
    cases substituted
    change nodeIndex < 2 at inside
    interval_cases nodeIndex
    · cases broken
    · cases broken
  · exact nomatch member

end Ecclesia.Planner
