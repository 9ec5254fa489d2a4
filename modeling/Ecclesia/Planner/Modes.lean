import Ecclesia.Planner.Inversion

namespace Ecclesia.Planner

open Absl List

/-!
# The two modes of execution

A run that fails on the first error and a run that continues on errors should
agree when nothing is reported as wrong.  They part ways at a collection with a
member that is not found: the first one leaves the loop over the members with
the status of that member, which is then taken for that of the collection and
passed over in silence.
-/

/-! ## Traversals without visits -/

section

variable {Object Iterable : Type}
  {select : Place Object Iterable -> RedPathExpression -> List (RedfishResponse Object Iterable)}

variable {start place : Place Object Iterable}

lemma Comes.trans {root middle node : RedPathTrieNode} {between : Place Object Iterable}
    (before : Comes select root start middle between)
    (after : Comes select middle between node place) : Comes select root start node place := by
  induction after with
  | start => exact before
  | step _ member selected ih => exact .step ih member selected

lemma Comes.unnamed {root node : RedPathTrieNode}
    (comes : Comes select root start node place) (unnamed : root.subqueryId = [])
    (nothing : ∀ expression ∈ root.childExpressions, visitsBehind select start expression = []) :
    node.subqueryId = [] ∧ ∀ expression ∈ node.childExpressions,
      visitsBehind select place expression = [] := by
  induction comes with
  | start => exact ⟨unnamed, nothing⟩
  | step _ member selected ih => exact visits_eq_nil_of_behind (ih.2 _ member) selected

mutual

theorem RedPathTrieNode.visits_of_unnamed (place : Place Object Iterable) :
    ∀ node : RedPathTrieNode,
      (∀ reached there, Comes select node place reached there -> reached.subqueryId = []) ->
        visits select place node.ends = []
  | .mk subqueryId children => by
    intro unnamed
    have own : subqueryId = [] := unnamed _ _ .start
    subst own
    have behind : (RedPathTrieNode.mk [] children).childExpressions.flatMap
        (visitsBehind select place) = [] :=
      flatMap_eq_nil_iff.mpr (visitsBehind_of_unnamed place children
        fun expression member response selected reached there comes =>
          unnamed reached there ((Comes.start.step member selected).trans comes))
    have none := visits_node select place (.mk [] children)
    rw [behind] at none
    exact none.eq_nil

theorem RedPathExpression.visits_of_unnamed (place : Place Object Iterable) :
    ∀ expression : RedPathExpression,
      (∀ reached there, Comes select expression.trieNode place reached there ->
        reached.subqueryId = []) ->
        visits select place expression.trieNode.ends = []
  | .mk _ _ node => node.visits_of_unnamed place

theorem visitsBehind_of_unnamed (place : Place Object Iterable) :
    ∀ children : List RedPathExpression,
      (∀ expression ∈ children, ∀ response ∈ select place expression, ∀ reached there,
          Comes select expression.trieNode (place.next expression response) reached there ->
            reached.subqueryId = []) ->
        ∀ expression ∈ children, visitsBehind select place expression = []
  | [] => fun _ => nofun
  | first :: rest => by
    intro unnamed
    have head : visitsBehind select place first = [] :=
      flatMap_eq_nil_iff.mpr fun response selected =>
        first.visits_of_unnamed _ (unnamed first (.head _) response selected)
    have tail := visitsBehind_of_unnamed place rest
      fun other listed => unnamed other (.tail _ listed)
    exact forall_mem_cons.mpr ⟨head, tail⟩

end

end

/-! ## Members that are not found -/

section

variable {World Object Iterable : Type}

/-- Some member of the collection is not found. -/
def HasMissingMember (planner : QueryPlanner World Object Iterable)
    (tree : ResourceTree Object Iterable) (queryVariables : QueryVariables)
    (place : Place Object Iterable) (expression : RedPathExpression) : Prop :=
  ∃ iterable newPredicate nodeIndex status,
    membersFor place.redfishResponse expression = some iterable ∧
    planner.substituteVariables expression.expression queryVariables = .ok newPredicate ∧
    nodeIndex < planner.views.size iterable ∧
    verdict planner tree place (paramsAt planner place expression) newPredicate iterable
      nodeIndex = .unavailable status ∧
    status.code = .notFound

variable {planner : QueryPlanner World Object Iterable} {tree : ResourceTree Object Iterable}

variable {place : Place Object Iterable}

lemma Verdict.fine_of_stays (mode : planner.executionMode = .failOnFirstError) {nodeIndex : Nat}
    {verdict : Verdict Object}
    (stays : (verdict.turn planner place nodeIndex).Stays) : verdict.Fine := by
  cases verdict with
  | unavailable status =>
    simp only [Verdict.turn, mode] at stays
    split at stays
    · exact absurd rfl (stays _)
    · exact absurd rfl (stays _)
  | nothing => exact trivial
  | broken failure => exact absurd rfl (stays _)
  | refused => exact trivial
  | accepted object => exact trivial

variable {iterable : Iterable} {newPredicate : Text} {params : GetParams}

lemma membersAnswer_fine (mode : planner.executionMode = .failOnFirstError)
    {responses : List (RedfishResponse Object Iterable)}
    (answers : membersAnswer planner tree place params newPredicate iterable = .ok responses)
    {nodeIndex : Nat} (inside : nodeIndex < planner.views.size iterable) :
    (verdict planner tree place params newPredicate iterable nodeIndex).Fine := by
  have stays : ((verdict planner tree place params newPredicate iterable nodeIndex).turn planner
      place nodeIndex).Stays := by
    intro failure leaves
    rcases membersAnswer_of_exit inside leaves with ⟨other, fails⟩
    rw [answers] at fails
    cases fails
  exact Verdict.fine_of_stays mode stays

/-! ## What does not depend on the mode -/

lemma substitutePredicates_inMode (mode : ExecutionMode) (queryVariables : QueryVariables)
    (expressions : List RedPathExpression) :
    substitutePredicates (planner.inMode mode) queryVariables expressions =
      substitutePredicates planner queryVariables expressions := by
  induction expressions with
  | nil => rfl
  | cons expression rest ih =>
    rw [substitutePredicates, ih]
    rfl

lemma paramsWithFilter_inMode (mode : ExecutionMode) (params : GetParams)
    (expression : RedPathExpression) (queryVariables : QueryVariables) :
    paramsWithFilter (planner.inMode mode) params expression queryVariables =
      paramsWithFilter planner params expression queryVariables := by
  unfold paramsWithFilter getFilterStringFromNextNode
  rw [substitutePredicates_inMode]
  rfl

lemma objectAnswer_inMode (mode : ExecutionMode) (queryVariables : QueryVariables)
    (place : Place Object Iterable) (expression : RedPathExpression) (object : Object) :
    objectAnswer (planner.inMode mode) tree queryVariables place expression object =
      objectAnswer planner tree queryVariables place expression object := by
  simp only [objectAnswer, paramsWithFilter_inMode]
  rfl

lemma IsStatic.inMode {interface : RedfishInterface World Object Iterable}
    (static : IsStatic planner interface tree) (mode : ExecutionMode) :
    IsStatic (planner.inMode mode) interface tree :=
  ⟨static.get, static.cachedGetUri, static.ensureFreshPayload, static.index, static.normalize,
    static.notCancelled⟩

variable {mode : ExecutionMode} {queryVariables : QueryVariables} {expression : RedPathExpression}

/-- The answers in the two modes are the same where no member is missing or
fails. -/
lemma treeAnswer_inMode_of_no_members (none : membersFor place.redfishResponse expression = none) :
    treeAnswer (planner.inMode mode) tree queryVariables place expression =
      treeAnswer planner tree queryVariables place expression := by
  unfold treeAnswer
  simp only [none, objectAnswer_inMode]

section

variable (found : membersFor place.redfishResponse expression = some iterable)

include found

lemma treeAnswer_inMode_of_substitution {status : Status}
    (failed : planner.substituteVariables expression.expression queryVariables = .error status) :
    treeAnswer (planner.inMode mode) tree queryVariables place expression =
      .error (.status status) := by
  unfold treeAnswer
  rw [found]
  simp only [QueryPlanner.inMode, failed]

lemma treeAnswer_inMode_of_members
    (substituted : planner.substituteVariables expression.expression queryVariables =
      .ok newPredicate) :
    treeAnswer (planner.inMode mode) tree queryVariables place expression =
      membersAnswer (planner.inMode mode) tree place (paramsAt planner place expression)
        newPredicate iterable := by
  unfold treeAnswer
  rw [found]
  simp only [QueryPlanner.inMode, substituted]
  rfl

end

lemma membersAnswer_inMode_of_fine (fine : ∀ nodeIndex, nodeIndex < planner.views.size iterable ->
      (verdict planner tree place params newPredicate iterable nodeIndex).Fine)
    (mode : ExecutionMode) :
    membersAnswer (planner.inMode mode) tree place params newPredicate iterable =
      .ok (availableMembers planner tree place params newPredicate iterable) :=
  membersAnswer_of_stays fun nodeIndex inside =>
    (fine nodeIndex inside).stays place nodeIndex

/-! ## One expression in both modes -/

/-- What is selected without an error in the stricter mode is selected without an
error in the other one. -/
lemma treeAnswer_ok_inMode {responses : List (RedfishResponse Object Iterable)}
    (answers : treeAnswer (planner.inMode .failOnFirstError) tree queryVariables place
      expression = .ok responses) :
    treeAnswer (planner.inMode .continueOnSubqueryErrors) tree queryVariables place expression =
        .ok responses ∧
      QuietAt (planner.inMode .continueOnSubqueryErrors) tree queryVariables place
        expression := by
  cases found : membersFor place.redfishResponse expression with
  | none =>
    rw [treeAnswer_inMode_of_no_members found] at answers ⊢
    refine ⟨answers, ?_⟩
    intro iterable newPredicate impossible
    rw [found] at impossible
    cases impossible
  | some iterable =>
    cases substituted : planner.substituteVariables expression.expression queryVariables with
    | error status =>
      rw [treeAnswer_inMode_of_substitution found substituted] at answers
      cases answers
    | ok newPredicate =>
      rw [treeAnswer_inMode_of_members found substituted] at answers ⊢
      have fine : ∀ nodeIndex, nodeIndex < planner.views.size iterable ->
          (verdict planner tree place (paramsAt planner place expression) newPredicate
            iterable nodeIndex).Fine :=
        fun nodeIndex inside => membersAnswer_fine rfl answers inside
      rw [membersAnswer_inMode_of_fine fine] at answers ⊢
      refine ⟨answers, ?_⟩
      intro other otherPredicate sameFound sameSubstituted nodeIndex inside loud
      cases found.symm.trans sameFound
      cases substituted.symm.trans sameSubstituted
      have here := fine nodeIndex inside
      change Loud _ (verdict planner tree place (paramsAt planner place expression)
        newPredicate iterable nodeIndex) at loud
      unfold Loud at loud
      split at loud
      · rename_i unavailable
        rw [unavailable] at here
        exact here
      · exact loud

lemma answered_inMode_passesOver (queryVariables : QueryVariables) :
    PassesOver (answered (planner.inMode .continueOnSubqueryErrors) tree queryVariables)
      (answered (planner.inMode .failOnFirstError) tree queryVariables) := by
  intro place expression
  cases answers : treeAnswer (planner.inMode .failOnFirstError) tree queryVariables place
      expression with
  | ok responses =>
    left
    rw [answered, answered, answers, (treeAnswer_ok_inMode answers).1]
  | error failure =>
    right
    rw [answered, answers]

lemma HasMissingMember.answered_eq_nil
    (missing : HasMissingMember planner tree queryVariables place expression) :
    answered (planner.inMode .failOnFirstError) tree queryVariables place expression = [] := by
  rcases missing with ⟨iterable, newPredicate, nodeIndex, status, found, substituted, inside,
    unavailable, -⟩
  unfold answered
  rw [treeAnswer_inMode_of_members found substituted]
  have leaves : ∃ failure, (verdict (planner.inMode .failOnFirstError) tree place
      (paramsAt planner place expression) newPredicate iterable nodeIndex).turn
        (planner.inMode .failOnFirstError) place nodeIndex = .exit failure := by
    change ∃ failure, (verdict planner tree place (paramsAt planner place expression)
      newPredicate iterable nodeIndex).turn _ _ _ = _
    rw [unavailable]
    simp only [Verdict.turn]
    split
    · exact ⟨_, rfl⟩
    · exact ⟨_, rfl⟩
  rcases leaves with ⟨failure, leaves⟩
  have insideMode : nodeIndex < (planner.inMode .failOnFirstError).views.size iterable := inside
  rcases membersAnswer_of_exit insideMode leaves with ⟨other, fails⟩
  rw [fails]

lemma Verdict.turn_missing {nodeIndex : Nat} {status : Status}
    (leaves : (verdict planner tree place params newPredicate iterable nodeIndex).turn
      (planner.inMode .failOnFirstError) place nodeIndex = .exit (.status status))
    (missing : status.code = .notFound) :
    ∃ other, verdict planner tree place params newPredicate iterable nodeIndex =
      .unavailable other ∧ other.code = .notFound := by
  cases judged : verdict planner tree place params newPredicate iterable nodeIndex with
  | unavailable other =>
    rw [judged] at leaves
    simp only [Verdict.turn] at leaves
    split at leaves
    · cases leaves
    · rename_i located reported
      cases leaves
      refine ⟨other, rfl, ?_⟩
      rw [<- statusAtResource_code reported]
      exact missing
  | nothing =>
    rw [judged] at leaves
    cases leaves
  | broken failure =>
    rw [judged] at leaves
    cases leaves
    unfold verdict at judged
    split at judged
    · cases judged
    · cases judged
    · split at judged
      · rename_i failed
        cases judged
        exact absurd missing (executePredicateExpression_not_missing failed)
      · cases judged
      · cases judged
  | refused =>
    rw [judged] at leaves
    cases leaves
  | accepted object =>
    rw [judged] at leaves
    cases leaves

/-- Without a missing member, an expression without an error is answered in the
same way in both modes. -/
lemma Calm.inMode
    (calm : Calm (planner.inMode .failOnFirstError) tree queryVariables place expression)
    (present : ¬ HasMissingMember planner tree queryVariables place expression) :
    Calm (planner.inMode .continueOnSubqueryErrors) tree queryVariables place expression ∧
      answered (planner.inMode .continueOnSubqueryErrors) tree queryVariables place expression =
        answered (planner.inMode .failOnFirstError) tree queryVariables place expression := by
  cases answers : treeAnswer (planner.inMode .failOnFirstError) tree queryVariables place
      expression with
  | ok responses =>
    rcases treeAnswer_ok_inMode answers with ⟨same, quiet⟩
    refine ⟨⟨quiet, ?_⟩, ?_⟩
    · intro failure fails
      rw [same] at fails
      cases fails
    · rw [answered, answered, answers, same]
  | error failure =>
    rcases calm.answer failure answers with ⟨status, rfl, missing⟩
    have same : treeAnswer (planner.inMode .continueOnSubqueryErrors) tree queryVariables
        place expression = .error (.status status) := by
      cases found : membersFor place.redfishResponse expression with
      | none =>
        rw [treeAnswer_inMode_of_no_members found] at answers ⊢
        exact answers
      | some iterable =>
        cases substituted : planner.substituteVariables expression.expression queryVariables with
        | error other =>
          rw [treeAnswer_inMode_of_substitution found substituted] at answers ⊢
          exact answers
        | ok newPredicate =>
          rw [treeAnswer_inMode_of_members found substituted] at answers
          rcases membersAnswer_cases place (paramsAt planner place expression)
            newPredicate iterable with all | ⟨nodeIndex, other, inside, leaves, left⟩
          · rw [all] at answers
            cases answers
          · rw [left] at answers
            cases answers
            rcases Verdict.turn_missing leaves missing with ⟨gone, unavailable, notThere⟩
            exact absurd ⟨iterable, newPredicate, nodeIndex, gone, found, substituted,
              inside, unavailable, notThere⟩ present
    refine ⟨⟨quietAt_of_missing same missing, ?_⟩, ?_⟩
    · intro other fails
      rw [same] at fails
      cases fails
      exact ⟨status, rfl, missing⟩
    · rw [answered, answered, answers, same]

/-! ## Whole runs in both modes -/

variable {interface : RedfishInterface World Object Iterable}
  {options : QueryExecutionOptions World Object Iterable}

/-- The run that continues on errors meets no error behind this expression, and normalises nothing.
-/
structure Unnoticed (planner : QueryPlanner World Object Iterable)
    (tree : ResourceTree Object Iterable) (queryVariables : QueryVariables)
    (place : Place Object Iterable) (expression : RedPathExpression) : Prop where
  calm : Calm (planner.inMode .continueOnSubqueryErrors) tree queryVariables place expression
  behind : ∀ response ∈ answered (planner.inMode .continueOnSubqueryErrors) tree queryVariables place
      expression, ∀ reached there,
    Comes (answered (planner.inMode .continueOnSubqueryErrors) tree queryVariables)
      expression.trieNode (place.next expression response) reached there ->
      reached.subqueryId = [] ∧ ∀ next ∈ reached.childExpressions,
        Calm (planner.inMode .continueOnSubqueryErrors) tree queryVariables there next

lemma Unnoticed.visitsBehind_eq_nil
    (unnoticed : Unnoticed planner tree queryVariables place expression) :
    visitsBehind (answered (planner.inMode .continueOnSubqueryErrors) tree queryVariables) place
      expression = [] := by
  refine flatMap_eq_nil_iff.mpr fun response selected => ?_
  exact expression.visits_of_unnamed _ fun reached there comes =>
    (unnoticed.behind response selected reached there comes).1

variable {node : RedPathTrieNode} {response : RedfishResponse Object Iterable}

lemma IsStatic.traverses_answered (static : IsStatic planner interface tree)
    (polling : options.queryType = .polling)
    (local_ : localInterface planner options = some interface)
    (normalises : Normalises planner tree options.urlAnnotationEnabled node ⟨[], response⟩)
    (fine : FineFrom planner tree options node ⟨[], response⟩) (world : World) :
    ∃ final, Traverses planner options node response world final ∧
      (answeredIdeal planner tree options).run node response = .ok final.observed ∧
      final.result.status = none := by
  have sameQuery : (answeredIdeal planner tree options).query = planner.query := rfl
  rcases static.traverses_refines polling local_ sameQuery
    (fun named => normalises.valueAt named)
    (fun reached place expression comes member => answered_matches (fun failure fails => by
        rcases (fine _ _ _ comes member).calm.answer failure fails with ⟨status, rfl, missing⟩
        exact ⟨status, rfl, .inl missing⟩)
      (fine _ _ _ comes member).normalises)
    (fun (_ : True) reached place expression comes member =>
      (fine _ _ _ comes member).calm.silent) world with ⟨final, traverses, ideally, quiet, -⟩
  exact ⟨final, traverses, ideally, quiet trivial⟩

lemma Traverses.unique {world : World} {first second : RunState World Object Iterable}
    (one : Traverses planner options node response world first)
    (other : Traverses planner options node response world second) : first = second := by
  rcases one with ⟨state, context, started, ran⟩
  rcases other with ⟨state', context', started', ran'⟩
  rw [started] at started'
  cases started'
  rw [ran] at ran'
  cases ran'
  rfl

/-- A traversal without an error status observes what the ideal one does that follows its answers.
-/
lemma IsStatic.traverses_clean (static : IsStatic planner interface tree)
    (proper : ProperErrors tree) (polling : options.queryType = .polling)
    (local_ : localInterface planner options = some interface) {world : World}
    {final : RunState World Object Iterable}
    (traverses : Traverses planner options node response world final)
    (clean : final.result.status = none) :
    Normalises planner tree options.urlAnnotationEnabled node ⟨[], response⟩ ∧
      FineFrom planner tree options node ⟨[], response⟩ ∧
      (answeredIdeal planner tree options).run node response = .ok final.observed := by
  rcases static.traverses_fine proper polling local_ traverses clean with ⟨normalises, fine⟩
  rcases static.traverses_answered polling local_ normalises fine world with
    ⟨other, traversesOther, ideally, -⟩
  cases traverses.unique traversesOther
  exact ⟨normalises, fine, ideally⟩

/-- The run that continues on errors returns the same data and has normalised the same resources. -/
def ModesAgree (planner : QueryPlanner World Object Iterable)
    (options : QueryExecutionOptions World Object Iterable)
    (timeoutManager : Option QueryTimeoutManager) (world : World)
    (result : QueryExecutionResult) : Prop :=
  ∃ other left after timing root strict lenient,
    run (planner.inMode .continueOnSubqueryErrors) options timeoutManager world =
      .returned other left after ∧
    other.queryResult.status = none ∧ other.queryResult.data = result.queryResult.data ∧
    RunEndsIn (planner.inMode .failOnFirstError) options timeoutManager world timing root strict ∧
    RunEndsIn (planner.inMode .continueOnSubqueryErrors) options timeoutManager world timing root
      lenient ∧
    strict.observed = lenient.observed

def ComesStrictly (planner : QueryPlanner World Object Iterable)
    (tree : ResourceTree Object Iterable)
    (options : QueryExecutionOptions World Object Iterable) (root : Object) :
    RedPathTrieNode -> Place Object Iterable -> Prop :=
  Comes (answered (planner.inMode .failOnFirstError) tree options.queryVariables)
    planner.redpathTrieRoot (rootPlace root)

/-- If all missing members go unnoticed, both traversals observe the same. -/
lemma FineFrom.inMode {root : Object}
    (fine : FineFrom (planner.inMode .failOnFirstError) tree options planner.redpathTrieRoot
      (rootPlace root)) (unnoticed : ∀ node place expression,
      ComesStrictly planner tree options root node place ->
      expression ∈ node.childExpressions ->
      HasMissingMember planner tree options.queryVariables place expression ->
        Unnoticed planner tree options.queryVariables place expression) :
    FineFrom (planner.inMode .continueOnSubqueryErrors) tree options planner.redpathTrieRoot
        (rootPlace root) ∧
      ∀ node place expression,
        Comes (answered (planner.inMode .continueOnSubqueryErrors) tree options.queryVariables)
          planner.redpathTrieRoot (rootPlace root) node place ->
        expression ∈ node.childExpressions ->
          answered (planner.inMode .failOnFirstError) tree options.queryVariables place
              expression =
            answered (planner.inMode .continueOnSubqueryErrors) tree options.queryVariables place
              expression ∨
          visitsBehind (answered (planner.inMode .continueOnSubqueryErrors) tree
            options.queryVariables) place expression = [] := by
  -- A place is come to in both modes, or it lies behind a collection with a missing member.
  have places : ∀ node place,
      Comes (answered (planner.inMode .continueOnSubqueryErrors) tree options.queryVariables)
        planner.redpathTrieRoot (rootPlace root) node place ->
      ComesStrictly planner tree options root node place ∨
        ∀ reached there,
          Comes (answered (planner.inMode .continueOnSubqueryErrors) tree options.queryVariables)
            node place reached there ->
          reached.subqueryId = [] ∧ ∀ next ∈ reached.childExpressions,
            Calm (planner.inMode .continueOnSubqueryErrors) tree options.queryVariables there
              next := by
    intro node place comes
    induction comes with
    | start => exact .inl .start
    | @step node place expression response came member selected ih =>
      rcases ih with strictly | behind
      · by_cases missing : HasMissingMember planner tree options.queryVariables place expression
        · exact .inr ((unnoticed _ _ _ strictly member missing).behind response selected)
        · have same := ((fine _ _ _ strictly member).calm.inMode missing).2
          rw [same] at selected
          exact .inl (.step strictly member selected)
      · refine .inr fun reached there onward => behind reached there ?_
        exact (Comes.start.step member selected).trans onward
  constructor
  · intro node place expression comes member
    rcases places node place comes with strictly | behind
    · by_cases missing : HasMissingMember planner tree options.queryVariables place expression
      · have hidden := unnoticed _ _ _ strictly member missing
        refine ⟨hidden.calm, fun response selected named => ?_⟩
        exact absurd (hidden.behind response selected _ _ .start).1 named
      · have here := fine _ _ _ strictly member
        rcases here.calm.inMode missing with ⟨calm, same⟩
        refine ⟨calm, fun response selected => ?_⟩
        rw [same] at selected
        exact here.normalises response selected
    · refine ⟨(behind _ _ .start).2 expression member, fun response selected named => ?_⟩
      exact absurd (behind _ _ (Comes.start.step member selected)).1 named
  · intro node place expression comes member
    rcases places node place comes with strictly | behind
    · by_cases missing : HasMissingMember planner tree options.queryVariables place expression
      · exact .inr (unnoticed _ _ _ strictly member missing).visitsBehind_eq_nil
      · exact .inl ((fine _ _ _ strictly member).calm.inMode missing).2.symm
    · refine .inr (flatMap_eq_nil_iff.mpr fun response selected => ?_)
      exact expression.visits_of_unnamed _ fun reached there onward =>
        (behind reached there ((Comes.start.step member selected).trans onward)).1

/-- Where a collection with a missing member has nothing to visit behind it, or is the same in both
modes, it goes unnoticed. -/
lemma FineFrom.unnoticed {root : Object}
    (fine : FineFrom (planner.inMode .continueOnSubqueryErrors) tree options
      planner.redpathTrieRoot (rootPlace root))
    (comes : Comes (answered (planner.inMode .continueOnSubqueryErrors) tree
      options.queryVariables) planner.redpathTrieRoot (rootPlace root) node place)
    (member : expression ∈ node.childExpressions)
    (missing : HasMissingMember planner tree options.queryVariables place expression)
    (lossless : answered (planner.inMode .failOnFirstError) tree options.queryVariables place
          expression =
        answered (planner.inMode .continueOnSubqueryErrors) tree options.queryVariables place
          expression ∨
      visitsBehind (answered (planner.inMode .continueOnSubqueryErrors) tree
        options.queryVariables) place expression = []) :
    Unnoticed planner tree options.queryVariables place expression := by
  have nothing : visitsBehind (answered (planner.inMode .continueOnSubqueryErrors) tree
      options.queryVariables) place expression = [] := by
    rcases lossless with same | nothing
    · rw [missing.answered_eq_nil] at same
      rw [visitsBehind, <- same]
      rfl
    · exact nothing
  refine ⟨(fine _ _ _ comes member).calm, ?_⟩
  intro response selected reached there onward
  rcases visits_eq_nil_of_behind nothing selected with ⟨unnamed, behind⟩
  refine ⟨(onward.unnamed unnamed behind).1, fun next listed => ?_⟩
  exact (fine _ _ _ ((comes.step member selected).trans onward) listed).calm

/-- For every query and static tree: if the run that fails on the first error returns without an
error status, then the run that continues on errors returns the same data and no error status,
exactly when every collection with a missing member that the former comes to goes unnoticed in the
latter. -/
theorem IsStatic.modes_agree_iff (static : IsStatic planner interface tree)
    (proper : ProperErrors tree) (steady : SteadyEnd planner)
    (polling : options.queryType = .polling)
    (local_ : localInterface planner options = some interface)
    {timeoutManager left : Option QueryTimeoutManager} {world after : World}
    {result : QueryExecutionResult}
    (returned : run (planner.inMode .failOnFirstError) options timeoutManager world =
      .returned result left after)
    (clean : result.queryResult.status = none) :
    ModesAgree planner options timeoutManager world result ↔
      ∀ timing root, GetsRoot planner options timeoutManager world timing root ->
        ∀ node place expression, ComesStrictly planner tree options root node place ->
          expression ∈ node.childExpressions ->
          HasMissingMember planner tree options.queryVariables place expression ->
            Unnoticed planner tree options.queryVariables place expression := by
  rcases run_clean_inv returned clean with ⟨timing, root, strict, ends⟩
  rcases steady.finishRun options timing with ⟨change, keeps, finish⟩
  rcases finish .failOnFirstError strict with ⟨_, _, _, finished, values⟩
  rw [ends.returns, finished] at returned
  cases returned
  have strictClean : strict.result.status = none :=
    keeps strict.result.data _ (by rw [<- values]; exact clean)
  rcases (static.inMode .failOnFirstError).traverses_clean proper polling local_ ends.traverses
    strictClean with ⟨normalises, fine, strictly⟩
  have passes : PassesOver (answeredIdeal (planner.inMode .continueOnSubqueryErrors) tree
      options).select (answered (planner.inMode .failOnFirstError) tree options.queryVariables) :=
    answered_inMode_passesOver _
  have compare := (answeredIdeal (planner.inMode .continueOnSubqueryErrors) tree
    options).run_withSelect_eq_iff passes planner.redpathTrieRoot (.ofObject (some root))
  change (answeredIdeal (planner.inMode .failOnFirstError) tree options).run
    planner.redpathTrieRoot (.ofObject (some root)) = _ ↔ _ at compare
  rw [show (answeredIdeal (planner.inMode .failOnFirstError) tree options).run
    planner.redpathTrieRoot (.ofObject (some root)) = .ok strict.observed from strictly] at compare
  constructor
  · rintro ⟨other, otherLeft, otherAfter, otherTiming, otherRoot, otherStrict, lenient,
      returnedOther, cleanOther, -, endsStrict, endsLenient, observed⟩ anyTiming anyRoot gets
      node place expression comes member missing
    cases ends.gets.fetched.symm.trans gets.fetched
    cases ends.gets.fetched.symm.trans endsLenient.gets.fetched
    cases ends.gets.started.symm.trans endsLenient.gets.started
    cases ends.traverses.unique endsStrict.traverses
    have lenientClean : lenient.result.status = none := by
      rcases finish .continueOnSubqueryErrors lenient with ⟨_, _, _, ended, otherValues⟩
      rw [endsLenient.returns, ended] at returnedOther
      cases returnedOther
      exact keeps lenient.result.data _ (by rw [<- otherValues]; exact cleanOther)
    rcases (static.inMode .continueOnSubqueryErrors).traverses_clean proper polling local_
      endsLenient.traverses lenientClean with ⟨-, otherFine, leniently⟩
    apply otherFine.unnoticed (comes.widen passes) member missing
    apply compare.mp _ node place expression (comes.widen passes) member
    rw [observed]
    exact leniently.symm
  · intro unnoticed
    rcases fine.inMode (unnoticed timing root
      ⟨ends.gets.started, ends.gets.fetched⟩) with ⟨otherFine, lossless⟩
    rcases (static.inMode .continueOnSubqueryErrors).traverses_answered polling local_
      normalises otherFine (worldAtRoot planner options timeoutManager world) with
      ⟨lenient, otherTraverses, leniently, lenientClean⟩
    have observed : strict.observed = lenient.observed := by
      have same := compare.mpr lossless
      rw [show (answeredIdeal (planner.inMode .continueOnSubqueryErrors) tree options).run
        planner.redpathTrieRoot (.ofObject (some root)) = .ok lenient.observed from leniently]
        at same
      exact Except.ok.inj same
    have gets : GetsRoot (planner.inMode .continueOnSubqueryErrors) options timeoutManager world
        timing root := ⟨ends.gets.started, ends.gets.fetched⟩
    have endsLenient := gets.runEndsIn _ _ otherTraverses
    rcases finish .continueOnSubqueryErrors lenient with ⟨other, otherLeft, otherAfter, ended,
      otherValues⟩
    have sameData : lenient.result.data = strict.result.data := congrArg Observed.data observed.symm
    rw [lenientClean, sameData] at otherValues
    rw [strictClean, <- otherValues] at values
    refine ⟨other, otherLeft, otherAfter, timing, root, strict, lenient,
      endsLenient.returns.trans ended, ?_, ?_, ends, endsLenient, observed⟩
    · exact (congrArg Prod.snd values).symm.trans clean
    · exact (congrArg Prod.fst values).symm

end

/-! ### Concrete runs -/

/-- A collection whose second member is not found. -/
def missingTable : ServiceTable :=
  { chassisTable with members := [(1, [.ofObject 2, ServiceTable.absent])] }

def missingPlanner : QueryPlanner Unit Nat Nat :=
  tablePlanner missingTable [plainSubquery (text "chassis") []] (.mk [] [chassisNode])
    .failOnFirstError

/-- Both runs return without an error status, but the first one has lost the member
that is there. -/
theorem missing_member_hides_others :
    ∃ strict lenient,
      run (missingPlanner.inMode .failOnFirstError) pollingOptions none () =
        .returned strict none () ∧
      strict.queryResult.status = none ∧ strict.queryResult.data = [] ∧
      run (missingPlanner.inMode .continueOnSubqueryErrors) pollingOptions none () =
        .returned lenient none () ∧
      lenient.queryResult.status = none ∧
      lenient.queryResult.data =
        [(text "chassis", .list [.subquery [(text "Number", .int 2)]])] := by
  have ranStrictly : ∃ final,
      RunEndsIn (missingPlanner.inMode .failOnFirstError) pollingOptions none () none 0 final ∧
        final.result.status = none ∧ final.result.data = [] :=
    ⟨_, .within ⟨rfl, rfl⟩ rfl 4 rfl, rfl, rfl⟩
  have ranLeniently : ∃ final,
      RunEndsIn (missingPlanner.inMode .continueOnSubqueryErrors) pollingOptions none () none 0
          final ∧ final.result.status = none ∧
        final.result.data = [(text "chassis", .list [.subquery [(text "Number", .int 2)]])] :=
    ⟨_, .within ⟨rfl, rfl⟩ rfl 5 rfl, rfl, rfl⟩
  rcases ranStrictly with ⟨strict, ends, status, data⟩
  rcases ranLeniently with ⟨lenient, otherEnds, otherStatus, otherData⟩
  exact ⟨_, _, ends.returns, status, data, otherEnds.returns, otherStatus, otherData⟩

/-- A collection with a missing member and one that is refused. -/
def refusedTable : ServiceTable where
  root := .ofObject 0
  nodes := [((0, text "Chassis"), collection 1)]
  members := [(1, [ServiceTable.absent, .ofObject 2])]
  contents := [(2, .object [(text "Size", .integer 3)])]

def refusedPlanner : QueryPlanner Unit Nat Nat :=
  tablePlanner refusedTable [plainSubquery (text "large") []] (.mk [] [largeChassis])
    .failOnFirstError

/-- No object of a table fails to be normalised. -/
lemma properErrors_table (table : ServiceTable) : ProperErrors table.tree := by
  intro object subquery urlAnnotationEnabled status failed
  cases failed

lemma refusedPlanner_comes {node : RedPathTrieNode} {place : Place Nat Nat}
    (comes : ComesStrictly refusedPlanner refusedTable.tree pollingOptions 0 node place) :
    (node = .mk [] [largeChassis] ∧ place = rootPlace 0) ∨
      (node = .mk [] [largeMembers] ∧ place = ⟨text "/Chassis", ⟨some 1, some 1, none⟩⟩) := by
  induction comes with
  | start => exact .inl ⟨rfl, rfl⟩
  | step came member selected ih =>
    rcases ih with ⟨rfl, rfl⟩ | ⟨rfl, rfl⟩
    · cases mem_singleton.mp member
      cases mem_singleton.mp selected
      exact .inr ⟨rfl, rfl⟩
    · cases mem_singleton.mp member
      exact nomatch selected

/-- The missing member goes unnoticed where no other member is selected. -/
lemma refusedPlanner_unnoticed :
    Unnoticed refusedPlanner refusedTable.tree [] ⟨text "/Chassis", ⟨some 1, some 1, none⟩⟩
      largeMembers := by
  refine ⟨⟨?_, nofun⟩, nofun⟩
  intro iterable newPredicate found substituted nodeIndex inside
  cases found
  cases substituted
  change nodeIndex < 2 at inside
  interval_cases nodeIndex
  · rintro ⟨-, other⟩
    exact other rfl
  · exact id

/-- The two modes agree on this collection. -/
theorem modes_agree_refusedPlanner :
    ∃ result left after,
      run (refusedPlanner.inMode .failOnFirstError) pollingOptions none () =
        .returned result left after ∧
      result.queryResult.status = none ∧
      ModesAgree refusedPlanner pollingOptions none () result := by
  have ran : ∃ final,
      RunEndsIn (refusedPlanner.inMode .failOnFirstError) pollingOptions none () none 0 final ∧
        final.result.status = none := ⟨_, .within ⟨rfl, rfl⟩ rfl 4 rfl, rfl⟩
  rcases ran with ⟨final, ends, clean⟩
  have static : IsStatic refusedPlanner refusedTable.interface refusedTable.tree :=
    tablePlanner_isStatic _ _ _ _
  have steady : SteadyEnd refusedPlanner := ⟨⟨0, .pure _⟩, nofun⟩
  refine ⟨_, _, _, ends.returns, clean,
    (static.modes_agree_iff (properErrors_table _) steady rfl rfl ends.returns clean).mpr ?_⟩
  intro timing root found node place expression comes member missing
  cases found.fetched
  rcases refusedPlanner_comes comes with ⟨rfl, rfl⟩ | ⟨rfl, rfl⟩
  · cases List.mem_singleton.mp member
    rcases missing with ⟨iterable, newPredicate, nodeIndex, status, impossible, -⟩
    cases impossible
  · cases List.mem_singleton.mp member
    exact refusedPlanner_unnoticed

end Ecclesia.Planner
