import Ecclesia.Planner.Isolation

namespace Ecclesia.Planner

open Absl List Option

/-!
# What a clean run says about its tree

A run that comes to its end without an error status has met no error: wherever
it came to, the answers are fine and the values can be built.  This is read
off backwards, from the end of the traversal to its start.
-/

variable {World Object Iterable : Type} {planner : QueryPlanner World Object Iterable}
  {tree : ResourceTree Object Iterable} {interface : RedfishInterface World Object Iterable}
  {options : QueryExecutionOptions World Object Iterable}

/-- An error of the normalizer is a status that is not OK, as in every
`absl::StatusOr`. -/
def ProperErrors (tree : ResourceTree Object Iterable) : Prop :=
  ∀ object subquery urlAnnotationEnabled status,
    tree.normalize object subquery urlAnnotationEnabled = .error status -> status.isOk = false

/-! ## Normalisation -/

variable {place : Place Object Iterable} {status : Status}

lemma treeValue_error_not_ok (proper : ProperErrors tree) {urlAnnotationEnabled : Bool}
    {subqueryId : Text}
    (fails : treeValue planner tree urlAnnotationEnabled subqueryId place = .error status) :
    status.isOk = false := by
  unfold treeValue at fails
  cases known : findSubquery planner.query subqueryId with
  | none =>
    rw [known] at fails
    cases fails
    rfl
  | some subquery =>
    rw [known] at fails
    simp only at fails
    cases raw : rawValueFor subquery place.redfishResponse with
    | some value =>
      rw [raw] at fails
      cases fails
    | none =>
      rw [raw] at fails
      cases shown : place.redfishResponse.redfishObject with
      | none =>
        rw [shown] at fails
        cases fails
        rfl
      | some object =>
        rw [shown] at fails
        simp only at fails
        cases normalized : tree.normalize object subquery urlAnnotationEnabled with
        | ok fields =>
          rw [normalized] at fails
          cases fails
        | error other =>
          rw [normalized] at fails
          simp only at fails
          split_ifs at fails
          cases fails
          exact proper _ _ _ _ normalized

variable {context : QueryExecutionContext Object Iterable} {world : World}

/-- A value can be built if `TryNormalize` succeeds. -/
lemma IsStatic.treeValue_of_tryNormalize (static : IsStatic planner interface tree)
    (proper : ProperErrors tree) {urlAnnotationEnabled : Bool} {subqueryId : Text}
    {given : Option (RedfishInterface World Object Iterable)} {result : QueryResult}
    (fine : (tryNormalize planner subqueryId given context urlAnnotationEnabled result
      world).1.1.isOk = true) :
    ∃ value, treeValue planner tree urlAnnotationEnabled subqueryId context.place = .ok value := by
  cases fails : treeValue planner tree urlAnnotationEnabled subqueryId context.place with
  | ok value => exact ⟨value, rfl⟩
  | error status =>
    have bad := treeValue_error_not_ok proper fails
    unfold tryNormalize at fine
    cases known : findSubquery planner.query subqueryId with
    | none =>
      rw [known] at fine
      cases fine
    | some subquery =>
      have values := static.buildQueryValue_values known given context urlAnnotationEnabled world
      rw [fails] at values
      rw [known] at fine
      simp only [bind, StateT.bind] at fine
      rcases ran : buildQueryValue planner subquery subqueryId given context
        urlAnnotationEnabled world with ⟨built, after⟩
      rw [ran] at fine values
      cases built with
      | ok found => cases values
      | error other =>
        cases values
        change status.isOk = true at fine
        rw [bad] at fine
        cases fine

variable {trieNode : RedPathTrieNode} {state after : RunState World Object Iterable}

lemma IsStatic.normalizeContext_inv (static : IsStatic planner interface tree)
    (proper : ProperErrors tree) {next : QueryExecutionContext Object Iterable}
    (normalized : normalizeContext planner options trieNode context state = .ok (after, next)) :
    Normalises planner tree options.urlAnnotationEnabled trieNode context.place := by
  unfold normalizeContext at normalized
  by_cases unnamed : trieNode.subqueryId.isEmpty
  · exact fun named => absurd (List.isEmpty_iff.mp unnamed) named
  · simp only at normalized
    split_ifs at normalized with fine
    exact fun _ => static.treeValue_of_tryNormalize proper fine

variable {contexts found : List (QueryExecutionContext Object Iterable)}

lemma IsStatic.normalizeContexts_inv (static : IsStatic planner interface tree)
    (proper : ProperErrors tree)
    (normalized : normalizeContexts planner options trieNode contexts state = .ok (after, found)) :
    ∀ context ∈ contexts,
      Normalises planner tree options.urlAnnotationEnabled trieNode context.place := by
  induction contexts generalizing state after found with
  | nil => exact nofun
  | cons context rest ih =>
    rcases bind_ok normalized with ⟨⟨between, first⟩, ranFirst, others⟩
    rcases bind_ok others with ⟨⟨later, others⟩, ranRest, -⟩
    exact forall_mem_cons.mpr ⟨static.normalizeContext_inv proper ranFirst, ih ranRest⟩

/-! ## Expressions -/

variable {expression : RedPathExpression} {queryVariables : QueryVariables}
  {responses : List (RedfishResponse Object Iterable)}

/-- If every member has its turn and none leaves the loop, a clean state shows that
no member was loud. -/
lemma IsStatic.executeForResponses_clean (static : IsStatic planner interface tree)
    (answers : treeAnswer planner tree queryVariables context.place expression = .ok responses)
    {state : ExecutionState World}
    (clean : (executeForResponses planner .polling expression context queryVariables
      (some interface) state).2.status = none) :
    QuietAt planner tree queryVariables context.place expression := by
  intro iterable newPredicate found substituted nodeIndex inside
  unfold treeAnswer at answers
  rw [found] at answers
  simp only [substituted] at answers
  unfold executeForResponses at clean
  change membersFor context.redfishResponse expression = some iterable at found
  rw [found] at clean
  simp only [substituted] at clean
  refine static.executeMembers_clean expression context _ newPredicate iterable ?_ clean nodeIndex
    (mem_range.mpr inside)
  intro other listed failure leaves
  rcases membersAnswer_of_exit (mem_range.mp listed) leaves with ⟨failed, fails⟩
  change membersAnswer planner tree context.place (paramsAt planner context.place expression)
    newPredicate iterable = .error failed at fails
  rw [answers] at fails
  cases fails

/-- No error is met at this expression.  A missing resource is no error. -/
structure Calm (planner : QueryPlanner World Object Iterable)
    (tree : ResourceTree Object Iterable) (queryVariables : QueryVariables)
    (place : Place Object Iterable) (expression : RedPathExpression) : Prop where
  members : QuietAt planner tree queryVariables place expression
  answer : ∀ failure,
    treeAnswer planner tree queryVariables place expression = .error failure ->
      ∃ status, failure = .status status ∧ status.code = .notFound

lemma Calm.silent (calm : Calm planner tree queryVariables place expression) :
    Silent planner tree queryVariables place expression := by
  refine ⟨calm.members, ?_⟩
  intro status fails
  rcases calm.answer _ fails with ⟨other, same, missing⟩
  cases same
  exact missing

variable {response : RedfishResponse Object Iterable}

lemma executePredicateExpression_not_missing {predicate : Text} {nodeIndex nodeSetSize : Nat}
    {object : Object}
    (fails : executePredicateExpression planner predicate nodeIndex nodeSetSize response object =
      .error (.status status)) : status.code ≠ .notFound := by
  unfold executePredicateExpression at fails
  have own := Predicates.applyPredicateRule_ownErrors planner.numbers
    (planner.views.getContentAsJson object) ⟨predicate, nodeIndex, nodeSetSize⟩
  split at fails
  · cases fails
  · cases fails
  · rename_i original rule
    have code : status.code = original.code := statusAtResource_code (Except.error.inj fails)
    rcases own original rule with internal | invalid
    · rw [code, internal]
      exact nofun
    · rw [code, invalid]
      exact nofun

/-- A member that leaves the loop of a run that continues on errors is not reported as missing. -/
lemma membersAnswer_not_missing (mode : planner.executionMode = .continueOnSubqueryErrors)
    {params : GetParams} {newPredicate : Text} {iterable : Iterable}
    (fails : membersAnswer planner tree place params newPredicate iterable =
      .error (.status status)) : status.code ≠ .notFound := by
  rcases membersAnswer_cases place params newPredicate iterable with
    all | ⟨nodeIndex, failure, inside, leaves, left⟩
  · rw [all] at fails
    cases fails
  · rw [left] at fails
    cases fails
    have broken := Verdict.turn_exit mode leaves
    unfold verdict at broken
    split at broken
    · cases broken
    · cases broken
    · split at broken
      · rename_i failed
        cases broken
        exact executePredicateExpression_not_missing failed
      · cases broken
      · cases broken

/-- In a run that fails on the first error no member is loud, and in the other mode none is missing.
-/
lemma quietAt_of_missing
    (fails : treeAnswer planner tree queryVariables place expression = .error (.status status))
    (missing : status.code = .notFound) : QuietAt planner tree queryVariables place expression := by
  intro iterable newPredicate found substituted nodeIndex inside loud
  have mode : planner.executionMode = .continueOnSubqueryErrors := by
    unfold Loud at loud
    split at loud
    · exact loud.1
    · exact loud.elim
  unfold treeAnswer at fails
  rw [found] at fails
  simp only [substituted] at fails
  exact membersAnswer_not_missing mode fails missing

/-- No error is met at this expression, and what it selects can be normalised. -/
structure FineAt (planner : QueryPlanner World Object Iterable)
    (tree : ResourceTree Object Iterable)
    (options : QueryExecutionOptions World Object Iterable) (place : Place Object Iterable)
    (expression : RedPathExpression) : Prop where
  calm : Calm planner tree options.queryVariables place expression
  normalises : ∀ response ∈ answered planner tree options.queryVariables place expression,
      Normalises planner tree options.urlAnnotationEnabled expression.trieNode
        (place.next expression response)

/-- The contexts that were found are those of the answer. -/
structure FoundBy (planner : QueryPlanner World Object Iterable)
    (tree : ResourceTree Object Iterable) (queryVariables : QueryVariables)
    (context : QueryExecutionContext Object Iterable) (expression : RedPathExpression)
    (found : List (QueryExecutionContext Object Iterable)) : Prop where
  trieNode : ∀ next ∈ found, next.redpathTrieNode = expression.trieNode
  uris : ∀ next ∈ found, next.urisToSubscribe = []
  places : found.map QueryExecutionContext.place =
    (answered planner tree queryVariables context.place expression).map
      (context.place.next expression)

lemma FineAt.of_answer
    (answers : treeAnswer planner tree options.queryVariables place expression = .ok responses)
    (quiet : QuietAt planner tree options.queryVariables place expression)
    (fine : ∀ response ∈ responses,
      Normalises planner tree options.urlAnnotationEnabled expression.trieNode
        (place.next expression response)) : FineAt planner tree options place expression := by
  refine ⟨⟨quiet, ?_⟩, ?_⟩
  · intro failure impossible
    rw [answers] at impossible
    cases impossible
  · intro response selected
    rw [answered, answers] at selected
    exact fine response selected

lemma FineAt.of_missing (fails : treeAnswer planner tree options.queryVariables place expression =
      .error (.status status)) (missing : status.code = .notFound) :
    FineAt planner tree options place expression := by
  refine ⟨⟨quietAt_of_missing fails missing, ?_⟩, ?_⟩
  · intro other same
    rw [fails] at same
    cases same
    exact ⟨status, rfl, missing⟩
  · rw [answered, fails]
    exact nofun

lemma FoundBy.of_answer
    (answers : treeAnswer planner tree options.queryVariables context.place expression =
      .ok responses) (handed : Forall₂ (HandedOn expression.trieNode)
      (context.contextsFor expression responses) found) :
    FoundBy planner tree options.queryVariables context expression found := by
  refine ⟨?_, ?_, ?_⟩
  · intro next listed
    rcases handedOn_of_mem handed listed with ⟨-, -, results, rfl⟩
    rfl
  · intro next listed
    rcases handedOn_of_mem handed listed with ⟨source, listedSource, results, rfl⟩
    rcases mem_map.mp listedSource with ⟨response, -, rfl⟩
    rfl
  · rw [answered, answers]
    generalize responses = selected at handed
    induction selected generalizing found with
    | nil =>
      cases handed
      rfl
    | cons response rest ih =>
      cases handed with
      | cons here later =>
        rcases here with ⟨results, rfl⟩
        exact congrArg _ (ih later)

lemma IsStatic.followExpression_inv (static : IsStatic planner interface tree)
    (proper : ProperErrors tree) (polling : options.queryType = .polling)
    (local_ : localInterface planner options = some interface)
    {changed : QueryExecutionContext Object Iterable} (plain : context.urisToSubscribe = [])
    (followed : followExpression planner options state context expression =
      .ok (after, changed, found)) :
    changed = context ∧
      FoundBy planner tree options.queryVariables context expression found ∧
      (after.result.status = none -> state.result.status = none ∧
        FineAt planner tree options context.place expression) := by
  have yields := static.executeForResponses_yields expression context options.queryVariables
    (state.toExecution context)
  have quiet : ∀ responses,
      treeAnswer planner tree options.queryVariables context.place expression = .ok responses ->
      (executeForResponses planner .polling expression context options.queryVariables
        (some interface) (state.toExecution context)).2.status = none ->
      QuietAt planner tree options.queryVariables context.place expression :=
    fun _ answers => static.executeForResponses_clean answers
  unfold followExpression at followed
  rw [polling, local_] at followed
  simp only [executeQueryExpression_fst, executeQueryExpression_snd] at followed
  generalize (executeForResponses planner .polling expression context options.queryVariables
    (some interface) (state.toExecution context)) = executed at yields quiet followed
  rcases executed with ⟨answer, ended⟩
  rcases yields with ⟨rfl, uris, -, clean⟩
  have sameContext : { context with urisToSubscribe := ended.urisToSubscribe } = context := by
    rw [uris]
    rfl
  rw [sameContext] at followed
  cases fails : treeAnswer planner tree options.queryVariables context.place expression with
  | ok responses =>
    rw [fails] at followed
    simp only [respond, populateSubscriptionContext_nil _ plain] at followed
    rcases bind_ok followed with ⟨⟨later, others⟩, ran, same⟩
    cases same
    have fine := static.normalizeContexts_inv proper ran
    rcases normalizeContexts_handsOn planner options ran with ⟨handed, status, -⟩
    refine ⟨rfl, .of_answer fails handed, ?_⟩
    intro cleanAfter
    rw [status] at cleanAfter
    refine ⟨clean cleanAfter, .of_answer fails (quiet responses fails cleanAfter) ?_⟩
    intro response selected
    exact fine _ (mem_map_of_mem selected)
  | error failure =>
    have selects : answered planner tree options.queryVariables context.place expression = [] := by
      rw [answered, fails]
    rw [fails] at followed
    simp only [Except.map, respond] at followed
    cases failure with
    | exception what => cases followed
    | status status =>
      simp only at followed
      by_cases missing : status.code = .notFound
      · rw [if_pos missing] at followed
        cases followed
        refine ⟨rfl, ⟨forall_mem_nil _, forall_mem_nil _, by rw [selects]; rfl⟩, ?_⟩
        intro cleanAfter
        exact ⟨clean cleanAfter, .of_missing fails missing⟩
      · split_ifs at followed
        cases followed
        refine ⟨rfl, ⟨forall_mem_nil _, forall_mem_nil _, by rw [selects]; rfl⟩, ?_⟩
        intro impossible
        cases impossible

/-! ## Traversals -/

variable {node : RedPathTrieNode}

lemma Comes.first {select : Place Object Iterable -> RedPathExpression ->
      List (RedfishResponse Object Iterable)} {root : RedPathTrieNode}
    {start : Place Object Iterable} (comes : Comes select root start node place) :
    (node = root ∧ place = start) ∨
      ∃ expression response, expression ∈ root.childExpressions ∧
        response ∈ select start expression ∧
        Comes select expression.trieNode (start.next expression response) node place := by
  induction comes with
  | start => exact .inl ⟨rfl, rfl⟩
  | @step node place expression response came member selected ih =>
    rcases ih with ⟨rfl, rfl⟩ | ⟨first, reached, listed, chosen, onward⟩
    · exact .inr ⟨expression, response, member, selected, .start⟩
    · exact .inr ⟨first, reached, listed, chosen, .step onward member selected⟩

def FineFrom (planner : QueryPlanner World Object Iterable) (tree : ResourceTree Object Iterable)
    (options : QueryExecutionOptions World Object Iterable) (root : RedPathTrieNode)
    (start : Place Object Iterable) : Prop :=
  ∀ node place expression,
    Comes (answered planner tree options.queryVariables) root start node place ->
    expression ∈ node.childExpressions -> FineAt planner tree options place expression

variable {final : RunState World Object Iterable}

lemma IsStatic.runSearch_fine (static : IsStatic planner interface tree)
    (proper : ProperErrors tree) (polling : options.queryType = .polling)
    (local_ : localInterface planner options = some interface)
    (plain : context.urisToSubscribe = [])
    (ran : (runSearch planner options).run state context = .ok final)
    (clean : final.result.status = none) :
    FineFrom planner tree options context.redpathTrieNode context.place := by
  let passes (current : QueryExecutionContext Object Iterable) (expression : RedPathExpression) :=
    FineAt planner tree options current.place expression ∧
      ∀ response ∈ answered planner tree options.queryVariables current.place expression,
          FineFrom planner tree options expression.trieNode (current.place.next expression response)
  have dones : ∀ current : QueryExecutionContext Object Iterable,
      (∀ expression ∈ current.redpathTrieNode.childExpressions, passes current expression) ->
      FineFrom planner tree options current.redpathTrieNode current.place := by
    intro current all node place expression comes member
    rcases comes.first with ⟨rfl, rfl⟩ | ⟨first, response, listed, selected, onward⟩
    · exact (all expression member).1
    · exact (all first listed).2 response selected node place expression onward member
  have backward := (runSearch planner options).explore_backward (fun _ _ _ _ _ _ sound followed =>
      ⟨(static.followExpression_inv proper polling local_ sound followed).1,
        (static.followExpression_inv proper polling local_ sound followed).2.1.uris⟩)
    (fun before current expression after changed found sound followed cleanAfter => by
      rcases static.followExpression_inv proper polling local_ sound followed with
        ⟨-, foundBy, inverted⟩
      rcases inverted cleanAfter with ⟨cleanBefore, fine⟩
      refine ⟨cleanBefore, fun (done : ∀ next ∈ found,
        FineFrom planner tree options next.redpathTrieNode next.place) => ⟨fine, ?_⟩⟩
      intro response selected
      have among := mem_map_of_mem (f := current.place.next expression) selected
      rw [<- foundBy.places] at among
      rcases mem_map.mp among with ⟨next, listed, same⟩
      have here := done next listed
      rw [foundBy.trieNode next listed, same] at here
      exact here)
    (fun current _ all => dones current all) plain (forall_mem_nil _) ran clean
  exact dones context backward.2.1

lemma normalizeContexts_error_status {timingEnded : Bool}
    (failed : normalizeContexts planner options trieNode contexts state =
      .error (.returned timingEnded final)) : final.result.status ≠ none := by
  induction contexts generalizing state with
  | nil => cases failed
  | cons context rest ih =>
    rcases bind_error failed with first | ⟨⟨between, next⟩, -, later⟩
    · unfold normalizeContext at first
      simp only at first
      split_ifs at first
      cases first
      exact nofun
    · rcases bind_error later with others | ⟨⟨after, found⟩, -, ended⟩
      · exact ih others
      · cases ended

lemma followExpression_error_status {timingEnded : Bool}
    (followed : followExpression planner options state context expression =
      .error (.returned timingEnded final)) : final.result.status ≠ none := by
  simp only [followExpression, respond] at followed
  split at followed
  · cases followed
  · split_ifs at followed
    · cases followed
      exact some_ne_none _
    · cases followed
      exact some_ne_none _
  · rcases bind_error followed with failed | ⟨⟨after, found⟩, -, ended⟩
    · exact normalizeContexts_error_status failed
    · cases ended

lemma IsStatic.startTraversal_inv (static : IsStatic planner interface tree)
    (proper : ProperErrors tree)
    (started : startTraversal planner options node response world = .ok (state, context)) :
    Normalises planner tree options.urlAnnotationEnabled node ⟨[], response⟩ := by
  unfold startTraversal at started
  by_cases unnamed : node.subqueryId.isEmpty
  · exact fun named => absurd (List.isEmpty_iff.mp unnamed) named
  · simp only [if_neg unnamed] at started
    split_ifs at started with fine
    exact fun _ => static.treeValue_of_tryNormalize proper fine

lemma IsStatic.traverses_fine (static : IsStatic planner interface tree)
    (proper : ProperErrors tree) (polling : options.queryType = .polling)
    (local_ : localInterface planner options = some interface)
    (traverses : Traverses planner options node response world final)
    (clean : final.result.status = none) :
    Normalises planner tree options.urlAnnotationEnabled node ⟨[], response⟩ ∧
      FineFrom planner tree options node ⟨[], response⟩ := by
  rcases traverses with ⟨state, context, started, ran⟩
  have normalises := static.startTraversal_inv proper started
  rcases (startTraversal_fresh planner options started).1 with ⟨results, rfl⟩
  exact ⟨normalises, static.runSearch_fine proper polling local_ rfl ran clean⟩

variable {result : QueryExecutionResult} {timeoutManager left : Option QueryTimeoutManager}

section

variable {after : World}
  (returned : run planner options timeoutManager world = .returned result left after)

include returned

/-- A run that returns traverses its trie to the end, or has an error status and no subscriptions.
-/
lemma run_returned_cases :
    (∃ timing root final, RunEndsIn planner options timeoutManager world timing root final) ∨
    (result.queryResult.status ≠ none ∧ result.subscriptionContext = none) := by
  unfold run runTimed at returned
  cases started : (beginTiming planner timeoutManager world).1 with
  | error status =>
    simp only [started] at returned
    cases returned
    exact .inr ⟨some_ne_none _, rfl⟩
  | ok timing =>
    simp only [started] at returned
    cases fetched : (queryServiceRoot planner options
        (beginTiming planner timeoutManager world).2).1 with
    | error failure =>
      simp only [fetched] at returned
      cases returned
      exact .inr ⟨some_ne_none _, rfl⟩
    | ok root =>
      simp only [fetched, runFromRoot] at returned
      have gets : GetsRoot planner options timeoutManager world timing root := ⟨started, fetched⟩
      cases begun : startTraversal planner options planner.redpathTrieRoot
          (.ofObject (some root)) (queryServiceRoot planner options
            (beginTiming planner timeoutManager world).2).2 with
      | error early =>
        simp only [begun] at returned
        cases returned
        unfold startTraversal at begun
        simp only at begun
        split_ifs at begun
        cases begun
        exact .inr ⟨some_ne_none _, rfl⟩
      | ok start =>
        rcases start with ⟨state, context⟩
        simp only [begun] at returned
        cases ran : (runSearch planner options).run state context with
        | ok final =>
          exact .inl ⟨timing, root, final,
            gets.runEndsIn planner options ⟨state, context, begun, ran⟩⟩
        | error leave =>
          rw [ran] at returned
          cases leave with
          | thrown what => cases returned
          | returned timingEnded final =>
            rcases (runSearch planner options).explore_eq_error_iff.mp ran with
              ⟨here, current, expression, remaining, queue, -, followed⟩
            have status := followExpression_error_status followed
            cases timingEnded with
            | true =>
              cases returned
              exact .inr ⟨status, rfl⟩
            | false =>
              cases returned
              exact .inr ⟨status, rfl⟩

lemma run_clean_inv (clean : result.queryResult.status = none) :
    ∃ timing root final,
      RunEndsIn planner options timeoutManager world timing root final := by
  rcases run_returned_cases returned with ends | ⟨status, -⟩
  · exact ends
  · exact absurd clean status

end

/-! ## The end of a run -/

/-- What an additional normalizer does to the data and the status of a result. -/
abbrev ResultChange := QueryResultData -> Option ResultStatus ->
  QueryResultData × Option ResultStatus

/-- The change takes back no error. -/
def ResultChange.KeepsErrors (change : ResultChange) : Prop :=
  ∀ data status, (change data status).2 = none -> status = none

/-- The normalizer reads and changes only the data and the status of a result, and
takes back no error. -/
def SteadyNormalizer (query : DelliciusQuery)
    (normalizer : DelliciusQuery -> QueryResult -> Bool -> StateM World (Status × QueryResult)) :
    Prop :=
  ∀ urlAnnotationEnabled, ∃ outcome : QueryResultData -> Option ResultStatus -> Status,
    ∃ change : ResultChange, change.KeepsErrors ∧ ∀ result world,
      let normalized := (normalizer query result urlAnnotationEnabled world).1
      normalized.1 = outcome result.data result.status ∧
        (normalized.2.data, normalized.2.status) = change result.data result.status

/-- The end of a run depends on nothing but the data and the status. -/
structure SteadyEnd (planner : QueryPlanner World Object Iterable) : Prop where
  clock : ∃ now, Answers planner.now now
  normalizers : ∀ normalizer ∈ planner.additionalNormalizers,
    SteadyNormalizer planner.query normalizer

lemma tryNormalizeOnFinalQueryResult_steady (planner : QueryPlanner World Object Iterable)
    (urlAnnotationEnabled : Bool) {normalizers : List (DelliciusQuery -> QueryResult -> Bool ->
      StateM World (Status × QueryResult))}
    (steady : ∀ normalizer ∈ normalizers, SteadyNormalizer planner.query normalizer) :
    ∃ change : ResultChange, change.KeepsErrors ∧ ∀ result world,
      let normalized := (tryNormalizeOnFinalQueryResult planner urlAnnotationEnabled normalizers
        result world).1
      (normalized.data, normalized.status) = change result.data result.status := by
  induction normalizers with
  | nil => exact ⟨fun data status => (data, status), fun _ _ clean => clean, fun _ _ => rfl⟩
  | cons normalizer rest ih =>
    rcases steady normalizer (.head _) urlAnnotationEnabled with
      ⟨outcome, first, firstKeeps, firstSame⟩
    rcases ih fun other member => steady other (.tail _ member) with ⟨later, laterKeeps, laterSame⟩
    refine ⟨fun data status =>
      if (outcome data status).isOk then later (first data status).1 (first data status).2
      else ((first data status).1, addError (first data status).2
        (text "Unable to normalize with additional normalizers: " ++
          (outcome data status).message) .internal), ?_, ?_⟩
    · intro data status clean
      simp only at clean
      split_ifs at clean
      · exact firstKeeps _ _ (laterKeeps _ _ clean)
      · cases clean
    · intro result world
      have same := firstSame result world
      simp only [tryNormalizeOnFinalQueryResult, bind, StateT.bind]
      rw [<- same.1, <- same.2]
      rcases normalizer planner.query result urlAnnotationEnabled world with
        ⟨⟨status, normalized⟩, after⟩
      by_cases fine : status.isOk
      · simp only [fine]
        exact laterSame normalized after
      · simp only [fine]
        rfl

def QueryPlanner.inMode (planner : QueryPlanner World Object Iterable) (mode : ExecutionMode) :
    QueryPlanner World Object Iterable :=
  { planner with executionMode := mode }

lemma tryNormalizeOnFinalQueryResult_inMode (planner : QueryPlanner World Object Iterable)
    (mode : ExecutionMode) (urlAnnotationEnabled : Bool)
    (normalizers : List (DelliciusQuery -> QueryResult -> Bool ->
      StateM World (Status × QueryResult))) (result : QueryResult) :
    tryNormalizeOnFinalQueryResult (planner.inMode mode) urlAnnotationEnabled normalizers result =
      tryNormalizeOnFinalQueryResult planner urlAnnotationEnabled normalizers result := by
  induction normalizers generalizing result with
  | nil => rfl
  | cons normalizer rest ih =>
    simp only [tryNormalizeOnFinalQueryResult, ih]
    rfl

/-- The end of a run turns the data and the status into those of its result, in the
same way in both modes. -/
lemma SteadyEnd.finishRun (steady : SteadyEnd planner)
    (options : QueryExecutionOptions World Object Iterable) (timing : Option QueryTimeoutManager) :
    ∃ change : ResultChange, change.KeepsErrors ∧ ∀ mode state,
      ∃ result left after,
        Planner.finishRun (planner.inMode mode) options timing state = .returned result left after ∧
        (result.queryResult.data, result.queryResult.status) =
          change state.result.data state.result.status := by
  rcases steady.clock with ⟨now, clock⟩
  rcases tryNormalizeOnFinalQueryResult_steady planner options.urlAnnotationEnabled
    steady.normalizers with ⟨change, keeps, same⟩
  have ends : ∃ status, ∀ mode world,
      (finishTiming (planner.inMode mode) timing world).1.1 = status := by
    cases timing with
    | none => exact ⟨.okStatus, fun _ _ => rfl⟩
    | some manager =>
      refine ⟨(manager.endTiming now).1, ?_⟩
      intro mode world
      change (manager.endTiming (planner.now world).1).1 = _
      rw [(clock world).1]
  rcases ends with ⟨status, ends⟩
  refine ⟨fun data known =>
    if status.isOk then change data known
    else ((change data known).1, addError (change data known).2
      (text "Timed out while executing query") .queryTimeout), ?_, ?_⟩
  · intro data known clean
    split_ifs at clean
    · exact keeps _ _ clean
    · cases clean
  · intro mode state
    refine ⟨_, _, _, rfl, ?_⟩
    have normalized := same state.result state.world
    simp only [tryNormalizeOnFinalQueryResult_inMode, ends] at normalized ⊢
    rw [<- normalized]
    by_cases fine : status.isOk
    · simp only [fine]
      rfl
    · simp only [fine]
      rfl

end Ecclesia.Planner
