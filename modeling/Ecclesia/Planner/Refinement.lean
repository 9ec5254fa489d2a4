import Ecclesia.Planner.Traversal

namespace Ecclesia.Planner

open Absl

/-!
# Run refines the ideal traversal

A run that polls a static tree goes in step with an ideal traversal as long as
its answers match the selection and its values can be built.  An expression
that is answered by an error matches an empty selection, if the run passes
over that error.
-/

variable {World Object Iterable : Type}

/-- The errors of an expression after which the run goes on. -/
def PassedOver (planner : QueryPlanner World Object Iterable) (status : Status) : Prop :=
  status.code = .notFound ∨
    (planner.executionMode = .continueOnSubqueryErrors ∧ status.code ≠ .cancelled)

/-- At this place the tree behaves as the ideal traversal expects. -/
structure Matches (planner : QueryPlanner World Object Iterable)
    (tree : ResourceTree Object Iterable) (queryVariables : QueryVariables)
    (urlAnnotationEnabled : Bool) (ideal : Ideal Object Iterable)
    (place : Place Object Iterable) (expression : RedPathExpression) : Prop where
  answer : treeAnswer planner tree queryVariables place expression =
      .ok (ideal.select place expression) ∨
    (ideal.select place expression = [] ∧ ∃ status,
      treeAnswer planner tree queryVariables place expression = .error (.status status) ∧
        PassedOver planner status)
  values : ∀ response ∈ ideal.select place expression,
    expression.trieNode.subqueryId ≠ [] ->
      treeValue planner tree urlAnnotationEnabled expression.trieNode.subqueryId
          (place.next expression response) =
        .ok (ideal.value expression.trieNode.subqueryId (place.next expression response))

/-- A node yields the value the ideal traversal expects. -/
def ValueMatches (planner : QueryPlanner World Object Iterable)
    (tree : ResourceTree Object Iterable) (urlAnnotationEnabled : Bool)
    (ideal : Ideal Object Iterable) (node : RedPathTrieNode) (place : Place Object Iterable) :
    Prop :=
  node.subqueryId ≠ [] ->
    treeValue planner tree urlAnnotationEnabled node.subqueryId place =
      .ok (ideal.value node.subqueryId place)

/-- At this place no error is added to the status of the result. -/
structure Silent (planner : QueryPlanner World Object Iterable)
    (tree : ResourceTree Object Iterable) (queryVariables : QueryVariables)
    (place : Place Object Iterable) (expression : RedPathExpression) : Prop where
  members : QuietAt planner tree queryVariables place expression
  answer : ∀ status,
    treeAnswer planner tree queryVariables place expression = .error (.status status) ->
      status.code = .notFound

/-- The parts of a run's state that the ideal traversal does not have, and that a
silent run keeps. -/
structure KeepsRest (state after : RunState World Object Iterable) : Prop where
  status : after.result.status = state.result.status
  queryId : after.result.queryId = state.result.queryId
  subscriptionContext : after.subscriptionContext = state.subscriptionContext

namespace KeepsRest

lemma refl (state : RunState World Object Iterable) : KeepsRest state state := ⟨rfl, rfl, rfl⟩

lemma trans {first second third : RunState World Object Iterable} (before : KeepsRest first second)
    (after : KeepsRest second third) : KeepsRest first third :=
  ⟨after.status.trans before.status, after.queryId.trans before.queryId,
    after.subscriptionContext.trans before.subscriptionContext⟩

end KeepsRest

variable {planner : QueryPlanner World Object Iterable} {tree : ResourceTree Object Iterable}
  {interface : RedfishInterface World Object Iterable}
  {options : QueryExecutionOptions World Object Iterable} {ideal : Ideal Object Iterable}

variable {context : QueryExecutionContext Object Iterable}

section

variable (static : IsStatic planner interface tree) (sameQuery : ideal.query = planner.query)

include static sameQuery

lemma IsStatic.normalizeContext_refines {trieNode : RedPathTrieNode}
    (built : ValueMatches planner tree options.urlAnnotationEnabled ideal trieNode context.place)
    (state : RunState World Object Iterable) :
    ∃ after, normalizeContext planner options trieNode context state =
        .ok (after, (ideal.normalize trieNode context state.observed).2) ∧
      after.observed = (ideal.normalize trieNode context state.observed).1 ∧
      KeepsRest state after := by
  unfold normalizeContext Ideal.normalize
  by_cases unnamed : trieNode.subqueryId.isEmpty
  · rw [if_pos unnamed, if_pos unnamed]
    exact ⟨state, rfl, rfl, .refl state⟩
  · rw [if_neg unnamed, if_neg unnamed]
    have named : trieNode.subqueryId ≠ [] := by
      intro empty
      exact unnamed (by rw [empty]; rfl)
    rcases static.tryNormalize_stores (built named) (localInterface planner options) state.result
      state.world with ⟨fine, data, status, queryId, changed⟩
    generalize tryNormalize planner trieNode.subqueryId (localInterface planner options) context
      options.urlAnnotationEnabled state.result state.world = tried
      at fine data status queryId changed ⊢
    simp only [fine]
    refine ⟨{ state with
      world := tried.2
      result := tried.1.2.1
      normalized := state.normalized ++ [(trieNode.subqueryId, context.redfishResponse)] },
      ?_, ?_, ⟨status, queryId, rfl⟩⟩
    · rw [changed, sameQuery]
      rfl
    · simp only [RunState.observed, data, sameQuery]

lemma IsStatic.normalizeContexts_refines {trieNode : RedPathTrieNode}
    {contexts : List (QueryExecutionContext Object Iterable)} (built : ∀ context ∈ contexts,
      ValueMatches planner tree options.urlAnnotationEnabled ideal trieNode context.place)
    (state : RunState World Object Iterable) :
    ∃ after, normalizeContexts planner options trieNode contexts state =
        .ok (after, (ideal.normalizeAll trieNode contexts state.observed).2) ∧
      after.observed = (ideal.normalizeAll trieNode contexts state.observed).1 ∧
      KeepsRest state after := by
  induction contexts generalizing state with
  | nil => exact ⟨state, rfl, rfl, .refl state⟩
  | cons context rest ih =>
    rcases static.normalizeContext_refines sameQuery (built context (.head _)) state
      with ⟨between, ranFirst, seenFirst, keepsFirst⟩
    rcases ih (fun other member => built other (.tail _ member)) between with
      ⟨after, ranRest, seenRest, keepsRest⟩
    rw [seenFirst] at ranRest seenRest
    refine ⟨after, ?_, seenRest, keepsFirst.trans keepsRest⟩
    rw [normalizeContexts, ranFirst]
    simp only [bind, Except.bind, ranRest]
    rfl

end

section

variable (queryType : QueryType) (expression : RedPathExpression)
  (context : QueryExecutionContext Object Iterable) (queryVariables : QueryVariables)
  (given : Option (RedfishInterface World Object Iterable)) (state : ExecutionState World)

lemma executeQueryExpression_fst :
    (executeQueryExpression planner queryType expression context queryVariables given state).1 =
      (executeForResponses planner queryType expression context queryVariables given
        state).1.map (context.contextsFor expression) := rfl

lemma executeQueryExpression_snd :
    (executeQueryExpression planner queryType expression context queryVariables given state).2 =
      (executeForResponses planner queryType expression context queryVariables given state).2 :=
  rfl

end

lemma populateSubscriptionContext_nil (contexts : List (QueryExecutionContext Object Iterable))
    (none : context.urisToSubscribe = []) (expression : RedPathExpression)
    (subscription : Option SubscriptionContext) :
    populateSubscriptionContext planner contexts context expression options subscription =
      (context, subscription) := by
  unfold populateSubscriptionContext
  rw [none]
  simp

variable {expression : RedPathExpression}

lemma Matches.valuesAt {queryVariables : QueryVariables} {urlAnnotationEnabled : Bool}
    (agrees : Matches planner tree queryVariables urlAnnotationEnabled ideal context.place
      expression) : ∀ next ∈ context.contextsFor expression (ideal.select context.place expression),
      ValueMatches planner tree urlAnnotationEnabled ideal expression.trieNode next.place := by
  intro next member
  rcases List.mem_map.mp member with ⟨response, selected, rfl⟩
  exact agrees.values response selected

lemma IsStatic.followExpression_refines (static : IsStatic planner interface tree)
    (polling : options.queryType = .polling)
    (local_ : localInterface planner options = some interface)
    (sameQuery : ideal.query = planner.query) (plain : context.urisToSubscribe = [])
    (agrees : Matches planner tree options.queryVariables options.urlAnnotationEnabled ideal
      context.place expression) (state : RunState World Object Iterable) :
    ∃ after found,
      followExpression planner options state context expression = .ok (after, context, found) ∧
      ideal.follow state.observed context expression = .ok (after.observed, context, found) ∧
      (Silent planner tree options.queryVariables context.place expression ->
        KeepsRest state after) ∧
      after.result.queryId = state.result.queryId ∧
      after.subscriptionContext = state.subscriptionContext := by
  have yields := static.executeForResponses_yields expression context options.queryVariables
    (state.toExecution context)
  unfold followExpression
  rw [polling, local_]
  simp only [executeQueryExpression_fst, executeQueryExpression_snd]
  generalize (executeForResponses planner .polling expression context options.queryVariables
    (some interface) (state.toExecution context)) = executed at yields ⊢
  rcases executed with ⟨answer, changed⟩
  rcases yields with ⟨rfl, uris, quiet, -⟩
  have sameContext : { context with urisToSubscribe := changed.urisToSubscribe } = context := by
    rw [uris]
    rfl
  simp only [sameContext]
  have rest : Silent planner tree options.queryVariables context.place expression ->
      KeepsRest state (state.afterExecution changed) := by
    intro silent
    exact ⟨quiet silent.members, rfl, rfl⟩
  rcases agrees.answer with answered | ⟨nothing, status, answered, passed⟩
  · rw [answered]
    rcases static.normalizeContexts_refines sameQuery agrees.valuesAt (state.afterExecution changed)
      with ⟨after, ran, seen, keeps⟩
    refine ⟨after, (ideal.normalizeAll expression.trieNode (context.contextsFor expression
      (ideal.select context.place expression)) state.observed).2, ?_, ?_, ?_, ?_, ?_⟩
    · simp only [Except.map, respond, populateSubscriptionContext_nil _ plain]
      rw [ran]
      rfl
    · rw [seen]
      rfl
    · intro silent
      exact (rest silent).trans keeps
    · exact keeps.queryId
    · exact keeps.subscriptionContext
  · rw [answered]
    have ended : ideal.follow state.observed context expression =
        .ok (state.observed, context, []) := by
      rw [Ideal.follow, nothing]
      rfl
    by_cases absent : status.code = .notFound
    · refine ⟨state.afterExecution changed, [], ?_, ended, rest, rfl, rfl⟩
      simp only [Except.map, respond, if_pos absent]
    · rcases passed with missing | ⟨mode, going⟩
      · exact absurd missing absent
      · refine ⟨(state.afterExecution changed).populateError status context.lastRedpathPrefix
          expression, [], ?_, ended, ?_, rfl, rfl⟩
        · simp only [Except.map, respond, if_neg absent, if_neg going, if_pos mode]
        · intro silent
          exact absurd (silent.answer status answered) absent

/-- A context of a polling traversal that has come to its place. -/
structure Stands (ideal : Ideal Object Iterable) (root : RedPathTrieNode)
    (start : Place Object Iterable) (context : QueryExecutionContext Object Iterable) : Prop where
  plain : context.urisToSubscribe = []
  comes : Comes ideal.select root start context.redpathTrieNode context.place

variable {start : Place Object Iterable} {next : QueryExecutionContext Object Iterable}
  {seen : Observed Object Iterable}

lemma Stands.found {root : RedPathTrieNode} (stands : Stands ideal root start context)
    (member : expression ∈ context.redpathTrieNode.childExpressions)
    {after : Observed Object Iterable} {found : List (QueryExecutionContext Object Iterable)}
    (followed : ideal.follow seen context expression = .ok (after, context, found))
    (listed : next ∈ found) : Stands ideal root start next := by
  rcases ideal.follow_member followed listed with ⟨atNode, plain, response, selected, place⟩
  refine ⟨plain, ?_⟩
  rw [atNode, place]
  exact .step stands.comes member selected

/-- The run and the ideal traversal have come to the same point. -/
structure InStep (ideal : Ideal Object Iterable) (root : RedPathTrieNode)
    (start : Place Object Iterable) (first : RunState World Object Iterable) (quiet : Prop)
    (state : RunState World Object Iterable) (seen : Observed Object Iterable)
    (context : QueryExecutionContext Object Iterable) (remaining : List RedPathExpression)
    (queue : List (QueryExecutionContext Object Iterable)) : Prop where
  observed : state.observed = seen
  current : Stands ideal root start context
  remaining : ∀ expression ∈ remaining, expression ∈ context.redpathTrieNode.childExpressions
  queue : ∀ next ∈ queue, Stands ideal root start next
  keeps : quiet -> KeepsRest first state
  queryId : state.result.queryId = first.result.queryId
  subscriptionContext : state.subscriptionContext = first.subscriptionContext

lemma InStep.take {root : RedPathTrieNode} {first state : RunState World Object Iterable}
    {quiet : Prop} {queue : List (QueryExecutionContext Object Iterable)}
    (inStep : InStep ideal root start first quiet state seen context [] (next :: queue)) :
    InStep ideal root start first quiet state seen next next.redpathTrieNode.childExpressions
      queue :=
  ⟨inStep.observed, inStep.queue next (.head _), fun _ listed => listed,
    fun other listed => inStep.queue other (.tail _ listed), inStep.keeps,
    inStep.queryId, inStep.subscriptionContext⟩

section

variable (static : IsStatic planner interface tree) (polling : options.queryType = .polling)
  (local_ : localInterface planner options = some interface)
  (sameQuery : ideal.query = planner.query)
  {root : RedPathTrieNode} {start : Place Object Iterable}
  (agrees : ∀ node place expression, Comes ideal.select root start node place ->
    expression ∈ node.childExpressions ->
      Matches planner tree options.queryVariables options.urlAnnotationEnabled ideal place
        expression)
  {quiet : Prop}
  (silent : quiet -> ∀ node place expression, Comes ideal.select root start node place ->
    expression ∈ node.childExpressions ->
      Silent planner tree options.queryVariables place expression)

include static polling local_ sameQuery agrees silent

variable {context : QueryExecutionContext Object Iterable}

lemma InStep.follow {first state : RunState World Object Iterable} {seen : Observed Object Iterable}
    {expression : RedPathExpression} {remaining : List RedPathExpression}
    {queue : List (QueryExecutionContext Object Iterable)}
    (inStep : InStep ideal root start first quiet state seen context (expression :: remaining)
      queue) :
    ∃ after afterSeen changed found,
      followExpression planner options state context expression = .ok (after, changed, found) ∧
      ideal.follow seen context expression = .ok (afterSeen, changed, found) ∧
      InStep ideal root start first quiet after afterSeen changed remaining (queue ++ found) := by
  have member := inStep.remaining expression (.head _)
  rcases static.followExpression_refines polling local_ sameQuery inStep.current.plain
    (agrees _ _ _ inStep.current.comes member) state with
    ⟨after, found, followed, ideally, keeps, queryId, subscription⟩
  rw [inStep.observed] at ideally
  refine ⟨after, after.observed, context, found, followed, ideally, rfl, inStep.current,
    ?_, ?_, ?_, queryId.trans inStep.queryId, subscription.trans inStep.subscriptionContext⟩
  · intro other listed
    exact inStep.remaining other (.tail _ listed)
  · intro next listed
    rcases List.mem_append.mp listed with listed | listed
    · exact inStep.queue next listed
    · exact inStep.current.found member ideally listed
  · intro quietNow
    exact (inStep.keeps quietNow).trans (keeps (silent quietNow _ _ _ inStep.current.comes member))

lemma IsStatic.runSearch_refines (atRoot : context.redpathTrieNode = root)
    (atStart : context.place = start) (plain : context.urisToSubscribe = [])
    (state : RunState World Object Iterable) :
    ∃ final, (runSearch planner options).run state context = .ok final ∧
      ideal.search.run state.observed context = .ok final.observed ∧
      (quiet -> KeepsRest state final) ∧
      final.result.queryId = state.result.queryId ∧
      final.subscriptionContext = state.subscriptionContext := by
  have begin_ : InStep ideal root start state quiet state state.observed context
      context.redpathTrieNode.childExpressions [] :=
    ⟨rfl, ⟨plain, by rw [atRoot, atStart]; exact .start⟩, fun _ listed => listed, nofun,
      fun _ => .refl state, rfl, rfl⟩
  rcases (runSearch planner options).explore_lockstep ideal.search (fun _ => rfl)
    (InStep ideal root start state quiet)
    (fun _ _ _ _ _ _ inStep => inStep.follow static polling local_ sameQuery agrees silent)
    (fun _ _ _ _ _ inStep => inStep.take) begin_ with
    ⟨final, finalSeen, last, ran, ideally, inStep⟩
  refine ⟨final, ran, ?_, inStep.keeps, inStep.queryId, inStep.subscriptionContext⟩
  rw [inStep.observed]
  exact ideally

end

variable {response : RedfishResponse Object Iterable}

lemma IsStatic.startTraversal_refines (static : IsStatic planner interface tree)
    (sameQuery : ideal.query = planner.query) {node : RedPathTrieNode}
    (value : ValueMatches planner tree options.urlAnnotationEnabled ideal node ⟨[], response⟩)
    (world : World) :
    ∃ state, startTraversal planner options node response world =
        .ok (state, (ideal.normalize node (.start node response) ⟨[], []⟩).2) ∧
      state.observed = (ideal.normalize node (.start node response) ⟨[], []⟩).1 ∧
      state.result.status = none ∧ state.result.queryId = planner.query.queryId ∧
      state.subscriptionContext = none := by
  unfold startTraversal Ideal.normalize
  by_cases unnamed : node.subqueryId.isEmpty
  · simp only [if_pos unnamed]
    exact ⟨_, rfl, rfl, rfl, rfl, rfl⟩
  · simp only [if_neg unnamed]
    have named : node.subqueryId ≠ [] := by
      intro empty
      exact unnamed (by rw [empty]; rfl)
    have built : treeValue planner tree options.urlAnnotationEnabled node.subqueryId
        (QueryExecutionContext.start node response).place =
          .ok (ideal.value node.subqueryId ⟨[], response⟩) :=
      value named
    have stores := static.tryNormalize_stores built (localInterface planner options)
      (.start planner.query.queryId) world
    generalize tryNormalize planner node.subqueryId (localInterface planner options)
      (.start node response) options.urlAnnotationEnabled (.start planner.query.queryId) world =
        tried at stores ⊢
    rcases stores with ⟨fine, data, status, queryId, changed⟩
    simp only [fine]
    refine ⟨⟨tried.2, tried.1.2.1, none, [(node.subqueryId, response)]⟩, ?_, ?_, status, queryId,
      rfl⟩
    · rw [changed, sameQuery]
      rfl
    · rw [RunState.observed, data, sameQuery]
      rfl

/-- A traversal from a node at a response comes to its end, and observes what the
ideal traversal does. -/
lemma IsStatic.traverses_refines (static : IsStatic planner interface tree)
    (polling : options.queryType = .polling)
    (local_ : localInterface planner options = some interface)
    (sameQuery : ideal.query = planner.query) {node : RedPathTrieNode}
    (value : ValueMatches planner tree options.urlAnnotationEnabled ideal node ⟨[], response⟩)
    (agrees : ∀ reached place expression,
      Comes ideal.select node ⟨[], response⟩ reached place ->
      expression ∈ reached.childExpressions ->
        Matches planner tree options.queryVariables options.urlAnnotationEnabled ideal place
          expression) {quiet : Prop} (silent : quiet -> ∀ reached place expression,
      Comes ideal.select node ⟨[], response⟩ reached place ->
      expression ∈ reached.childExpressions ->
        Silent planner tree options.queryVariables place expression) (world : World) :
    ∃ final, Traverses planner options node response world final ∧
      ideal.run node response = .ok final.observed ∧
      (quiet -> final.result.status = none) ∧
      final.result.queryId = planner.query.queryId ∧ final.subscriptionContext = none := by
  rcases static.startTraversal_refines sameQuery value world with
    ⟨state, started, seen, noStatus, queryId, noSubscription⟩
  have plain := ideal.normalize_uris node (.start node response) ⟨[], []⟩
  rcases static.runSearch_refines polling local_ sameQuery agrees silent
    (ideal.normalize_trieNode _ _ _) (ideal.normalize_place _ _ _) plain state with
    ⟨final, ran, ideally, keeps, sameId, sameSubscription⟩
  refine ⟨final, ⟨_, _, started, ran⟩, ?_, ?_, sameId.trans queryId,
    sameSubscription.trans noSubscription⟩
  · rw [seen] at ideally
    exact ideally
  · intro quietNow
    exact (keeps quietNow).status.trans noStatus

end Ecclesia.Planner
