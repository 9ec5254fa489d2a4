import Ecclesia.Planner.Losses

namespace Ecclesia.Planner

open Absl List

/-!
# Resuming a query

`Resume` has a traversal of its own.  A context that it has normalised is not
put into the queue, and a context without an object is not normalised.  So it
agrees with the traversal of a run only where nothing is to be visited behind
the end of a subquery and every resource at such an end has an object.
-/

/-! ## The ideal resumed traversal -/

variable {trieNode : RedPathTrieNode} {expression : RedPathExpression}

section

variable {Object Iterable : Type}

namespace Ideal

variable (ideal : Ideal Object Iterable)

def resumeOne (trieNode : RedPathTrieNode) (context : QueryExecutionContext Object Iterable)
    (seen : Observed Object Iterable) :
    Observed Object Iterable × List (QueryExecutionContext Object Iterable) :=
  if trieNode.subqueryId.isEmpty || context.redfishResponse.redfishObject.isNone then
    (seen, [{ context with redpathTrieNode := trieNode }])
  else ((ideal.normalize trieNode context seen).1, [])

def resumeAll (trieNode : RedPathTrieNode) :
    List (QueryExecutionContext Object Iterable) -> Observed Object Iterable ->
      Observed Object Iterable × List (QueryExecutionContext Object Iterable)
  | [], seen => (seen, [])
  | context :: rest, seen =>
    let first := ideal.resumeOne trieNode context seen
    let others := resumeAll trieNode rest first.1
    (others.1, first.2 ++ others.2)

def resumeFollow (seen : Observed Object Iterable)
    (context : QueryExecutionContext Object Iterable) (expression : RedPathExpression) :
    Except Empty (Observed Object Iterable × QueryExecutionContext Object Iterable ×
      List (QueryExecutionContext Object Iterable)) :=
  let resumed := ideal.resumeAll expression.trieNode
    (context.contextsFor expression (ideal.select context.place expression)) seen
  .ok (resumed.1, context, resumed.2)

variable {seen : Observed Object Iterable} {next : QueryExecutionContext Object Iterable}

/-- The contexts that are handed on are some of those that were selected. -/
lemma resumeAll_member {contexts : List (QueryExecutionContext Object Iterable)}
    (member : next ∈ (ideal.resumeAll trieNode contexts seen).2) :
    next.redpathTrieNode = trieNode ∧ ∃ context ∈ contexts,
      next.place = context.place ∧ next.urisToSubscribe = context.urisToSubscribe := by
  induction contexts generalizing seen with
  | nil => exact nomatch member
  | cons context rest ih =>
    rcases mem_append.mp member with member | member
    · unfold resumeOne at member
      split_ifs at member
      · cases mem_singleton.mp member
        exact ⟨rfl, context, .head _, rfl, rfl⟩
      · exact nomatch member
    · rcases ih member with ⟨atNode, source, listed, same⟩
      exact ⟨atNode, source, .tail _ listed, same⟩

lemma resumeFollow_member {after : Observed Object Iterable}
    {context changed : QueryExecutionContext Object Iterable}
    {found : List (QueryExecutionContext Object Iterable)}
    (followed : ideal.resumeFollow seen context expression = .ok (after, changed, found))
    (member : next ∈ found) :
    next.redpathTrieNode = expression.trieNode ∧ next.urisToSubscribe = [] ∧
      ∃ response ∈ ideal.select context.place expression,
        next.place = context.place.next expression response := by
  cases followed
  rcases ideal.resumeAll_member member with ⟨atNode, source, listed, samePlace, sameUris⟩
  rcases mem_map.mp listed with ⟨response, selected, rfl⟩
  exact ⟨atNode, sameUris, response, selected, samePlace⟩

def resumeSearch : Search (Observed Object Iterable) (QueryExecutionContext Object Iterable)
    RedPathExpression Empty where
  edges context := context.redpathTrieNode.childExpressions
  follow := ideal.resumeFollow
  rank context := context.redpathTrieNode.rank
  weight := RedPathExpression.weight
  weight_lt := QueryExecutionContext.weight_lt_rank
  rank_lt _ _ expression _ _ _ followed next member := by
    rw [(ideal.resumeFollow_member followed member).1]
    exact expression.rank_lt_weight

/-- The whole resumed traversal, from a trie node and its response, whose context is handed on. -/
def resumeRun (node : RedPathTrieNode) (response : RedfishResponse Object Iterable) :
    Except Empty (Observed Object Iterable) :=
  let started := ideal.normalize node (.start node response) ⟨[], []⟩
  ideal.resumeSearch.run started.1 started.2

end Ideal

/-! ## What a resumed traversal visits -/

section

variable
  (select : Place Object Iterable -> RedPathExpression -> List (RedfishResponse Object Iterable))

mutual

def RedPathTrieNode.resumed : RedPathTrieNode -> Place Object Iterable ->
    List (Text × RedfishResponse Object Iterable)
  | .mk _ children => resumedBelow children

/-- The pairs behind an expression: the end of a subquery is the end of the
traversal. -/
def RedPathExpression.resumed : RedPathExpression -> Place Object Iterable ->
    List (Text × RedfishResponse Object Iterable)
  | .mk type content node => fun place =>
    (select place (.mk type content node)).flatMap fun response =>
      if node.subqueryId.isEmpty || response.redfishObject.isNone then
        node.resumed (place.next (.mk type content node) response)
      else node.ownVisit (place.next (.mk type content node) response)

def resumedBelow : List RedPathExpression -> Place Object Iterable ->
    List (Text × RedfishResponse Object Iterable)
  | [], _ => []
  | expression :: rest, place => expression.resumed place ++ resumedBelow rest place

end

/-- What is visited at and behind one response. -/
def resumedAt (node : RedPathTrieNode) (place : Place Object Iterable) :
    List (Text × RedfishResponse Object Iterable) :=
  if node.subqueryId.isEmpty || place.redfishResponse.redfishObject.isNone then
    node.resumed select place
  else node.ownVisit place

lemma resumed_expression (expression : RedPathExpression) (place : Place Object Iterable) :
    expression.resumed select place = (select place expression).flatMap fun response =>
      resumedAt select expression.trieNode (place.next expression response) := by
  cases expression with
  | mk type content node =>
    rfl

section

variable (node : RedPathTrieNode) (place : Place Object Iterable)

lemma resumed_node :
    node.resumed select place =
      node.childExpressions.flatMap fun expression => expression.resumed select place := by
  cases node with
  | mk subqueryId children =>
    change resumedBelow select children place = children.flatMap _
    induction children with
    | nil => rw [resumedBelow, flatMap_nil]
    | cons expression rest ih => rw [resumedBelow, ih, flatMap_cons]

/-- The pairs behind the expressions of a node. -/
def visitsBelow (node : RedPathTrieNode) (place : Place Object Iterable) :
    List (Text × RedfishResponse Object Iterable) :=
  node.childExpressions.flatMap (visitsBehind select place)

lemma visits_length :
    (visits select place node.ends).length =
      (node.ownVisit place).length + (visitsBelow select node place).length := by
  rw [(visits_node select place node).length_eq, length_append]
  rfl

end

variable {select}

variable {node : RedPathTrieNode} {place : Place Object Iterable}

lemma resumedAt_length_le
    (below : (node.resumed select place).length <= (visitsBelow select node place).length) :
    (resumedAt select node place).length <= (visits select place node.ends).length := by
  rw [visits_length]
  unfold resumedAt
  split_ifs
  · exact Nat.le_trans below (Nat.le_add_left _ _)
  · exact Nat.le_add_right _ _

mutual

theorem RedPathTrieNode.resumed_length_le (place : Place Object Iterable) :
    ∀ node : RedPathTrieNode,
      (node.resumed select place).length <= (visitsBelow select node place).length
  | .mk subqueryId children => by
    rw [resumed_node]
    exact resumed_lengths_le place children

theorem RedPathExpression.resumed_length_le (place : Place Object Iterable) :
    ∀ expression : RedPathExpression,
      (expression.resumed select place).length <= (visitsBehind select place expression).length
  | .mk type content node => by
    rw [resumed_expression, visitsBehind, length_flatMap, length_flatMap]
    exact sum_le_sum fun response _ => resumedAt_length_le (node.resumed_length_le _)

theorem resumed_lengths_le (place : Place Object Iterable) :
    ∀ children : List RedPathExpression,
      (children.flatMap fun expression => expression.resumed select place).length <=
        (children.flatMap (visitsBehind select place)).length
  | [] => le_rfl
  | expression :: rest => by
    rw [flatMap_cons, flatMap_cons, length_append, length_append]
    exact Nat.add_le_add (expression.resumed_length_le place) (resumed_lengths_le place rest)

end

/-- At this node no subquery ends, or the resource has an object and nothing is to be visited behind
it. -/
def KeptByResume
    (select : Place Object Iterable -> RedPathExpression ->
      List (RedfishResponse Object Iterable)) (node : RedPathTrieNode)
    (place : Place Object Iterable) : Prop :=
  node.subqueryId = [] ∨ (place.redfishResponse.redfishObject.isSome = true ∧
    ∀ expression ∈ node.childExpressions, visitsBehind select place expression = [])

/-- As much is visited at a response only if nothing is lost there, and then as
much is visited behind it. -/
lemma keptByResume_of_length_eq
    (same : (resumedAt select node place).length = (visits select place node.ends).length) :
    KeptByResume select node place ∧
      (node.resumed select place).length = (visitsBelow select node place).length := by
  have le : (node.resumed select place).length <= (visitsBelow select node place).length :=
    node.resumed_length_le place
  rw [visits_length] at same
  unfold resumedAt at same
  by_cases unnamed : node.subqueryId.isEmpty
  · have none : node.ownVisit place = [] := by
      rw [RedPathTrieNode.ownVisit, if_pos unnamed]
    rw [unnamed, none] at same
    exact ⟨.inl (List.isEmpty_iff.mp unnamed), by simpa using same⟩
  · have one : (node.ownVisit place).length = 1 := by
      rw [RedPathTrieNode.ownVisit, if_neg unnamed]
      rfl
    rw [Bool.not_eq_true] at unnamed
    rw [unnamed, Bool.false_or] at same
    by_cases missing : place.redfishResponse.redfishObject.isNone
    · -- The end of a subquery without an object is counted by the run alone.
      rw [if_pos missing] at same
      omega
    · rw [if_neg missing] at same
      have empty : visitsBelow select node place = [] := eq_nil_of_length_eq_zero (by omega)
      refine ⟨.inr ⟨?_, flatMap_eq_nil_iff.mp empty⟩, ?_⟩
      · exact Option.isSome_iff_ne_none.mpr fun gone => missing (by rw [gone]; rfl)
      · rw [empty] at le ⊢
        exact Nat.le_zero.mp le

/-- If as much is visited, nothing is lost anywhere. -/
lemma keptByResume_of_comes {root : RedPathTrieNode} {start : Place Object Iterable}
    (full : (root.resumed select start).length = (visitsBelow select root start).length)
    (comes : Comes select root start node place) :
    (node.resumed select place).length = (visitsBelow select node place).length ∧
      ∀ expression ∈ node.childExpressions, ∀ response ∈ select place expression,
          KeptByResume select expression.trieNode (place.next expression response) := by
  have onward : ∀ {node : RedPathTrieNode} {place : Place Object Iterable},
      (node.resumed select place).length = (visitsBelow select node place).length ->
      ∀ expression ∈ node.childExpressions, ∀ response ∈ select place expression,
          KeptByResume select expression.trieNode (place.next expression response) ∧
            (expression.trieNode.resumed select (place.next expression response)).length =
              (visitsBelow select expression.trieNode (place.next expression response)).length := by
    intro node place same expression member response selected
    rw [resumed_node] at same
    have behind := length_eq_of_flatMap_length_eq
      (fun other _ => other.resumed_length_le place) same expression member
    rw [resumed_expression] at behind
    exact keptByResume_of_length_eq (length_eq_of_flatMap_length_eq
      (fun other _ => resumedAt_length_le (expression.trieNode.resumed_length_le _)) behind
      response selected)
  have here : (node.resumed select place).length = (visitsBelow select node place).length := by
    induction comes with
    | start => exact full
    | step _ member selected ih => exact (onward ih _ member _ selected).2
  exact ⟨here, fun expression member response selected =>
    (onward here expression member response selected).1⟩

end

/-! ## The two ideal traversals -/

namespace Ideal

variable (ideal : Ideal Object Iterable)

lemma resumeAll_collects (trieNode : RedPathTrieNode)
    (contexts : List (QueryExecutionContext Object Iterable)) (seen : Observed Object Iterable) :
    ((ideal.resumeAll trieNode contexts seen).1.normalized ++
      (ideal.resumeAll trieNode contexts seen).2.flatMap fun next =>
        next.redpathTrieNode.childExpressions.flatMap fun expression =>
          expression.resumed ideal.select next.place).Perm
      (seen.normalized ++ contexts.flatMap fun context =>
        resumedAt ideal.select trieNode context.place) := by
  induction contexts generalizing seen with
  | nil => exact .refl _
  | cons context rest ih =>
    have later := ih (ideal.resumeOne trieNode context seen).1
    rw [resumeAll, flatMap_append, flatMap_cons]
    by_cases handed : (trieNode.subqueryId.isEmpty ||
        context.redfishResponse.redfishObject.isNone) = true
    · have one : ideal.resumeOne trieNode context seen =
          (seen, [{ context with redpathTrieNode := trieNode }]) := by
        rw [resumeOne, if_pos handed]
      have at_ : resumedAt ideal.select trieNode context.place =
          trieNode.childExpressions.flatMap fun expression =>
            expression.resumed ideal.select context.place := by
        rw [<- resumed_node]
        exact if_pos handed
      rw [one] at later ⊢
      rw [flatMap_singleton, at_]
      apply (perm_append_comm_assoc _ _ _).trans
      exact (later.append_left _).trans (perm_append_comm_assoc _ _ _)
    · have one : ideal.resumeOne trieNode context seen =
          ((ideal.normalize trieNode context seen).1, []) := by
        rw [resumeOne, if_neg handed]
      have at_ : resumedAt ideal.select trieNode context.place =
          trieNode.ownVisit context.place := by
        exact if_neg handed
      rw [one] at later ⊢
      rw [normalize_normalized, append_assoc] at later
      rw [at_]
      exact later

/-- The whole resumed traversal visits what can be reached without crossing the end
of a subquery. -/
lemma resumeRun_normalized (node : RedPathTrieNode) (response : RedfishResponse Object Iterable) :
    ∃ seen, ideal.resumeRun node response = .ok seen ∧
      seen.normalized.Perm (node.ownVisit (⟨[], response⟩ : Place Object Iterable) ++
        node.resumed ideal.select ⟨[], response⟩) := by
  rcases ideal.resumeSearch.explore_collects Observed.normalized
    (fun context expression => expression.resumed ideal.select context.place) (fun _ => True)
    (fun seen context expression _ => by
      refine ⟨_, context, _, rfl, trivial, rfl, fun _ _ => trivial, ?_⟩
      refine (ideal.resumeAll_collects _ _ _).trans (.of_eq ?_)
      rw [QueryExecutionContext.contextsFor, flatMap_map, resumed_expression]
      rfl)
    trivial (fun _ _ => trivial) with ⟨final, explored, collects⟩
  refine ⟨final, explored, collects.trans (.of_eq ?_)⟩
  rw [flatMap_nil, append_nil, normalize_normalized, resumed_node]
  change node.ownVisit _ ++ List.flatMap
    (fun expression => RedPathExpression.resumed ideal.select expression
      (ideal.normalize node (.start node response) ⟨[], []⟩).2.place)
    (ideal.normalize node (.start node response) ⟨[], []⟩).2.redpathTrieNode.childExpressions = _
  rw [normalize_trieNode, normalize_place]
  rfl

lemma resumeAll_unnamed (unnamed : trieNode.subqueryId = [])
    (contexts : List (QueryExecutionContext Object Iterable)) (seen : Observed Object Iterable) :
    ideal.resumeAll trieNode contexts seen = ideal.normalizeAll trieNode contexts seen := by
  induction contexts generalizing seen with
  | nil => rfl
  | cons context rest ih =>
    have one : ideal.resumeOne trieNode context seen =
        ((ideal.normalize trieNode context seen).1,
          [(ideal.normalize trieNode context seen).2]) := by
      unfold resumeOne normalize
      rw [unnamed]
      rfl
    rw [resumeAll, one, ih]
    rfl

lemma resumeAll_named (named : trieNode.subqueryId ≠ [])
    {contexts : List (QueryExecutionContext Object Iterable)} (objects : ∀ context ∈ contexts,
      context.redfishResponse.redfishObject.isSome = true) (seen : Observed Object Iterable) :
    ideal.resumeAll trieNode contexts seen =
      ((ideal.normalizeAll trieNode contexts seen).1, []) := by
  induction contexts generalizing seen with
  | nil => rfl
  | cons context rest ih =>
    have one : ideal.resumeOne trieNode context seen =
        ((ideal.normalize trieNode context seen).1, []) := by
      unfold resumeOne
      rw [if_neg]
      intro handed
      rcases Bool.or_eq_true_iff.mp handed with empty | missing
      · exact named (List.isEmpty_iff.mp empty)
      · rw [Option.isNone_iff_eq_none] at missing
        have shown := objects context (.head _)
        rw [missing] at shown
        cases shown
    rw [resumeAll, one, ih fun other member => objects other (.tail _ member)]
    rfl

/-- One step of both traversals where nothing is lost. -/
lemma resumeFollow_thinned {context : QueryExecutionContext Object Iterable}
    (kept : ∀ response ∈ ideal.select context.place expression,
      KeptByResume ideal.select expression.trieNode (context.place.next expression response))
    (seen : Observed Object Iterable) :
    ∃ after found some_, ideal.follow seen context expression = .ok (after, context, found) ∧
      ideal.resumeFollow seen context expression = .ok (after, context, some_) ∧
      Search.Thinned (IdleContext ideal.select) found some_ ∧
      ∀ next ∈ some_, next ∈ found := by
  by_cases unnamed : expression.trieNode.subqueryId = []
  · refine ⟨_, _, _, rfl, ?_, .refl _, fun _ listed => listed⟩
    rw [resumeFollow, resumeAll_unnamed _ unnamed]
  · have ends : ∀ response ∈ ideal.select context.place expression,
        response.redfishObject.isSome = true ∧
          ∀ other ∈ expression.trieNode.childExpressions,
            visitsBehind ideal.select (context.place.next expression response) other = [] :=
      fun response selected => (kept response selected).resolve_left unnamed
    have followed : ideal.follow seen context expression = .ok ((ideal.normalizeAll
        expression.trieNode (context.contextsFor expression
          (ideal.select context.place expression)) seen).1, context, _) := rfl
    refine ⟨_, _, [], followed, ?_, .none ?_, nofun⟩
    · rw [resumeFollow, resumeAll_named _ unnamed]
      intro next member
      rcases mem_map.mp member with ⟨response, selected, rfl⟩
      exact (ends response selected).1
    · intro next listed other member
      rcases ideal.follow_member followed listed with ⟨atNode, -, response, selected, atPlace⟩
      rw [atNode] at member
      rw [atPlace]
      exact (ends response selected).2 other member

/-- The two traversals agree exactly when nothing is lost wherever they come to. -/
lemma resumeRun_eq_iff (node : RedPathTrieNode) (response : RedfishResponse Object Iterable) :
    ideal.resumeRun node response = ideal.run node response ↔
      ∀ reached place expression, Comes ideal.select node ⟨[], response⟩ reached place ->
        expression ∈ reached.childExpressions ->
        ∀ selected ∈ ideal.select place expression,
          KeptByResume ideal.select expression.trieNode (place.next expression selected) := by
  constructor
  · intro same reached place expression comes member
    rcases ideal.run_normalized node response with ⟨seen, ran, collects⟩
    rcases ideal.resumeRun_normalized node response with ⟨others, ranOthers, collectsOthers⟩
    rw [same, ran] at ranOthers
    cases ranOthers
    have full := collectsOthers.length_eq.symm.trans collects.length_eq
    rw [visits_length, length_append] at full
    exact (keptByResume_of_comes (Nat.add_left_cancel full) comes).2 expression member
  · intro kept
    apply ideal.run_eq_of_thinned ideal.resumeSearch (fun _ => rfl)
    intro seen context expression comes member
    exact ideal.resumeFollow_thinned (kept _ _ _ comes member) seen

end Ideal

end

/-! ## Resume refines the ideal resumed traversal -/

section

variable {World Object Iterable : Type}

/-- The options of a run that polls with the settings of a resumed query. -/
def QueryResumeOptions.asRun (options : QueryResumeOptions World Object Iterable) :
    QueryExecutionOptions World Object Iterable where
  queryVariables := options.queryVariables
  urlAnnotationEnabled := options.urlAnnotationEnabled
  logRedfishTraces := false
  queryType := .polling
  customServiceRoot := []
  redfishInterface := options.redfishInterface

variable {planner : QueryPlanner World Object Iterable} {tree : ResourceTree Object Iterable}
  {interface : RedfishInterface World Object Iterable}
  {options : QueryResumeOptions World Object Iterable} {ideal : Ideal Object Iterable}

variable {context : QueryExecutionContext Object Iterable}

section

variable (static : IsStatic planner interface tree)

include static

lemma IsStatic.resumeContext_refines (sameQuery : ideal.query = planner.query)
    (built : ValueMatches planner tree options.urlAnnotationEnabled ideal trieNode context.place)
    (state : RunState World Object Iterable) :
    ∃ after, resumeContext planner options trieNode context state =
        .ok (after, (ideal.resumeOne trieNode context state.observed).2) ∧
      after.observed = (ideal.resumeOne trieNode context state.observed).1 ∧
      KeepsRest state after := by
  unfold resumeContext Ideal.resumeOne
  by_cases handed : (trieNode.subqueryId.isEmpty ||
      context.redfishResponse.redfishObject.isNone) = true
  · rw [if_pos handed, if_pos handed]
    exact ⟨state, rfl, rfl, .refl state⟩
  · rw [if_neg handed, if_neg handed]
    have unempty : ¬ trieNode.subqueryId.isEmpty = true := by
      intro empty
      exact handed (by rw [empty]; rfl)
    have named : trieNode.subqueryId ≠ [] := by
      intro empty
      exact unempty (by rw [empty]; rfl)
    rcases static.tryNormalize_stores (built named) planner.redfishInterface state.result
      state.world with ⟨fine, data, status, queryId, changed⟩
    generalize tryNormalize planner trieNode.subqueryId planner.redfishInterface context
      options.urlAnnotationEnabled state.result state.world = tried
      at fine data status queryId changed ⊢
    simp only [fine]
    refine ⟨{ state with
      world := tried.2
      result := tried.1.2.1
      normalized := state.normalized ++ [(trieNode.subqueryId, context.redfishResponse)] },
      rfl, ?_, ⟨status, queryId, rfl⟩⟩
    simp only [RunState.observed, Ideal.normalize, if_neg unempty, data, sameQuery]

lemma IsStatic.resumeContexts_refines (sameQuery : ideal.query = planner.query)
    {contexts : List (QueryExecutionContext Object Iterable)} (built : ∀ context ∈ contexts,
      ValueMatches planner tree options.urlAnnotationEnabled ideal trieNode context.place)
    (state : RunState World Object Iterable) :
    ∃ after, resumeContexts planner options trieNode contexts state =
        .ok (after, (ideal.resumeAll trieNode contexts state.observed).2) ∧
      after.observed = (ideal.resumeAll trieNode contexts state.observed).1 ∧
      KeepsRest state after := by
  induction contexts generalizing state with
  | nil => exact ⟨state, rfl, rfl, .refl state⟩
  | cons context rest ih =>
    rcases static.resumeContext_refines sameQuery (built context (.head _)) state
      with ⟨between, ranFirst, seenFirst, keepsFirst⟩
    rcases ih (fun other member => built other (.tail _ member)) between with
      ⟨after, ranRest, seenRest, keepsRest⟩
    rw [seenFirst] at ranRest seenRest
    refine ⟨after, ?_, seenRest, keepsFirst.trans keepsRest⟩
    rw [resumeContexts, ranFirst]
    simp only [bind, Except.bind, ranRest]
    rfl

lemma IsStatic.resumeExpression_refines (local_ : resumeInterface planner options = some interface)
    (sameQuery : ideal.query = planner.query)
    (agrees : Matches planner tree options.queryVariables options.urlAnnotationEnabled ideal
      context.place expression) (state : RunState World Object Iterable) :
    ∃ after found,
      resumeExpression planner options state context expression = .ok (after, context, found) ∧
      ideal.resumeFollow state.observed context expression = .ok (after.observed, context, found) ∧
      after.result.queryId = state.result.queryId ∧
      after.subscriptionContext = state.subscriptionContext := by
  have yields := static.executeForResponses_yields expression context options.queryVariables
    (state.toExecution context)
  unfold resumeExpression
  rw [local_]
  simp only [executeQueryExpression_fst, executeQueryExpression_snd]
  generalize (executeForResponses planner .polling expression context options.queryVariables
    (some interface) (state.toExecution context)) = executed at yields ⊢
  rcases executed with ⟨answer, changed⟩
  rcases yields with ⟨rfl, uris, -, -⟩
  have sameContext : { context with urisToSubscribe := changed.urisToSubscribe } = context := by
    rw [uris]
    rfl
  simp only [sameContext]
  rcases agrees.answer with answered | ⟨nothing, status, answered, -⟩
  · rw [answered]
    rcases static.resumeContexts_refines sameQuery agrees.valuesAt (state.afterExecution changed)
      with ⟨after, ran, seen, keeps⟩
    refine ⟨after, (ideal.resumeAll expression.trieNode (context.contextsFor expression
      (ideal.select context.place expression)) state.observed).2, ?_, ?_, keeps.queryId,
      keeps.subscriptionContext⟩
    · simp only [Except.map]
      rw [ran]
      rfl
    · rw [seen]
      rfl
  · rw [answered]
    have ended : ideal.resumeFollow state.observed context expression =
        .ok (state.observed, context, []) := by
      rw [Ideal.resumeFollow, nothing]
      rfl
    by_cases absent : status.code = .notFound
    · refine ⟨state.afterExecution changed, [], ?_, ended, rfl, rfl⟩
      simp only [Except.map, if_pos absent]
    · refine ⟨(state.afterExecution changed).populateError status context.lastRedpathPrefix
        expression, [], ?_, ended, rfl, rfl⟩
      simp only [Except.map, if_neg absent]

end

section

variable (static : IsStatic planner interface tree)
  (local_ : resumeInterface planner options = some interface)
  (sameQuery : ideal.query = planner.query)
  {root : RedPathTrieNode} {start : Place Object Iterable}
  (agrees : ∀ node place expression, Comes ideal.select root start node place ->
    expression ∈ node.childExpressions ->
      Matches planner tree options.queryVariables options.urlAnnotationEnabled ideal place
        expression)

include static local_ sameQuery agrees

variable {context : QueryExecutionContext Object Iterable}

lemma InStep.resume {first state : RunState World Object Iterable} {seen : Observed Object Iterable}
    {remaining : List RedPathExpression} {queue : List (QueryExecutionContext Object Iterable)}
    (inStep : InStep ideal root start first False state seen context (expression :: remaining)
      queue) :
    ∃ after afterSeen changed found,
      resumeExpression planner options state context expression = .ok (after, changed, found) ∧
      ideal.resumeFollow seen context expression = .ok (afterSeen, changed, found) ∧
      InStep ideal root start first False after afterSeen changed remaining (queue ++ found) := by
  have member := inStep.remaining expression (.head _)
  rcases static.resumeExpression_refines local_ sameQuery
    (agrees _ _ _ inStep.current.comes member) state with
    ⟨after, found, followed, ideally, queryId, subscription⟩
  rw [inStep.observed] at ideally
  refine ⟨after, after.observed, context, found, followed, ideally, rfl, inStep.current,
    ?_, ?_, False.elim, queryId.trans inStep.queryId,
    subscription.trans inStep.subscriptionContext⟩
  · intro other listed
    exact inStep.remaining other (.tail _ listed)
  · intro next listed
    rcases mem_append.mp listed with listed | listed
    · exact inStep.queue next listed
    · rcases ideal.resumeFollow_member ideally listed with
        ⟨atNode, plain, response, selected, atPlace⟩
      refine ⟨plain, ?_⟩
      rw [atNode, atPlace]
      exact .step inStep.current.comes member selected

lemma IsStatic.resumeSearch_refines (atRoot : context.redpathTrieNode = root)
    (atStart : context.place = start) (plain : context.urisToSubscribe = [])
    (state : RunState World Object Iterable) :
    ∃ final, (resumeSearch planner options).run state context = .ok final ∧
      ideal.resumeSearch.run state.observed context = .ok final.observed := by
  have begin_ : InStep ideal root start state False state state.observed context
      context.redpathTrieNode.childExpressions [] :=
    ⟨rfl, ⟨plain, by rw [atRoot, atStart]; exact .start⟩, fun _ listed => listed, nofun,
      False.elim, rfl, rfl⟩
  rcases (resumeSearch planner options).explore_lockstep ideal.resumeSearch (fun _ => rfl)
    (InStep ideal root start state False)
    (fun _ _ _ _ _ _ inStep => inStep.resume static local_ sameQuery agrees)
    (fun _ _ _ _ _ inStep => inStep.take) begin_ with
    ⟨final, finalSeen, last, ran, ideally, inStep⟩
  refine ⟨final, ran, ?_⟩
  rw [inStep.observed]
  exact ideally

end

lemma IsStatic.startResume_refines (static : IsStatic planner interface tree)
    (sameQuery : ideal.query = planner.query)
    (value : ValueMatches planner tree options.urlAnnotationEnabled ideal options.trieNode
      ⟨[], options.response⟩) (world : World) :
    ∃ state, startResume planner options world = .ok (state, (ideal.normalize
        options.trieNode (.start options.trieNode options.response) ⟨[], []⟩).2) ∧
      state.observed = (ideal.normalize options.trieNode
        (.start options.trieNode options.response) ⟨[], []⟩).1 := by
  unfold startResume Ideal.normalize
  by_cases unnamed : options.trieNode.subqueryId.isEmpty
  · simp only [unnamed]
    exact ⟨_, rfl, rfl⟩
  · have named : options.trieNode.subqueryId ≠ [] := by
      intro empty
      exact unnamed (by rw [empty]; rfl)
    -- A resource without an object and without raw bytes yields no value.
    have shown : options.redfishVariant.object.isNone = false := by
      cases object : options.redfishVariant.object with
      | some object => rfl
      | none =>
        have built := value named
        rw [treeValue] at built
        split at built
        · cases built
        · simp only [QueryResumeOptions.response, object, rawValueFor] at built
          split at built
          · rename_i raw
            split at raw
            · rename_i same
              cases same
            · cases raw
          · cases built
    have built : treeValue planner tree options.urlAnnotationEnabled options.trieNode.subqueryId
        (QueryExecutionContext.start options.trieNode options.response).place =
          .ok (ideal.value options.trieNode.subqueryId ⟨[], options.response⟩) :=
      value named
    have stores := static.tryNormalize_stores built planner.redfishInterface
      (.start planner.query.queryId) world
    have going : (options.trieNode.subqueryId.isEmpty ||
        (QueryExecutionContext.start options.trieNode
          options.response).redfishResponse.redfishObject.isNone) = false := by
      rw [Bool.eq_false_iff.mpr unnamed]
      exact shown
    simp only [going, if_neg unnamed]
    generalize tryNormalize planner options.trieNode.subqueryId planner.redfishInterface
      (.start options.trieNode options.response) options.urlAnnotationEnabled
      (.start planner.query.queryId) world = tried at stores ⊢
    rcases stores with ⟨fine, data, status, queryId, changed⟩
    simp only [fine]
    refine ⟨⟨tried.2, tried.1.2.1, none, [(options.trieNode.subqueryId, options.response)]⟩, ?_, ?_⟩
    · rw [changed, sameQuery]
      rfl
    · rw [RunState.observed, data, sameQuery]
      rfl

/-- The trie nodes and places that a traversal from the resumed node comes to, if
it follows what is available. -/
def ComesBelow (planner : QueryPlanner World Object Iterable)
    (tree : ResourceTree Object Iterable) (options : QueryResumeOptions World Object Iterable) :
    RedPathTrieNode -> Place Object Iterable -> Prop :=
  Comes (available planner tree options.queryVariables) options.trieNode ⟨[], options.response⟩

/-- For every trie node, every resource and every static tree below it in which nothing goes wrong:
`Resume` and the polling traversal normalise the same resources, with the same data, exactly when
every resource that is selected below the node at the end of a subquery has an object and nothing is
to be normalised behind it. -/
theorem IsStatic.resume_agrees_iff (static : IsStatic planner interface tree)
    (local_ : resumeInterface planner options = some interface)
    (errorFree : ∀ node place expression, ComesBelow planner tree options node place ->
      expression ∈ node.childExpressions ->
        ErrorFreeAt planner tree options.queryVariables place expression)
    (normalises : ∀ node place, ComesBelow planner tree options node place ->
      Normalises planner tree options.urlAnnotationEnabled node place) (world : World) :
    ∃ resumed traversed, ResumeEndsIn planner options world resumed ∧
      Traverses planner options.asRun options.trieNode options.response world traversed ∧
      (resumed.result.data = traversed.result.data ∧
          resumed.normalized = traversed.normalized ↔
        ∀ node place expression, ComesBelow planner tree options node place ->
          expression ∈ node.childExpressions ->
          ∀ response ∈ available planner tree options.queryVariables place
              expression,
            KeptByResume (available planner tree options.queryVariables) expression.trieNode
              (place.next expression response)) := by
  have agrees : ∀ node place expression,
      ComesBelow planner tree options node place -> expression ∈ node.childExpressions ->
        Matches planner tree options.queryVariables options.urlAnnotationEnabled
          (availableIdeal planner tree options.asRun) place expression := by
    intro node place expression comes member
    have free : ErrorFreeAt planner tree options.asRun.queryVariables place expression :=
      errorFree node place expression comes member
    exact free.matches_available fun response selected => normalises _ _ (.step comes member selected)
  have value : ValueMatches planner tree options.urlAnnotationEnabled
      (availableIdeal planner tree options.asRun) options.trieNode ⟨[], options.response⟩ :=
    fun named => (normalises _ _ .start).valueAt named
  have sameQuery : (availableIdeal planner tree options.asRun).query = planner.query := rfl
  have polling : options.asRun.queryType = .polling := rfl
  rcases static.traverses_refines polling local_ sameQuery value agrees
    (fun impossible : False => impossible.elim) world with ⟨traversed, traverses, ideally, -⟩
  rcases static.startResume_refines sameQuery value world with ⟨state, started, seen⟩
  have plain := (availableIdeal planner tree options.asRun).normalize_uris options.trieNode
    (.start options.trieNode options.response) ⟨[], []⟩
  rcases static.resumeSearch_refines local_ sameQuery agrees (Ideal.normalize_trieNode _ _ _ _)
    (Ideal.normalize_place _ _ _ _) plain state with ⟨resumed, ran, resumedIdeally⟩
  rw [seen] at resumedIdeally
  refine ⟨resumed, traversed, resumeEndsIn _ _ local_ started ran, traverses, ?_⟩
  have same := (availableIdeal planner tree options.asRun).resumeRun_eq_iff options.trieNode
    options.response
  rw [ideally,
    show Ideal.resumeRun (availableIdeal planner tree options.asRun) options.trieNode options.response =
      .ok resumed.observed from resumedIdeally,
    Except.ok.injEq, Observed.mk.injEq] at same
  exact same

end

/-! ### Concrete queries -/

/-- A subquery below the end of another one. -/
def innerNode : RedPathExpression :=
  .mk .nodeName (text "Power") (.mk (text "inner") [])

def outerNode : RedPathExpression :=
  .mk .nodeName (text "Chassis") (.mk (text "outer") [innerNode])

def nestedTable : ServiceTable where
  root := .ofObject 0
  nodes := [((0, text "Chassis"), .ofObject 1), ((1, text "Power"), .ofObject 2)]
  members := []
  contents := []

def nestedPlanner : QueryPlanner Unit Nat Nat :=
  tablePlanner nestedTable
    [plainSubquery (text "outer") [], plainSubquery (text "inner") [text "outer"]]
    (.mk [] [outerNode]) .failOnFirstError

def resumeAt (node : RedPathTrieNode) (object : Nat) : QueryResumeOptions Unit Nat Nat :=
  ⟨node, .ofObject object, [], false, none⟩

/-- Resumed at the root, the inner subquery is neither executed nor nested. -/
theorem resume_skips_nested :
    ∃ resumed traversed,
      ResumeEndsIn nestedPlanner (resumeAt (.mk [] [outerNode]) 0) () resumed ∧
      resumed.observed = ⟨[(text "outer", .list [.subquery [(text "Number", .int 1)]])],
        [(text "outer", .ofObject (some 1))]⟩ ∧
      Traverses nestedPlanner (resumeAt (.mk [] [outerNode]) 0).asRun (.mk [] [outerNode])
        (.ofObject (some 0)) () traversed ∧
      traversed.observed = ⟨[(text "outer", .list [.subquery [(text "Number", .int 1),
          (text "inner", .list [.subquery [(text "Number", .int 2)]])]])],
        [(text "outer", .ofObject (some 1)), (text "inner", .ofObject (some 2))]⟩ := by
  exact ⟨_, _, resumeEndsIn _ _ rfl rfl (Search.run_of_within _ 4 rfl), rfl, .within rfl 6 rfl, rfl⟩

lemma nestedPlanner_comes {node : RedPathTrieNode} {place : Place Nat Nat}
    (comes : ComesBelow nestedPlanner nestedTable.tree (resumeAt outerNode.trieNode 1) node place) :
    (node = outerNode.trieNode ∧ place = ⟨[], .ofObject (some 1)⟩) ∨
      (node = innerNode.trieNode ∧ place = ⟨text "/Power", .ofObject (some 2)⟩) := by
  induction comes with
  | start => exact .inl ⟨rfl, rfl⟩
  | step came member selected ih =>
    rcases ih with ⟨rfl, rfl⟩ | ⟨rfl, rfl⟩
    · cases mem_singleton.mp member
      cases mem_singleton.mp selected
      exact .inr ⟨rfl, rfl⟩
    · exact nomatch member

/-- Resumed at the outer node itself, both subqueries are executed and nested. -/
theorem resume_agrees_nestedPlanner :
    ∃ resumed traversed,
      ResumeEndsIn nestedPlanner (resumeAt outerNode.trieNode 1) () resumed ∧
      Traverses nestedPlanner (resumeAt outerNode.trieNode 1).asRun outerNode.trieNode
        (.ofObject (some 1)) () traversed ∧
      resumed.result.data = traversed.result.data ∧
      resumed.normalized = traversed.normalized := by
  have static : IsStatic nestedPlanner nestedTable.interface nestedTable.tree :=
    tablePlanner_isStatic _ _ _ _
  have local_ : resumeInterface nestedPlanner (resumeAt outerNode.trieNode 1) =
      some nestedTable.interface := rfl
  rcases static.resume_agrees_iff local_ (fun node place expression comes member => by
      rcases nestedPlanner_comes comes with ⟨rfl, rfl⟩ | ⟨rfl, rfl⟩
      · cases List.mem_singleton.mp member
        refine ⟨nofun, ?_⟩
        rintro object failure - shown answered
        cases shown
        cases answered
      · exact nomatch member)
    (fun node place comes named => by
      rcases nestedPlanner_comes comes with ⟨rfl, rfl⟩ | ⟨rfl, rfl⟩
      · exact ⟨_, rfl⟩
      · exact ⟨_, rfl⟩) () with ⟨resumed, traversed, ends, traverses, agrees⟩
  refine ⟨resumed, traversed, ends, traverses, agrees.mpr ?_⟩
  intro node place expression comes member response selected
  rcases nestedPlanner_comes comes with ⟨rfl, rfl⟩ | ⟨rfl, rfl⟩
  · cases List.mem_singleton.mp member
    cases List.mem_singleton.mp selected
    exact .inr ⟨rfl, nofun⟩
  · exact nomatch member

end Ecclesia.Planner
