import Ecclesia.Engine.Events
import Ecclesia.Planner.Inversion

namespace Ecclesia.Planner

open Absl List Bool

/-!
# The subscriptions of a run

Where a run subscribes, it does not go on but collects URIs in the context at
hand, which all expressions of a trie node share.  A configuration takes these
URIs over and is filed, with the trie node of its expression, under a RedPath
in which every predicate is written as `[*]`.  Both can go wrong: URIs are
left in the context when the execution of an expression is given up, and the
RedPath of another expression may have been filed before.
-/

/-! ## The members of a subscribed collection -/

/-- What a subscription gets from a member of a collection. -/
inductive MemberNews where
  | uri (uri : Text)
  | nothing
  | cancelled
  | failed (status : Status)

def MemberNews.uri? : MemberNews -> Option Text
  | .uri found => some found
  | _ => none

variable {redpath : Text}

section

variable {World Object Iterable : Type}

section

variable (planner : QueryPlanner World Object Iterable) (params : GetParams) (iterable : Iterable)

/-- Fetch a member and ask it for its URI. -/
def askMember (nodeIndex : Nat) : StateM World MemberNews := do
  let indexedNode <- planner.views.index iterable nodeIndex
  let cancelled <- planner.isQueryExecutionCancelled
  let indexedNodeAsObject <- getRedfishObjectWithFreshness planner params indexedNode cancelled
  match indexedNodeAsObject with
  | .error status =>
    if status.code = .cancelled then return .cancelled
    else return .failed (if indexedNode.status.isOk then status else indexedNode.status)
  | .ok none => return .nothing
  | .ok (some object) => do
      let odataId <- planner.views.getNodeValue object propertyOdataId
      match odataId with
      | some uri => return .uri uri
      | none => return .nothing

/-- The first failure ends the loop over the members in the strict mode. -/
def endsLoop (news : MemberNews) : Bool :=
  match news with
  | .failed _ => decide (planner.executionMode = .failOnFirstError)
  | _ => false

/-- The news of the members at the given indices, as far as the loop comes. -/
def askMembers : List Nat -> World -> List MemberNews
  | [], _ => []
  | nodeIndex :: rest, world =>
    let asked := askMember planner params iterable nodeIndex world
    asked.1 :: (if endsLoop planner asked.1 then [] else askMembers rest asked.2)

end

/-- The execution was given up at a member: no URI that was collected before is
taken over. -/
def GivenUp (mode : ExecutionMode) (news : List MemberNews) : Prop :=
  .cancelled ∈ news ∨
    (mode = .failOnFirstError ∧ ∃ status, .failed status ∈ news ∧ status.code = .notFound)

variable {queryType : QueryType}

section

variable {planner : QueryPlanner World Object Iterable}

/-- How the turn of a member ends that could not be fetched. -/
def FailsWith (planner : QueryPlanner World Object Iterable) (status : Status)
    (turn : MemberTurn Object Iterable) : Prop :=
  (∃ what, turn = .exit (.exception what)) ∨
    (planner.executionMode = .failOnFirstError ∧
      ∃ located, turn = .exit (.status located) ∧ located.code = status.code) ∨
    (planner.executionMode ≠ .failOnFirstError ∧ turn = .next)

lemma failMember_failsWith (planner : QueryPlanner World Object Iterable)
    (expression : RedPathExpression) (context : QueryExecutionContext Object Iterable)
    (nodeIndex : Nat) (errorStatus : Status) (state : ExecutionState World) :
    let turn := failMember planner expression context nodeIndex errorStatus state
    turn.2.world = state.world ∧ turn.2.urisToSubscribe = state.urisToSubscribe ∧
      FailsWith planner errorStatus turn.1 := by
  unfold failMember
  cases reported : statusAtResource (getChildUriFromIterable planner.views
      context.redfishResponse nodeIndex) errorStatus with
  | exception what => exact ⟨rfl, rfl, .inl ⟨what, rfl⟩⟩
  | status located =>
    simp only
    by_cases strict : planner.executionMode = .failOnFirstError
    · rw [if_pos strict]
      exact ⟨rfl, rfl, .inr (.inl ⟨strict, located, rfl, statusAtResource_code reported⟩)⟩
    · rw [if_neg strict]
      by_cases absent : located.code ≠ .notFound
      · rw [if_pos absent]
        exact ⟨rfl, rfl, .inr (.inr ⟨strict, rfl⟩)⟩
      · rw [if_neg absent]
        exact ⟨rfl, rfl, .inr (.inr ⟨strict, rfl⟩)⟩

def TurnFor (planner : QueryPlanner World Object Iterable) (turn : MemberTurn Object Iterable) :
    MemberNews -> Prop
  | .uri _ => turn = .next
  | .nothing => turn = .next
  | .cancelled => turn = .push (.ofObject none)
  | .failed status => FailsWith planner status turn

variable {expression : RedPathExpression} {context : QueryExecutionContext Object Iterable}

lemma executeMember_subscribed (subscribes : subscribesAt planner queryType
      (addExpressionToRedPath context.lastRedpathPrefix expression) = true) (params : GetParams)
    (newPredicate : Text) (iterable : Iterable) (nodeIndex : Nat) (state : ExecutionState World) :
    let turn := executeMember planner queryType expression context params newPredicate iterable
      nodeIndex state
    let asked := askMember planner params iterable nodeIndex state.world
    turn.2.world = asked.2 ∧
      turn.2.urisToSubscribe = state.urisToSubscribe ++ asked.1.uri?.toList ∧
      TurnFor planner turn.1 asked.1 := by
  unfold executeMember askMember
  simp only [bind, StateT.bind, onWorld]
  rcases planner.views.index iterable nodeIndex state.world with ⟨indexedNode, fetched⟩
  simp only
  rcases planner.isQueryExecutionCancelled fetched with ⟨cancelled, checked⟩
  simp only
  rcases getRedfishObjectWithFreshness planner params indexedNode cancelled checked with
    ⟨answer, after⟩
  cases answer with
  | error status =>
    by_cases stopped : status.code = .cancelled
    · simp only [if_pos stopped]
      exact ⟨rfl, (append_nil _).symm, rfl⟩
    · simp only [if_neg stopped]
      generalize (if indexedNode.status.isOk = true then status else indexedNode.status) =
        errorStatus
      have fails := failMember_failsWith planner expression context nodeIndex errorStatus
        { state with world := after }
      exact ⟨fails.1, fails.2.1.trans (append_nil _).symm, fails.2.2⟩
  | ok object =>
    cases object with
    | none => exact ⟨rfl, (append_nil _).symm, rfl⟩
    | some object =>
      simp only [selectMember, if_pos subscribes, bind, StateT.bind, onWorld]
      rcases planner.views.getNodeValue object propertyOdataId after with ⟨odataId, read⟩
      cases odataId with
      | none => exact ⟨rfl, (append_nil _).symm, rfl⟩
      | some uri => exact ⟨rfl, rfl, rfl⟩

/-- A loop at a subscribed collection has collected the URIs among the news at its end, and
responses to cancellations only. -/
structure LoopFor (planner : QueryPlanner World Object Iterable) (news : List MemberNews)
    (before after : List Text)
    (answer : Evaluation (List (RedfishResponse Object Iterable))) : Prop where
  uris : after = before ++ news.filterMap MemberNews.uri?
  responses : ∀ responses, answer = .ok responses -> responses ≠ [] -> .cancelled ∈ news
  failure : ∀ located, answer = .error (.status located) ->
    planner.executionMode = .failOnFirstError ∧
      ∃ status, .failed status ∈ news ∧ located.code = status.code

namespace LoopFor

variable {news : List MemberNews} {before between after : List Text}
  {answer : Evaluation (List (RedfishResponse Object Iterable))}

/-- A turn in front of the loop that goes on without a response. -/
lemma next (first : MemberNews) (later : LoopFor planner news between after answer)
    (uris : between = before ++ first.uri?.toList) :
    LoopFor planner (first :: news) before after answer := by
  refine ⟨?_, ?_, ?_⟩
  · rw [later.uris, uris, append_assoc]
    cases first with
    | uri found => rfl
    | nothing => rfl
    | cancelled => rfl
    | failed status => rfl
  · intro responses same some_
    exact .tail _ (later.responses responses same some_)
  · intro located failed
    rcases later.failure located failed with ⟨strict, status, member, code⟩
    exact ⟨strict, status, .tail _ member, code⟩

lemma push (response : RedfishResponse Object Iterable)
    (later : LoopFor planner news before after answer) :
    LoopFor planner (.cancelled :: news) before after
      (answer.map fun responses => response :: responses) := by
  refine ⟨later.uris, fun _ _ _ => (.head _), ?_⟩
  intro located failed
  cases answer with
  | ok responses => cases failed
  | error failure =>
    rcases later.failure located (by cases failed; rfl) with ⟨strict, status, member, code⟩
    exact ⟨strict, status, .tail _ member, code⟩

end LoopFor

lemma executeMembers_subscribed (subscribes : subscribesAt planner queryType
      (addExpressionToRedPath context.lastRedpathPrefix expression) = true)
    (params : GetParams) (newPredicate : Text) (iterable : Iterable) (indices : List Nat)
    (state : ExecutionState World) :
    let ran := executeMembers planner queryType expression context params newPredicate iterable
      indices state
    (∃ what, ran.1 = .error (.exception what)) ∨
      LoopFor planner (askMembers planner params iterable indices state.world)
        state.urisToSubscribe ran.2.urisToSubscribe ran.1 := by
  induction indices generalizing state with
  | nil =>
    refine .inr ⟨(append_nil _).symm, ?_, ?_⟩
    · intro responses same some_
      cases same
      exact absurd rfl some_
    · intro other impossible
      cases impossible
  | cons nodeIndex rest ih =>
    have turns := executeMember_subscribed subscribes params newPredicate iterable nodeIndex state
    rw [executeMembers, askMembers]
    simp only [bind, StateT.bind]
    generalize askMember planner params iterable nodeIndex state.world = asked at turns ⊢
    rcases asked with ⟨news, asked⟩
    generalize executeMember planner queryType expression context params newPredicate iterable
      nodeIndex state = turned at turns ⊢
    rcases turned with ⟨turn, after⟩
    rcases turns with ⟨world, uris, turnFor⟩
    have later := ih after
    rw [world] at later
    cases news with
    | uri found =>
      cases turnFor
      exact later.imp id fun loop => loop.next (.uri found) uris
    | nothing =>
      cases turnFor
      exact later.imp id fun loop => loop.next .nothing uris
    | cancelled =>
      cases turnFor
      have same : after.urisToSubscribe = state.urisToSubscribe := uris.trans (append_nil _)
      rw [same] at later
      rcases later with ⟨what, thrown⟩ | loop
      · refine .inl ⟨what, ?_⟩
        change ((executeMembers planner queryType expression context params newPredicate
          iterable rest after).1.map _) = _
        rw [thrown]
        rfl
      · exact .inr (loop.push _)
    | failed status =>
      rcases turnFor with ⟨what, rfl⟩ | ⟨strict, located, rfl, code⟩ | ⟨lenient, rfl⟩
      · exact .inl ⟨what, rfl⟩
      · refine .inr ⟨?_, ?_, ?_⟩
        · rw [endsLoop, strict]
          exact uris
        · intro responses impossible
          cases impossible
        · intro other same
          cases same
          exact ⟨strict, status, .head _, code⟩
      · have goesOn : endsLoop planner (.failed status) = false := decide_eq_false lenient
        rw [goesOn]
        exact later.imp id fun loop => loop.next (.failed status) uris

/-! ## Execution without a subscription -/

/-- The URIs to subscribe to stay as they are. -/
def keepUris (World : Type) : Keeping (ExecutionState World) :=
  ⟨fun before after => after.urisToSubscribe = before.urisToSubscribe, fun _ => rfl,
    fun first second => second.trans first⟩

lemma onWorld_within {Value : Type} (action : StateM World Value) :
    Within (keepUris World) (onWorld action) := fun _ => rfl

lemma onStatus_within (change : Option ResultStatus -> Option ResultStatus) :
    Within (keepUris World) (onStatus change) := fun _ => rfl

variable {queryType : QueryType} {expression : RedPathExpression}
  {context : QueryExecutionContext Object Iterable}
  (elsewhere : subscribesAt planner queryType
    (addExpressionToRedPath context.lastRedpathPrefix expression) = false)

include elsewhere

section

variable (params : GetParams) (newPredicate : Text) (iterable : Iterable)

lemma executeMember_within (nodeIndex : Nat) :
    Within (keepUris World) (executeMember planner queryType expression context params
      newPredicate iterable nodeIndex) := by
  refine .bind (onWorld_within _) fun indexedNode => .bind (onWorld_within _) fun cancelled =>
    .bind (onWorld_within _) fun indexedNodeAsObject => ?_
  split
  · rename_i status
    by_cases stopped : status.code = .cancelled
    · rw [if_pos stopped]
      exact .bind (onStatus_within _) fun _ => .pure _
    · rw [if_neg stopped]
      exact fun state => (failMember_failsWith planner _ _ _ _ state).2.1
  · exact .pure _
  · unfold selectMember
    rw [elsewhere]
    simp only [false_eq_true, if_false]
    split
    · exact .pure _
    · exact .pure _
    · exact .pure _

lemma executeMembers_within (indices : List Nat) :
    Within (keepUris World) (executeMembers planner queryType expression context params
      newPredicate iterable indices) := by
  induction indices with
  | nil => exact .pure _
  | cons nodeIndex rest ih =>
    refine .bind (executeMember_within elsewhere _ _ _ _) fun turn => ?_
    cases turn with
    | next => exact ih
    | push response => exact .bind ih fun _ => .pure _
    | exit failure => exact .pure _

end

lemma executeOnObject_within (queryVariables : QueryVariables)
    (interface : RedfishInterface World Object Iterable) (object : Object) :
    Within (keepUris World) (executeOnObject planner queryType expression context queryVariables
      interface object) := by
  have accepts : ∀ params variant,
      Within (keepUris World) (acceptVariant planner expression context params variant) := by
    intro params variant
    unfold acceptVariant
    split_ifs
    · exact .pure _
    · split
      · exact .pure _
      · refine .bind (onWorld_within _) fun cancelled => .bind (onWorld_within _) fun fresh => ?_
        split
        · exact .pure _
        · exact .pure _
    · exact .pure _
  unfold executeOnObject
  simp only [elsewhere]
  refine .bind (onWorld_within _) fun cancelled => ?_
  split_ifs
  · exact .pure _
  · split
    · exact .bind (onWorld_within _) fun variant => accepts _ _
    · split
      · exact .pure _
      · exact .pure _
      · split
        · exact .pure _
        · exact .bind (onWorld_within _) fun variant => accepts _ _
    · exact .bind (onWorld_within _) fun variant => accepts _ _
    · unfold executeSinglePredicate
      split
      · exact .pure _
      · refine .bind (onWorld_within _) fun fresh => ?_
        split
        · exact .pure _
        · exact .pure _
        · exact .pure _
    · exact accepts _ _

end

/-! ## What an expression selects for a subscription -/

section

variable (planner : QueryPlanner World Object Iterable) (queryType : QueryType)
  (queryVariables : QueryVariables) (context : QueryExecutionContext Object Iterable)
  (expression : RedPathExpression) (world : World)

/-- The news of the members, if the expression runs over members. -/
def newsAt : List MemberNews :=
  match membersFor context.redfishResponse expression with
  | none => []
  | some iterable =>
    match planner.substituteVariables expression.expression queryVariables with
    | .error _ => []
    | .ok _ =>
      askMembers planner (getQueryParamsForRedPath planner
        (addExpressionToRedPath context.lastRedpathPrefix expression)) iterable
        (List.range (planner.views.size iterable)) world

def nodeUri : Option Text :=
  match context.redfishResponse.redfishObject with
  | none => none
  | some object =>
    match getNavigationalPropertyToSubscribe planner expression object
        (getQueryParamsForRedPath planner
          (addExpressionToRedPath context.lastRedpathPrefix expression)) with
    | .ok uri => some uri
    | .error _ => none

/-- The URIs that an expression selects at a context: those of the members, or that of the node. -/
def selectedUris : List Text :=
  if subscribesAt planner queryType
      (addExpressionToRedPath context.lastRedpathPrefix expression) then
    if (membersFor context.redfishResponse expression).isSome then
      (newsAt planner queryVariables context expression world).filterMap MemberNews.uri?
    else (nodeUri planner context expression).toList
  else []

/-- Where an expression selects URIs, its execution is not given up. -/
def Undisturbed : Prop :=
  selectedUris planner queryType queryVariables context expression world ≠ [] ->
    ¬ GivenUp planner.executionMode (newsAt planner queryVariables context expression world)

end

variable (planner : QueryPlanner World Object Iterable)

/-- What the execution of an expression leaves in the context, and when it does not
simply halt there. -/
structure Collects (news : List MemberNews) (selected before after : List Text)
    (answer : Evaluation (List (RedfishResponse Object Iterable))) : Prop where
  uris : after = before ++ selected
  halts : selected ≠ [] -> ¬ GivenUp planner.executionMode news -> answer = .ok [] ∨
    (planner.executionMode = .failOnFirstError ∧
      ∃ located, answer = .error (.status located) ∧ located.code ≠ .notFound)

lemma LoopFor.collects {planner : QueryPlanner World Object Iterable} {news : List MemberNews}
    {before after : List Text} {answer : Evaluation (List (RedfishResponse Object Iterable))}
    (loop : LoopFor planner news before after answer)
    (returns : ∀ what, answer ≠ .error (.exception what)) :
    Collects planner news (news.filterMap MemberNews.uri?) before after answer := by
  refine ⟨loop.uris, ?_⟩
  intro _ goesOn
  cases answer with
  | ok responses =>
    refine .inl ?_
    by_cases empty : responses = []
    · rw [empty]
    · exact absurd (.inl (loop.responses responses rfl empty)) goesOn
  | error failure =>
    cases failure with
    | exception what => exact absurd rfl (returns what)
    | status located =>
      rcases loop.failure located rfl with ⟨strict, status, member, code⟩
      refine .inr ⟨strict, located, rfl, ?_⟩
      intro missing
      exact goesOn (.inr ⟨strict, status, member, code.symm.trans missing⟩)

lemma executeForResponses_collects (queryType : QueryType) (expression : RedPathExpression)
    (context : QueryExecutionContext Object Iterable) (queryVariables : QueryVariables)
    (interface : RedfishInterface World Object Iterable) (state : ExecutionState World) :
    let ran := executeForResponses planner queryType expression context queryVariables
      (some interface) state
    (∃ what, ran.1 = .error (.exception what)) ∨
      Collects planner (newsAt planner queryVariables context expression state.world)
        (selectedUris planner queryType queryVariables context expression state.world)
        state.urisToSubscribe ran.2.urisToSubscribe ran.1 := by
  have nothing : ∀ {news : List MemberNews} {before after : List Text}
      {answer : Evaluation (List (RedfishResponse Object Iterable))}, after = before ->
      Collects planner news [] before after answer :=
    fun same => ⟨same.trans (append_nil _).symm, fun some_ => absurd rfl some_⟩
  unfold executeForResponses selectedUris
  cases subscribes : subscribesAt planner queryType
      (addExpressionToRedPath context.lastRedpathPrefix expression) with
  | false =>
    refine .inr (nothing ?_)
    cases members : membersFor context.redfishResponse expression with
    | some iterable =>
      cases planner.substituteVariables expression.expression queryVariables with
      | error status => rfl
      | ok newPredicate => exact executeMembers_within subscribes _ _ _ _ state
    | none =>
      cases context.redfishResponse.redfishObject with
      | none => rfl
      | some object => exact executeOnObject_within subscribes _ _ _ state
  | true =>
    rw [newsAt]
    cases members : membersFor context.redfishResponse expression with
    | some iterable =>
      cases planner.substituteVariables expression.expression queryVariables with
      | error status => exact .inr (nothing rfl)
      | ok newPredicate =>
        rcases executeMembers_subscribed subscribes _ newPredicate iterable _ state with
          thrown | loop
        · exact .inl thrown
        · by_cases thrown : ∃ what, (executeMembers planner queryType expression
              context (getQueryParamsForRedPath planner
                (addExpressionToRedPath context.lastRedpathPrefix expression))
              newPredicate iterable (List.range (planner.views.size iterable)) state).1 =
                .error (.exception what)
          · exact .inl thrown
          · exact .inr (loop.collects fun what same => thrown ⟨what, same⟩)
    | none =>
      simp only [nodeUri]
      cases context.redfishResponse.redfishObject with
      | none => exact .inr (nothing rfl)
      | some object =>
        simp only [executeOnObject, subscribes, subscribeToNode]
        cases getNavigationalPropertyToSubscribe planner expression object
            (getQueryParamsForRedPath planner
              (addExpressionToRedPath context.lastRedpathPrefix expression)) with
        | ok uri => exact .inr ⟨rfl, fun _ _ => .inl rfl⟩
        | error failure =>
          cases failure with
          | status status => exact .inr (nothing rfl)
          | exception what => exact .inl ⟨what, rfl⟩

/-! ## One step of a run -/

variable {changed : QueryExecutionContext Object Iterable}

section

variable {planner : QueryPlanner World Object Iterable}
  {options : QueryExecutionOptions World Object Iterable}

variable {context : QueryExecutionContext Object Iterable}
  {state after : RunState World Object Iterable}

variable {found : List (QueryExecutionContext Object Iterable)}

/-- The configuration that an expression is subscribed with at a context. -/
def configurationFor (planner : QueryPlanner World Object Iterable)
    (options : QueryExecutionOptions World Object Iterable)
    (context : QueryExecutionContext Object Iterable) (expression : RedPathExpression)
    (world : World) : Subscription.Configuration :=
  ⟨planner.query.queryId, addExpressionToRedPath context.lastRedpathPrefix expression,
    selectedUris planner options.queryType options.queryVariables context expression world,
    if expression.type = .predicate then expression.expression else []⟩

/-- A configuration is filed with the trie node of its expression. -/
structure Files (known : Option SubscriptionContext) (configuration : Subscription.Configuration)
    (trieNode : RedPathTrieNode) (filed : SubscriptionContext) : Prop where
  configs : filed.subscriptionConfigs =
    (known.elim [] SubscriptionContext.subscriptionConfigs) ++ [configuration]
  nodes : filed.redpathToTrieNode = insertTrieNode
    (known.elim [] SubscriptionContext.redpathToTrieNode) configuration.redpath trieNode

lemma populateSubscriptionContext_files (options : QueryExecutionOptions World Object Iterable)
    (context : QueryExecutionContext Object Iterable) (expression : RedPathExpression)
    {world : World}
    (some_ : selectedUris planner options.queryType options.queryVariables context expression
      world ≠ []) (known : Option SubscriptionContext) :
    ∃ filed, populateSubscriptionContext planner [] { context with
        urisToSubscribe := selectedUris planner options.queryType options.queryVariables context
          expression world } expression options known =
        ({ context with urisToSubscribe := [] }, some filed) ∧
      Files known (configurationFor planner options context expression world)
        expression.trieNode filed := by
  unfold populateSubscriptionContext
  rw [if_neg (by simpa using some_)]
  refine ⟨_, rfl, ?_, ?_⟩
  · cases known with
    | none => rfl
    | some known => rfl
  · cases known with
    | none => rfl
    | some known => rfl

/-- A step does nothing to the subscriptions, or it files the configuration of its expression. -/
def Subscribes (planner : QueryPlanner World Object Iterable)
    (options : QueryExecutionOptions World Object Iterable)
    (state after : RunState World Object Iterable)
    (context : QueryExecutionContext Object Iterable) (expression : RedPathExpression) : Prop :=
  after.subscriptionContext = state.subscriptionContext ∨
    ∃ filed, after.subscriptionContext = some filed ∧
      selectedUris planner options.queryType options.queryVariables context expression
        state.world ≠ [] ∧
      Files state.subscriptionContext
        (configurationFor planner options context expression state.world) expression.trieNode
        filed

/-- One undisturbed step from a context without URIs leaves none behind. -/
lemma followExpression_subscribes {interface : RedfishInterface World Object Iterable}
    (local_ : localInterface planner options = some interface) {expression : RedPathExpression}
    (plain : context.urisToSubscribe = [])
    (undisturbed : Undisturbed planner options.queryType options.queryVariables context
      expression state.world)
    (followed : followExpression planner options state context expression =
      .ok (after, changed, found)) :
    changed = context ∧ Subscribes planner options state after context expression ∧
      ∀ next ∈ found, next.urisToSubscribe = [] := by
  unfold followExpression at followed
  rw [local_] at followed
  simp only [executeQueryExpression_fst, executeQueryExpression_snd] at followed
  have collects := executeForResponses_collects planner options.queryType expression context
    options.queryVariables interface (state.toExecution context)
  generalize executeForResponses planner options.queryType expression context
    options.queryVariables (some interface) (state.toExecution context) = executed
    at collects followed
  rcases executed with ⟨answer, ran⟩
  rcases collects with ⟨what, thrown⟩ | collects
  · rw [thrown] at followed
    cases followed
  have uris : ran.urisToSubscribe = selectedUris planner options.queryType
      options.queryVariables context expression state.world := by
    rw [collects.uris]
    change context.urisToSubscribe ++ _ = _
    rw [plain]
    rfl
  have restored : selectedUris planner options.queryType options.queryVariables context
      expression state.world = [] ->
        { context with urisToSubscribe := ran.urisToSubscribe } = context := by
    intro nothing
    rw [uris, nothing, <- plain]
  cases answer with
  | error failure =>
    cases failure with
    | exception what => cases followed
    | status located =>
      -- An error behind which the run goes on comes before the first URI.
      have nothing : selectedUris planner options.queryType options.queryVariables context
          expression state.world = [] := by
        by_contra some_
        rcases collects.halts some_ (undisturbed some_) with impossible |
          ⟨strict, other, same, present⟩
        · cases impossible
        · cases same
          simp only [Except.map, respond, if_neg present, strict, reduceCtorEq, if_false]
            at followed
          split_ifs at followed
      rw [restored nothing] at followed
      simp only [Except.map, respond] at followed
      split_ifs at followed
      · cases followed
        exact ⟨rfl, .inl rfl, forall_mem_nil _⟩
      · cases followed
        exact ⟨rfl, .inl rfl, forall_mem_nil _⟩
  | ok responses =>
    rcases bind_ok followed with ⟨⟨later, others⟩, normalized, same⟩
    cases same
    rcases normalizeContexts_handsOn planner options normalized with ⟨handed, -, subscriptions⟩
    have plainFound : ∀ next ∈ found, next.urisToSubscribe = [] := by
      intro next member
      rcases handedOn_of_mem handed member with ⟨source, listed, results, rfl⟩
      rcases mem_map.mp listed with ⟨response, -, rfl⟩
      rfl
    by_cases nothing : selectedUris planner options.queryType options.queryVariables context
        expression state.world = []
    · rw [restored nothing, populateSubscriptionContext_nil _ plain] at subscriptions ⊢
      exact ⟨rfl, .inl subscriptions, plainFound⟩
    · have empty : responses = [] := by
        rcases collects.halts nothing (undisturbed nothing) with same | ⟨-, other, same, -⟩
        · cases same
          rfl
        · cases same
      cases empty
      rcases populateSubscriptionContext_files options context expression nothing
        state.subscriptionContext with ⟨filed, populated, files⟩
      rw [<- uris, <- plain] at populated
      change after.subscriptionContext = (populateSubscriptionContext planner [] _ expression
        options state.subscriptionContext).2 at subscriptions
      change (populateSubscriptionContext planner [] _ expression options
        state.subscriptionContext).1 = context ∧ _
      rw [populated] at subscriptions ⊢
      exact ⟨rfl, .inr ⟨filed, subscriptions, nothing, files⟩, plainFound⟩

end

/-! ## Whole runs -/

variable (options : QueryExecutionOptions World Object Iterable)
  (timeoutManager : Option QueryTimeoutManager) (world : World)

/-- The run comes to this state and context, with these expressions of the context
and this queue left. -/
def RunMeets (here : RunState World Object Iterable)
    (current : QueryExecutionContext Object Iterable) (remaining : List RedPathExpression)
    (queue : List (QueryExecutionContext Object Iterable)) : Prop :=
  ∃ timing root state context, GetsRoot planner options timeoutManager world timing root ∧
    startTraversal planner options planner.redpathTrieRoot (.ofObject (some root))
      (worldAtRoot planner options timeoutManager world) = .ok (state, context) ∧
    (runSearch planner options).Meets state context context.redpathTrieNode.childExpressions []
      here current remaining queue

/-- The run comes to a context and an expression that selects URIs there. -/
def RunSelects (context : QueryExecutionContext Object Iterable) (expression : RedPathExpression)
    : Prop :=
  ∃ here remaining queue,
    RunMeets planner options timeoutManager world here context (expression :: remaining) queue ∧
    selectedUris planner options.queryType options.queryVariables context expression here.world ≠ []

/-- Expressions that select URIs under the same RedPath have the same trie node. -/
def SubscribedOnce : Prop :=
  ∀ first second expression other,
    RunSelects planner options timeoutManager world first expression ->
    RunSelects planner options timeoutManager world second other ->
    addExpressionToRedPath first.lastRedpathPrefix expression =
      addExpressionToRedPath second.lastRedpathPrefix other ->
      expression.trieNode = other.trieNode

/-- No execution of an expression that the run comes to is given up after URIs were
selected. -/
def NeverDisturbed : Prop :=
  ∀ here current expression remaining queue,
    RunMeets planner options timeoutManager world here current (expression :: remaining) queue ->
      Undisturbed planner options.queryType options.queryVariables current expression here.world

section

variable {planner : QueryPlanner World Object Iterable}
  {options : QueryExecutionOptions World Object Iterable}
  {timeoutManager : Option QueryTimeoutManager} {world : World}

variable {nodes : List (Text × RedPathTrieNode)} {node : RedPathTrieNode}

lemma lookup_insertTrieNode (known : nodes.lookup redpath = some node)
    (other : Text) (inserted : RedPathTrieNode) :
    (insertTrieNode nodes other inserted).lookup redpath = some node := by
  unfold insertTrieNode
  split_ifs
  · exact known
  · rw [lookup_append, known]
    rfl

lemma lookup_insertTrieNode_self (nodes : List (Text × RedPathTrieNode)) (redpath : Text)
    (node : RedPathTrieNode) :
    (insertTrieNode nodes redpath node).lookup redpath =
      some ((nodes.lookup redpath).getD node) := by
  unfold insertTrieNode
  cases known : nodes.lookup redpath with
  | some old =>
    rw [if_pos (by rfl), known]
    rfl
  | none =>
    rw [if_neg (by simp), lookup_append, known]
    simp

lemma lookup_of_insertTrieNode {other : Text} {inserted : RedPathTrieNode}
    (found : (insertTrieNode nodes other inserted).lookup redpath = some node) :
    nodes.lookup redpath = some node ∨ (redpath = other ∧ node = inserted) := by
  unfold insertTrieNode at found
  split_ifs at found
  · exact .inl found
  · rw [lookup_append] at found
    cases known : nodes.lookup redpath with
    | some old =>
      rw [known] at found
      exact .inl found
    | none =>
      rw [known] at found
      by_cases same : redpath = other
      · subst same
        simp at found
        exact .inr ⟨rfl, found.symm⟩
      · rw [lookup_cons, beq_false_of_ne same] at found
        cases found

/-- A configuration was filed by one expression at one context, and its RedPath leads to its node.
-/
def FiledBy (planner : QueryPlanner World Object Iterable)
    (options : QueryExecutionOptions World Object Iterable)
    (timeoutManager : Option QueryTimeoutManager) (world : World)
    (nodes : List (Text × RedPathTrieNode)) (configuration : Subscription.Configuration) : Prop :=
  ∃ here current expression remaining queue,
    RunMeets planner options timeoutManager world here current (expression :: remaining) queue ∧
    configuration = configurationFor planner options current expression here.world ∧
    nodes.lookup configuration.redpath = some expression.trieNode

/-- The subscriptions are in order, and every RedPath was filed by an expression. -/
structure WellFiled (planner : QueryPlanner World Object Iterable)
    (options : QueryExecutionOptions World Object Iterable)
    (timeoutManager : Option QueryTimeoutManager) (world : World)
    (configs : List Subscription.Configuration) (nodes : List (Text × RedPathTrieNode)) :
    Prop where
  configs : ∀ configuration ∈ configs,
    FiledBy planner options timeoutManager world nodes configuration
  nodes : ∀ redpath trieNode, nodes.lookup redpath = some trieNode ->
    ∃ context expression,
      RunSelects planner options timeoutManager world context expression ∧
      redpath = addExpressionToRedPath context.lastRedpathPrefix expression ∧
      trieNode = expression.trieNode

def StateFiled (planner : QueryPlanner World Object Iterable)
    (options : QueryExecutionOptions World Object Iterable)
    (timeoutManager : Option QueryTimeoutManager) (world : World)
    (known : Option SubscriptionContext) : Prop :=
  WellFiled planner options timeoutManager world
    (known.elim [] SubscriptionContext.subscriptionConfigs)
    (known.elim [] SubscriptionContext.redpathToTrieNode)

variable {here : RunState World Object Iterable} {current : QueryExecutionContext Object Iterable}
  {expression : RedPathExpression} {remaining : List RedPathExpression}
  {queue : List (QueryExecutionContext Object Iterable)}

lemma StateFiled.files (once : SubscribedOnce planner options timeoutManager world)
    (met : RunMeets planner options timeoutManager world here current (expression :: remaining)
      queue)
    (selects : selectedUris planner options.queryType options.queryVariables current expression
      here.world ≠ [])
    (filedBefore : StateFiled planner options timeoutManager world here.subscriptionContext)
    {filed : SubscriptionContext} (files : Files here.subscriptionContext
      (configurationFor planner options current expression here.world) expression.trieNode
      filed) : StateFiled planner options timeoutManager world (some filed) := by
  unfold StateFiled at filedBefore ⊢
  simp only [Option.elim_some, files.configs, files.nodes]
  generalize here.subscriptionContext.elim [] SubscriptionContext.redpathToTrieNode = nodes
    at filedBefore
  have now : RunSelects planner options timeoutManager world current expression :=
    ⟨here, remaining, queue, met, selects⟩
  constructor
  · intro configuration listed
    rcases mem_append.mp listed with listed | listed
    · rcases filedBefore.configs configuration listed with
        ⟨there, context, other, left, waiting, came, same, found⟩
      exact ⟨there, context, other, left, waiting, came, same, lookup_insertTrieNode found _ _⟩
    · cases mem_singleton.mp listed
      refine ⟨here, current, expression, remaining, queue, met, rfl, ?_⟩
      rw [lookup_insertTrieNode_self]
      cases known : nodes.lookup
          (configurationFor planner options current expression here.world).redpath with
      | none => rfl
      | some trieNode =>
        rcases filedBefore.nodes _ _ known with ⟨context, other, before, same, rfl⟩
        exact congrArg some (once _ _ _ _ now before same).symm
  · intro redpath trieNode found
    rcases lookup_of_insertTrieNode found with old | ⟨rfl, rfl⟩
    · exact filedBefore.nodes redpath trieNode old
    · exact ⟨current, expression, now, rfl, rfl⟩

/-- What holds wherever a run comes to, if its steps are undisturbed. -/
structure InOrder (planner : QueryPlanner World Object Iterable)
    (options : QueryExecutionOptions World Object Iterable)
    (timeoutManager : Option QueryTimeoutManager) (world : World)
    (here : RunState World Object Iterable) (current : QueryExecutionContext Object Iterable)
    (queue : List (QueryExecutionContext Object Iterable)) : Prop where
  plain : current.urisToSubscribe = []
  waiting : ∀ next ∈ queue, next.urisToSubscribe = []
  filed : StateFiled planner options timeoutManager world here.subscriptionContext

lemma InOrder.follow (once : SubscribedOnce planner options timeoutManager world)
    {interface : RedfishInterface World Object Iterable}
    (local_ : localInterface planner options = some interface)
    {there : RunState World Object Iterable} {found : List (QueryExecutionContext Object Iterable)}
    (met : RunMeets planner options timeoutManager world here current (expression :: remaining)
      queue) (undisturbed : Undisturbed planner options.queryType options.queryVariables current
      expression here.world) (followed : followExpression planner options here current expression =
      .ok (there, changed, found))
    (inOrder : InOrder planner options timeoutManager world here current queue) :
    InOrder planner options timeoutManager world there changed (queue ++ found) := by
  rcases followExpression_subscribes local_ inOrder.plain undisturbed followed with
    ⟨rfl, subscribes, plain⟩
  refine ⟨inOrder.plain, ?_, ?_⟩
  · intro next listed
    rcases mem_append.mp listed with listed | listed
    · exact inOrder.waiting next listed
    · exact plain next listed
  · rcases subscribes with same | ⟨filed, some_, selects, files⟩
    · rw [same]
      exact inOrder.filed
    · rw [some_]
      exact inOrder.filed.files once met selects files

lemma GetsRoot.localInterface {timing : Option QueryTimeoutManager} {root : Object}
    (gets : GetsRoot planner options timeoutManager world timing root) :
    ∃ interface, Planner.localInterface planner options = some interface := by
  have fetched := gets.fetched
  unfold queryServiceRoot at fetched
  cases given : Planner.localInterface planner options with
  | some interface => exact ⟨interface, rfl⟩
  | none =>
    rw [given] at fetched
    cases fetched

lemma RunMeets.inOrder (once : SubscribedOnce planner options timeoutManager world)
    (undisturbed : NeverDisturbed planner options timeoutManager world)
    (met : RunMeets planner options timeoutManager world here current remaining queue) :
    InOrder planner options timeoutManager world here current queue := by
  rcases met with ⟨timing, root, state, context, gets, begun, met⟩
  rcases gets.localInterface with ⟨interface, local_⟩
  induction met with
  | start =>
    rcases startTraversal_fresh planner options begun with ⟨⟨results, rfl⟩, none⟩
    refine ⟨rfl, nofun, ?_⟩
    rw [none]
    exact ⟨nofun, nofun⟩
  | follow met followed ih =>
    have came : RunMeets planner options timeoutManager world _ _ _ _ :=
      ⟨timing, root, state, context, gets, begun, met⟩
    exact ih.follow once local_ came (undisturbed _ _ _ _ _ came) followed
  | take met ih =>
    exact ⟨ih.waiting _ (.head _), fun other listed => ih.waiting other (.tail _ listed), ih.filed⟩

/-- The run has these subscriptions in a state it comes to, or it returns them. -/
def BuildsSubscriptions (planner : QueryPlanner World Object Iterable)
    (options : QueryExecutionOptions World Object Iterable)
    (timeoutManager : Option QueryTimeoutManager) (world : World)
    (known : SubscriptionContext) : Prop :=
  (∃ here current remaining queue,
    RunMeets planner options timeoutManager world here current remaining queue ∧
      here.subscriptionContext = some known) ∨
  (∃ result left after, run planner options timeoutManager world =
      .returned result left after ∧ result.subscriptionContext = some known)

lemma BuildsSubscriptions.met {known : SubscriptionContext}
    (builds : BuildsSubscriptions planner options timeoutManager world known) :
    ∃ here current remaining queue,
      RunMeets planner options timeoutManager world here current remaining queue ∧
        here.subscriptionContext = some known := by
  rcases builds with met | ⟨result, left, after, returned, some_⟩
  · exact met
  · rcases run_returned_cases returned with ⟨timing, root, final, ends⟩ | ⟨-, none⟩
    · rw [ends.returns] at returned
      cases returned
      rcases ends.traverses with ⟨state, context, begun, ran⟩
      have met := (runSearch planner options).explore_meets state context
        context.redpathTrieNode.childExpressions []
      rw [show (runSearch planner options).explore state context
        context.redpathTrieNode.childExpressions [] = .ok final from ran] at met
      rcases met with ⟨last, met⟩
      exact ⟨final, last, [], [], ⟨timing, root, state, context, ends.gets, begun, met⟩, some_⟩
    · rw [none] at some_
      cases some_

/-- For every trie, every set of RedPaths to subscribe to and every service: if the expressions that
select URIs under one RedPath have one trie node, and no execution is given up after URIs were
selected, then every configuration lists exactly the URIs that one expression selects at one
context; its RedPath leads to the trie node of that expression, and an event for it resumes there.
-/
theorem run_files_subscriptions (once : SubscribedOnce planner options timeoutManager world)
    (undisturbed : NeverDisturbed planner options timeoutManager world)
    {known : SubscriptionContext}
    (builds : BuildsSubscriptions planner options timeoutManager world known)
    {configuration : Subscription.Configuration}
    (listed : configuration ∈ known.subscriptionConfigs) :
    ∃ here current expression remaining queue,
      RunMeets planner options timeoutManager world here current (expression :: remaining) queue ∧
      configuration = configurationFor planner options current expression here.world ∧
      known.redpathToTrieNode.lookup configuration.redpath = some expression.trieNode ∧
      ∀ (engine : Engine.QueryEngine World Object Iterable)
        (event : Subscription.EventContext) (variant : RedfishVariant Object Iterable)
        (later : World),
        engine.idToSubscriptionContext.lookup event.queryId = some known ->
        engine.idToRedpathQueryPlans.lookup event.queryId = some planner ->
        event.redpath = configuration.redpath ->
          Engine.handleRedfishEvent engine variant event later =
            Engine.deliver (resume planner
              (Engine.resumeOptions engine known expression.trieNode variant) later) := by
  rcases builds.met with ⟨here, current, remaining, queue, met, some_⟩
  have filed := (met.inOrder once undisturbed).filed
  rw [some_] at filed
  rcases filed.configs configuration listed with
    ⟨there, context, expression, left, waiting, came, same, found⟩
  refine ⟨there, context, expression, left, waiting, came, same, found, ?_⟩
  intro engine event variant later subscribed planned sameRedpath
  rw [<- sameRedpath] at found
  exact Engine.handleRedfishEvent_resumes engine subscribed found planned variant later

end

/-! ## Conditions on the trie and on the planner -/

/-- The nodes of a trie and the RedPaths that lead to them, with every predicate
written as `[*]`. -/
inductive Spelled (root : RedPathTrieNode) : RedPathTrieNode -> Text -> Prop where
  | root : Spelled root root []
  | step {node : RedPathTrieNode} {redpath : Text} {expression : RedPathExpression}
      (spelled : Spelled root node redpath) (member : expression ∈ node.childExpressions) :
      Spelled root expression.trieNode (addExpressionToRedPath redpath expression)

/-- Expressions with different trie nodes have different RedPaths, as far as these are subscribed
to. -/
def RedpathsDistinct : Prop :=
  ∀ first second redpath otherRedpath expression other,
    Spelled planner.redpathTrieRoot first redpath -> expression ∈ first.childExpressions ->
    Spelled planner.redpathTrieRoot second otherRedpath -> other ∈ second.childExpressions ->
    addExpressionToRedPath redpath expression = addExpressionToRedPath otherRedpath other ->
    addExpressionToRedPath redpath expression ∈ planner.redpathRules.redpathsToSubscribe ->
      expression.trieNode = other.trieNode

variable {planner : QueryPlanner World Object Iterable}
  {options : QueryExecutionOptions World Object Iterable}
  {timeoutManager : Option QueryTimeoutManager} {world : World}

variable {context : QueryExecutionContext Object Iterable} {expression : RedPathExpression}

lemma mem_redpathsToSubscribe {queryVariables : QueryVariables}
    (selects : selectedUris planner queryType queryVariables context expression world ≠ []) :
    addExpressionToRedPath context.lastRedpathPrefix expression ∈
      planner.redpathRules.redpathsToSubscribe := by
  unfold selectedUris at selects
  split_ifs at selects with subscribes
  · exact contains_iff_mem.mp (and_eq_true_iff.mp subscribes).2
  · exact contains_iff_mem.mp (and_eq_true_iff.mp subscribes).2
  · exact absurd rfl selects

lemma populateSubscriptionContext_place (planner : QueryPlanner World Object Iterable)
    (contexts : List (QueryExecutionContext Object Iterable))
    (current : QueryExecutionContext Object Iterable) (expression : RedPathExpression)
    (options : QueryExecutionOptions World Object Iterable) (known : Option SubscriptionContext) :
    let populated := (populateSubscriptionContext planner contexts current expression options
      known).1
    populated.redpathTrieNode = current.redpathTrieNode ∧
      populated.lastRedpathPrefix = current.lastRedpathPrefix := by
  unfold populateSubscriptionContext
  by_cases goesOn : (!contexts.isEmpty || current.urisToSubscribe.isEmpty) = true
  · rw [if_pos goesOn]
    exact ⟨rfl, rfl⟩
  · rw [if_neg goesOn]
    exact ⟨rfl, rfl⟩

/-- A step stays at its place, and finds contexts one step further. -/
lemma followExpression_place {state after : RunState World Object Iterable}
    {found : List (QueryExecutionContext Object Iterable)}
    (followed : followExpression planner options state context expression =
      .ok (after, changed, found)) :
    changed.redpathTrieNode = context.redpathTrieNode ∧
      changed.lastRedpathPrefix = context.lastRedpathPrefix ∧
      ∀ next ∈ found, next.lastRedpathPrefix =
        addExpressionToRedPath context.lastRedpathPrefix expression := by
  simp only [followExpression, respond, executeQueryExpression_fst] at followed
  generalize (executeForResponses planner options.queryType expression context
    options.queryVariables (localInterface planner options) (state.toExecution context)).1 =
      answer at followed
  cases answer with
  | error failure =>
    cases failure with
    | exception what => cases followed
    | status status =>
      simp only [Except.map] at followed
      split_ifs at followed
      · cases followed
        exact ⟨rfl, rfl, forall_mem_nil _⟩
      · cases followed
        exact ⟨rfl, rfl, forall_mem_nil _⟩
  | ok responses =>
    rcases bind_ok followed with ⟨⟨later, others⟩, normalized, same⟩
    cases same
    have stays := populateSubscriptionContext_place planner
    refine ⟨(stays _ _ _ _ _).1, (stays _ _ _ _ _).2, ?_⟩
    intro next member
    rcases handedOn_of_mem (normalizeContexts_handsOn planner options normalized).1 member with
      ⟨source, listed, results, rfl⟩
    rcases mem_map.mp listed with ⟨response, -, rfl⟩
    rfl

lemma RunMeets.spelled {here : RunState World Object Iterable}
    {current : QueryExecutionContext Object Iterable} {remaining : List RedPathExpression}
    {queue : List (QueryExecutionContext Object Iterable)}
    (met : RunMeets planner options timeoutManager world here current remaining queue) :
    Spelled planner.redpathTrieRoot current.redpathTrieNode current.lastRedpathPrefix ∧
      (∀ expression ∈ remaining, expression ∈ current.redpathTrieNode.childExpressions) ∧
      ∀ next ∈ queue,
        Spelled planner.redpathTrieRoot next.redpathTrieNode next.lastRedpathPrefix := by
  rcases met with ⟨timing, root, state, context, gets, begun, met⟩
  induction met with
  | start =>
    rcases startTraversal_fresh planner options begun with ⟨⟨results, rfl⟩, -⟩
    exact ⟨.root, fun _ listed => listed, nofun⟩
  | follow met followed ih =>
    rcases ih with ⟨spelled, own, waiting⟩
    rcases followExpression_place followed with ⟨sameNode, samePrefix, further⟩
    rw [sameNode, samePrefix]
    refine ⟨spelled, fun other listed => own other (.tail _ listed), ?_⟩
    intro next listed
    rcases mem_append.mp listed with listed | listed
    · exact waiting next listed
    · rw [followExpression_trieNode planner options followed next listed, further next listed]
      exact .step spelled (own _ (.head _))
  | take met ih =>
    rcases ih with ⟨-, -, waiting⟩
    exact ⟨waiting _ (.head _), fun _ listed => listed,
      fun other listed => waiting other (.tail _ listed)⟩

lemma RedpathsDistinct.subscribedOnce (distinct : RedpathsDistinct planner) :
    SubscribedOnce planner options timeoutManager world := by
  rintro first second expression other ⟨here, remaining, queue, met, selects⟩
    ⟨there, left, waiting, metOther, -⟩ same
  rcases met.spelled with ⟨spelled, own, -⟩
  rcases metOther.spelled with ⟨spelledOther, ownOther, -⟩
  exact distinct _ _ _ _ _ _ spelled (own _ (.head _)) spelledOther
    (ownOther _ (.head _)) same (mem_redpathsToSubscribe selects)

lemma getRedfishObjectWithFreshness_not_cancelled
    (planner : QueryPlanner World Object Iterable) (params : GetParams)
    (variant : RedfishVariant Object Iterable) (world : World) {status : Status}
    (failed : (getRedfishObjectWithFreshness planner params variant false world).1 =
      .error status) : status.code ≠ .cancelled := by
  unfold getRedfishObjectWithFreshness at failed
  simp only [false_eq_true, if_false] at failed
  by_cases unwell : (!variant.status.isOk) = true
  · rw [if_pos unwell] at failed
    cases failed
    exact nofun
  · rw [if_neg unwell] at failed
    cases shown : variant.object with
    | none =>
      rw [shown] at failed
      cases failed
    | some object =>
      rw [shown] at failed
      simp only at failed
      by_cases cached : params.freshness ≠ .required
      · rw [if_pos cached] at failed
        cases failed
      · rw [if_neg cached] at failed
        simp only [bind, StateT.bind] at failed
        generalize planner.views.ensureFreshPayload object
          { timeoutManager := params.timeoutManager } world = refetched at failed
        rcases refetched with ⟨refetched, after⟩
        cases refetched with
        | error status =>
          cases failed
          exact nofun
        | ok fresh => cases failed

section

variable (never : ∀ world, (planner.isQueryExecutionCancelled world).1 = false) (params : GetParams)
  (iterable : Iterable)

include never

lemma askMember_not_cancelled (nodeIndex : Nat) (world : World) :
    (askMember planner params iterable nodeIndex world).1 ≠ .cancelled := by
  unfold askMember
  simp only [bind, StateT.bind]
  rcases planner.views.index iterable nodeIndex world with ⟨indexedNode, fetched⟩
  simp only
  have unset := never fetched
  generalize planner.isQueryExecutionCancelled fetched = flag at unset ⊢
  rcases flag with ⟨flag, checked⟩
  cases unset
  have fails : ∀ status,
      (getRedfishObjectWithFreshness planner params indexedNode false checked).1 =
        .error status -> status.code ≠ .cancelled :=
    fun _ => getRedfishObjectWithFreshness_not_cancelled planner params indexedNode checked
  simp only
  generalize getRedfishObjectWithFreshness planner params indexedNode false checked = answer
    at fails ⊢
  rcases answer with ⟨object, after⟩
  cases object with
  | error status =>
    simp only [if_neg (fails status rfl)]
    exact nofun
  | ok object =>
    cases object with
    | none => exact nofun
    | some object =>
      simp only [StateT.bind]
      rcases planner.views.getNodeValue object propertyOdataId after with ⟨odataId, read⟩
      cases odataId with
      | none => exact nofun
      | some uri => exact nofun

lemma askMembers_not_cancelled (indices : List Nat) (world : World) :
    .cancelled ∉ askMembers planner params iterable indices world := by
  induction indices generalizing world with
  | nil => exact nofun
  | cons nodeIndex rest ih =>
    intro member
    rcases mem_cons.mp member with first | later
    · exact askMember_not_cancelled never _ _ _ _ first.symm
    · split_ifs at later
      · exact nomatch later
      · exact ih _ later

end

lemma neverDisturbed_of_lenient (lenient : planner.executionMode = .continueOnSubqueryErrors)
    (never : ∀ world, (planner.isQueryExecutionCancelled world).1 = false) :
    NeverDisturbed planner options timeoutManager world := by
  intro here current expression remaining queue _ _ givenUp
  rcases givenUp with cancelled | ⟨strict, -⟩
  · unfold newsAt at cancelled
    split at cancelled
    · exact nomatch cancelled
    · split at cancelled
      · exact nomatch cancelled
      · exact askMembers_not_cancelled never _ _ _ _ cancelled
  · rw [lenient] at strict
    cases strict

end

/-! ### Concrete subscriptions -/

def subscribingPlanner (table : ServiceTable) (trie : RedPathTrieNode)
    (redpathsToSubscribe : List Text) (mode : ExecutionMode) : QueryPlanner Unit Nat Nat :=
  { tablePlanner table [] trie mode with redpathRules := ⟨[], redpathsToSubscribe⟩ }

def subscriptionOptions : QueryExecutionOptions Unit Nat Nat :=
  ⟨[], false, false, .subscription, [], none⟩

def smallMembers : RedPathExpression :=
  .mk .predicate (text "Size<3") (.mk (text "small") [])

/-- A collection that carries two predicates. -/
def sizedChassis : RedPathExpression :=
  .mk .nodeName (text "Chassis") (.mk [] [largeMembers, smallMembers])

/-- A node of the collection itself, beside its members. -/
def oemNode : RedPathExpression :=
  .mk .nodeName (text "Oem") (.mk (text "oem") [])

def mixedChassis : RedPathExpression :=
  .mk .nodeName (text "Chassis") (.mk [] [everyMember, oemNode])

/-- A collection with one member that is there, perhaps another one that is not,
and a link to its `Oem` node. -/
def linkedTable (others : List (RedfishVariant Nat Nat)) : ServiceTable where
  root := .ofObject 0
  nodes := [((0, text "Chassis"), collection 1),
    ((2, propertyOdataId), .ofString (text "/redfish/v1/Chassis/1"))]
  members := [(1, .ofObject 2 :: others)]
  contents := [(1, .object [(text "Oem", .object [(propertyOdataId,
    .string (text "/redfish/v1/Chassis/Oem"))])])]

/-- Two predicates of one collection are filed under one RedPath. A missing member leaves the URI of
another one behind for the sibling expression. -/
theorem subscriptions_misfiled :
    (∃ result known,
      run (subscribingPlanner (linkedTable []) (.mk [] [sizedChassis])
        [text "/Chassis[*]"] .failOnFirstError) subscriptionOptions none () =
          .returned result none () ∧
      result.subscriptionContext = some known ∧
      known.subscriptionConfigs =
        [⟨text "query", text "/Chassis[*]", [text "/redfish/v1/Chassis/1"], text "Size>5"⟩,
          ⟨text "query", text "/Chassis[*]", [text "/redfish/v1/Chassis/1"], text "Size<3"⟩] ∧
      known.redpathToTrieNode.lookup (text "/Chassis[*]") = some largeMembers.trieNode ∧
      largeMembers.trieNode.subqueryId ≠ smallMembers.trieNode.subqueryId) ∧
    ∃ result known,
      run (subscribingPlanner (linkedTable [ServiceTable.absent]) (.mk [] [mixedChassis])
        [text "/Chassis[*]", text "/Chassis/Oem"] .failOnFirstError) subscriptionOptions none () =
          .returned result none () ∧
      result.subscriptionContext = some known ∧
      known.subscriptionConfigs =
        [⟨text "query", text "/Chassis/Oem",
          [text "/redfish/v1/Chassis/1", text "/redfish/v1/Chassis/Oem"], []⟩] := by
  constructor
  · have ran : ∃ final known,
        RunEndsIn (subscribingPlanner (linkedTable []) (.mk [] [sizedChassis])
          [text "/Chassis[*]"] .failOnFirstError) subscriptionOptions none () none 0 final ∧
        final.subscriptionContext = some known ∧
        known.subscriptionConfigs =
          [⟨text "query", text "/Chassis[*]", [text "/redfish/v1/Chassis/1"], text "Size>5"⟩,
            ⟨text "query", text "/Chassis[*]", [text "/redfish/v1/Chassis/1"], text "Size<3"⟩] ∧
        known.redpathToTrieNode.lookup (text "/Chassis[*]") = some largeMembers.trieNode :=
      ⟨_, _, .within ⟨rfl, rfl⟩ rfl 5 rfl, rfl, rfl, rfl⟩
    rcases ran with ⟨final, known, ends, some_, configs, found⟩
    exact ⟨_, known, ends.returns, some_, configs, found, nofun⟩
  · have ran : ∃ final known,
        RunEndsIn (subscribingPlanner (linkedTable [ServiceTable.absent])
          (.mk [] [mixedChassis]) [text "/Chassis[*]", text "/Chassis/Oem"] .failOnFirstError)
          subscriptionOptions none () none 0 final ∧
        final.subscriptionContext = some known ∧
        known.subscriptionConfigs =
          [⟨text "query", text "/Chassis/Oem",
            [text "/redfish/v1/Chassis/1", text "/redfish/v1/Chassis/Oem"], []⟩] :=
      ⟨_, _, .within ⟨rfl, rfl⟩ rfl 5 rfl, rfl, rfl⟩
    rcases ran with ⟨final, known, ends, some_, configs⟩
    exact ⟨_, known, ends.returns, some_, configs⟩

def lenientPlanner : QueryPlanner Unit Nat Nat :=
  subscribingPlanner (linkedTable [ServiceTable.absent]) (.mk [] [mixedChassis])
    [text "/Chassis[*]", text "/Chassis/Oem"] .continueOnSubqueryErrors

lemma lenientPlanner_spelled {node : RedPathTrieNode}
    (spelled : Spelled lenientPlanner.redpathTrieRoot node redpath) :
    (node = .mk [] [mixedChassis] ∧ redpath = []) ∨
      (node = mixedChassis.trieNode ∧ redpath = text "/Chassis") ∨
      node.childExpressions = [] := by
  induction spelled with
  | root => exact .inl ⟨rfl, rfl⟩
  | step _ member ih =>
    rcases ih with ⟨rfl, rfl⟩ | ⟨rfl, rfl⟩ | none
    · cases mem_singleton.mp member
      exact .inr (.inl ⟨rfl, rfl⟩)
    · rcases mem_pair.mp member with rfl | rfl
      · exact .inr (.inr rfl)
      · exact .inr (.inr rfl)
    · rw [none] at member
      exact nomatch member

lemma lenientPlanner_distinct : RedpathsDistinct lenientPlanner := by
  have keys : ∀ {node : RedPathTrieNode} {redpath : Text} {expression : RedPathExpression},
      Spelled lenientPlanner.redpathTrieRoot node redpath ->
      expression ∈ node.childExpressions ->
      (expression = mixedChassis ∧ addExpressionToRedPath redpath expression = text "/Chassis") ∨
        (expression = everyMember ∧
          addExpressionToRedPath redpath expression = text "/Chassis[*]") ∨
        (expression = oemNode ∧
          addExpressionToRedPath redpath expression = text "/Chassis/Oem") := by
    intro node redpath expression spelled member
    rcases lenientPlanner_spelled spelled with ⟨rfl, rfl⟩ | ⟨rfl, rfl⟩ | none
    · cases mem_singleton.mp member
      exact .inl ⟨rfl, rfl⟩
    · rcases mem_pair.mp member with rfl | rfl
      · exact .inr (.inl ⟨rfl, rfl⟩)
      · exact .inr (.inr ⟨rfl, rfl⟩)
    · rw [none] at member
      exact nomatch member
  intro first second redpath otherRedpath expression other spelled member spelledOther
    memberOther same _
  rcases keys spelled member with ⟨rfl, key⟩ | ⟨rfl, key⟩ | ⟨rfl, key⟩ <;>
    rcases keys spelledOther memberOther with ⟨rfl, otherKey⟩ | ⟨rfl, otherKey⟩ |
      ⟨rfl, otherKey⟩ <;>
    first
      | rfl
      | exact absurd (key.symm.trans (same.trans otherKey)) (by decide)

/-- A planner that goes on behind the missing member files both configurations as it
should. -/
theorem run_files_subscriptions_lenientPlanner :
    ∃ result known,
      run lenientPlanner subscriptionOptions none () = .returned result none () ∧
      result.subscriptionContext = some known ∧
      known.subscriptionConfigs =
        [⟨text "query", text "/Chassis[*]", [text "/redfish/v1/Chassis/1"], text "*"⟩,
          ⟨text "query", text "/Chassis/Oem", [text "/redfish/v1/Chassis/Oem"], []⟩] ∧
      ∀ configuration ∈ known.subscriptionConfigs,
        FiledBy lenientPlanner subscriptionOptions none () known.redpathToTrieNode
          configuration := by
  have ran : ∃ final known,
      RunEndsIn lenientPlanner subscriptionOptions none () none 0 final ∧
      final.subscriptionContext = some known ∧
      known.subscriptionConfigs =
        [⟨text "query", text "/Chassis[*]", [text "/redfish/v1/Chassis/1"], text "*"⟩,
          ⟨text "query", text "/Chassis/Oem", [text "/redfish/v1/Chassis/Oem"], []⟩] :=
    ⟨_, _, .within ⟨rfl, rfl⟩ rfl 5 rfl, rfl, rfl⟩
  rcases ran with ⟨final, known, ends, some_, configs⟩
  refine ⟨_, known, ends.returns, some_, configs, ?_⟩
  intro configuration listed
  rcases run_files_subscriptions (lenientPlanner_distinct.subscribedOnce)
    (neverDisturbed_of_lenient rfl fun _ => rfl) (.inr ⟨_, _, _, ends.returns, some_⟩) listed
    with ⟨here, current, expression, remaining, queue, met, same, found, -⟩
  exact ⟨here, current, expression, remaining, queue, met, same, found⟩

end Ecclesia.Planner
