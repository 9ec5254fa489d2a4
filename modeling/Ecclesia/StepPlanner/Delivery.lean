import Ecclesia.StepPlanner.Streaming

namespace Ecclesia.StepPlanner

open Absl List
open Bounded (Lockstep)

/-!
# What streaming delivers

A run with a callback that always continues and a run without a callback walk in lockstep:
they are at the same resources with the same contexts, and their sessions are side by side.
With the ledger of the streaming session this says when everything is delivered once.
-/

variable {Object Iterable Properties : Type}

/-- Two runs end early in the same way. -/
def Alike : Stop Object Properties -> Stop Object Properties -> Prop
  | .returnedFalse whole, .returnedFalse streaming => Parallel whole streaming
  | .exception first, .exception second => first = second
  | .undefinedBehaviour, .undefinedBehaviour => True
  | _, _ => False

/-- A run and a streaming run that began with so many data sets. -/
abbrev Together {Result : Type} (Known : Nat -> Result -> Prop) (size : Nat)
    (first second : Execution Object Properties (Stepped Object Properties Result)) : Prop :=
  first.Lockstep second Alike (Paired Known size)

def KnownAll {Result : Type} (Known : Nat -> Result -> Prop) (size : Nat)
    (results : List Result) : Prop :=
  ∀ result ∈ results, Known size result

/-- What is known stays known when data sets are added. -/
def Growing {Result : Type} (Known : Nat -> Result -> Prop) : Prop :=
  ∀ small large result, small <= large -> Known small result -> Known large result

/-- The data set of a context has been added. -/
def KnownContext (size : Nat) (context : RedPathContext) : Prop :=
  KnownDataSet size context.rootRedpathDataset

def KnownNode (size : Nat) (contextNode : ContextNode Object) : Prop :=
  KnownAll KnownContext size contextNode.redpathCtxMultiple

/-- Nothing has to be known. -/
def KnownAnyway {Result : Type} (_ : Nat) (_ : Result) : Prop := True

lemma growing_context : Growing KnownContext := by
  intro small large context grown known address isParent
  exact Nat.lt_of_lt_of_le (known address isParent) grown

variable {Result : Type} {Known : Nat -> Result -> Prop}

lemma Growing.all (growing : Growing Known) : Growing (KnownAll Known) := by
  intro small large results grown known result member
  exact growing small large result grown (known result member)

lemma growing_node : Growing (KnownNode : Nat -> ContextNode Object -> Prop) := by
  intro small large contextNode
  exact growing_context.all small large contextNode.redpathCtxMultiple

variable {size : Nat}

lemma KnownAll.singleton
    {result : Result} (known : Known size result) : KnownAll Known size [result] := by
  intro other member
  rw [mem_singleton.mp member]
  exact known

lemma KnownAll.nil {Result : Type} {Known : Nat -> Result -> Prop} : KnownAll Known size [] :=
  forall_mem_nil _

lemma KnownAll.part {all part : List Result} (known : KnownAll Known size all)
    (isPart : ∀ result ∈ part, result ∈ all) : KnownAll Known size part :=
  fun result member => known result (isPart result member)

section

variable {whole streaming : Session Object Properties}

variable {Result : Type} {Known : Nat -> Result -> Prop}

/-- Nothing happens. -/
lemma Together.pure (parallel : Parallel whole streaming) {result : Result}
    (known : Known streaming.added.length result) :
    Together Known streaming.added.length (pure (result, whole)) (pure (result, streaming)) :=
  Lockstep.pure ⟨rfl, parallel, le_refl _, known⟩

/-- What follows a step of both runs. -/
lemma Together.bind {First : Type} {KnownFirst : Nat -> First -> Prop}
    {first second : Execution Object Properties (Stepped Object Properties First)}
    {nextA nextB : Stepped Object Properties First ->
      Execution Object Properties (Stepped Object Properties Result)}
    (together : Together KnownFirst size first second)
    (next : ∀ result (whole streaming : Session Object Properties),
      Parallel whole streaming -> size <= streaming.added.length ->
        KnownFirst streaming.added.length result ->
          Together Known size (nextA (result, whole)) (nextB (result, streaming))) :
    Together Known size (first >>= nextA) (second >>= nextB) := by
  apply Lockstep.bind together
  rintro ⟨resultA, sessionA⟩ ⟨resultB, sessionB⟩ ⟨same, parallel, grown, known⟩
  subst same
  exact next resultA sessionA sessionB parallel grown known

/-- Two sessions side by side, with at least so many data sets. -/
def Grown (size : Nat) (whole streaming : Session Object Properties) : Prop :=
  Parallel whole streaming ∧ size <= streaming.added.length

/-- What began later began before. -/
lemma Together.earlier {small large : Nat}
    {first second : Execution Object Properties (Stepped Object Properties Result)}
    (together : Together Known large first second) (grown : small <= large) :
    Together Known small first second :=
  together.weaken (fun _ _ alike => alike) fun _ _ paired =>
    ⟨paired.same, paired.parallel, grown.trans paired.grown, paired.known⟩

lemma gather_together {Item : Type} (growing : Growing Known) {items : List Item}
    {turnA turnB : Session Object Properties -> Item ->
      Execution Object Properties (Stepped Object Properties (List Result))}
    (each : ∀ (whole streaming : Session Object Properties) item, item ∈ items ->
      Parallel whole streaming -> size <= streaming.added.length ->
        Together (KnownAll Known) streaming.added.length (turnA whole item) (turnB streaming item))
    (parallel : Parallel whole streaming) (grown : size <= streaming.added.length) :
    Together (KnownAll Known) streaming.added.length (gather turnA items whole)
      (gather turnB items streaming) := by
  have together : Forall₂ (fun itemA itemB => itemA = itemB ∧ itemA ∈ items) items items :=
    forall₂_same.mpr fun item member => ⟨rfl, member⟩
  refine .foldlM ?_ together ⟨rfl, parallel, le_refl _, .nil⟩
  rintro stateA stateB itemA itemB before ⟨same, member⟩
  subst same
  apply Lockstep.bind
    (each stateA.2 stateB.2 itemA member before.parallel (grown.trans before.grown))
  intro steppedA steppedB after
  apply Lockstep.pure
  constructor
  · rw [before.same, after.same]
  · exact after.parallel
  · exact before.grown.trans after.grown
  · intro result found
    rcases mem_append.mp found with earlier | later
    · exact growing _ _ result after.grown (before.known result earlier)
    · exact after.known result later

end

/-! ## Resources -/

section

variable {planner : QueryPlanner Object Iterable Properties} {options : RunOptions Properties}
  (continues : options.Continues) {whole streaming : Session Object Properties}
  (parallel : Parallel whole streaming)

include parallel

include continues in
lemma populateResultOrContinue_together (redfishObject : Object) {context : RedPathContext}
    (known : KnownContext streaming.added.length context) :
    Together (KnownAll KnownContext) streaming.added.length
      (populateResultOrContinue planner options.withoutCallback redfishObject whole context)
      (populateResultOrContinue planner options redfishObject streaming context) := by
  unfold populateResultOrContinue Session.isSubqueryTerminated
  simp only [parallel.wholeGoing, parallel.going, contains_nil, Bool.false_eq_true, if_false]
  by_cases atEnd : context.isEnd = true
  · simp only [if_pos atEnd]
    have normalized := parallel.normalize options.sizes continues redfishObject
      context.subqueryHandle.subquery known
      (planner.normalizer redfishObject context.subqueryHandle.subquery
        options.flags.enableUrlAnnotation)
    dsimp only [RunOptions.withoutCallback]
    revert normalized
    generalize whole.normalize options.sizes none redfishObject context.subqueryHandle.subquery
      context.rootRedpathDataset _ = first
    generalize streaming.normalize options.sizes options.callback redfishObject
      context.subqueryHandle.subquery context.rootRedpathDataset _ = second
    rintro ⟨same, after, grown, knows⟩
    rcases first with ⟨outcome, wholeAfter⟩
    rcases second with ⟨outcomeB, streamingAfter⟩
    subst same
    cases outcome with
    | error status => exact (Together.pure after KnownAll.nil).earlier grown
    | ok dataset =>
      refine (Together.pure after ?_).earlier grown
      intro child member
      rcases mem_map.mp member with ⟨handle, _, isChild⟩
      rw [<- isChild]
      exact knows dataset rfl
  · simp only [if_neg atEnd]
    split
    · split
      · exact .throw trivial
      · exact .pure parallel (.singleton known)
    · exact .pure parallel (.singleton known)

variable {contexts : List RedPathContext}

include continues in
lemma populateResultOrContinueQuery_together (redfishObject : Object)
    (known : KnownAll KnownContext streaming.added.length contexts) :
    Together (KnownAll KnownContext) streaming.added.length
      (populateResultOrContinueQuery planner options.withoutCallback redfishObject contexts whole)
      (populateResultOrContinueQuery planner options redfishObject contexts streaming) := by
  apply gather_together growing_context _ parallel (le_refl _)
  intro whole streaming context member parallel grown
  apply populateResultOrContinue_together continues parallel
  exact growing_context _ _ context grown (known context member)

variable {contextNode : ContextNode Object}

include continues in
lemma executePredicateExpression_together (nodeIndex nodeCount : Nat)
    (known : KnownNode streaming.added.length contextNode) :
    Together KnownNode streaming.added.length
      (executePredicateExpression planner options.withoutCallback nodeIndex nodeCount contextNode
        whole)
      (executePredicateExpression planner options nodeIndex nodeCount contextNode streaming) := by
  unfold executePredicateExpression
  cases executed : executePredicateFromEachSubquery planner contextNode.redfishObject nodeIndex
      nodeCount contextNode.redpathCtxMultiple with
  | error what => exact Lockstep.throw rfl
  | ok filtered =>
    have passing : filtered = contextNode.redpathCtxMultiple.filter
        (wants planner (contextNode.redfishObject, nodeIndex, nodeCount)) :=
      executePredicateFromEachSubquery_eq planner executed
    cases filtered with
    | nil => exact Together.pure parallel known
    | cons first others =>
      have knownFiltered : KnownAll KnownContext streaming.added.length (first :: others) := by
        apply known.part
        intro context member
        rw [passing] at member
        exact (mem_filter.mp member).1
      apply Together.bind (populateResultOrContinueQuery_together continues parallel
        contextNode.redfishObject knownFiltered)
      intro contexts wholeAfter streamingAfter after grown knownAfter
      have knownNode : KnownNode streamingAfter.added.length
          { contextNode with redpathCtxMultiple := contexts } := knownAfter
      exact (Together.pure after knownNode).earlier grown

omit parallel in
lemma reportedCode_ne_notFound (code : StatusCode) : reportedCode code ≠ .notFound := by
  unfold reportedCode
  split
  · decide
  · decide
  · decide
  · decide

omit parallel in
lemma checkStatus_of_failure {status : Status} (failed : ¬ status.isOk = true)
    (contexts : List RedPathContext) (nodeName redpath : Text)
    (session : Session Object Properties) :
    checkStatus options status contexts nodeName redpath session =
      if status.code = .notFound then pure (false, session)
      else
        let after := (session.populateSubqueryErrorStatus status
          (contexts.map RedPathContext.subqueryId) nodeName redpath).2
        match options.flags.executionMode with
        | .failOnFirstError => throw (.returnedFalse after)
        | .continueOnSubqueryErrors => pure (true, after) := by
  unfold checkStatus Session.populateSubqueryErrorStatus
  rw [if_neg failed]
  by_cases missing : status.code = .notFound
  · simp only [if_pos missing]
  · simp only [if_neg missing]
    split
    next impossible =>
      exact absurd (congrArg Prod.fst impossible) (reportedCode_ne_notFound status.code)
    next found =>
      cases found
      rfl

lemma checkStatus_together (status : Status) (contexts : List RedPathContext)
    (nodeName redpath : Text) :
    Together KnownAnyway streaming.added.length
      (checkStatus options.withoutCallback status contexts nodeName redpath whole)
      (checkStatus options status contexts nodeName redpath streaming) := by
  by_cases fine : status.isOk = true
  · unfold checkStatus
    simp only [if_pos fine]
    exact .pure parallel trivial
  · rw [checkStatus_of_failure fine, checkStatus_of_failure fine]
    by_cases missing : status.code = .notFound
    · simp only [if_pos missing]
      exact .pure parallel trivial
    · simp only [if_neg missing]
      have unchanged := Unchanged.populateSubqueryErrorStatus status
        (contexts.map RedPathContext.subqueryId) nodeName redpath streaming
      have after := parallel.unchanged
        (.populateSubqueryErrorStatus status (contexts.map RedPathContext.subqueryId)
          nodeName redpath whole) unchanged
      have sameMode : options.withoutCallback.flags.executionMode =
          options.flags.executionMode := rfl
      rw [sameMode]
      cases options.flags.executionMode with
      | failOnFirstError => exact .throw after
      | continueOnSubqueryErrors =>
        refine (Together.pure after ?_).earlier (le_of_eq ?_)
        · exact trivial
        · rw [unchanged.added]

/-! ## One step -/

include continues in
lemma singleNode_together (nodeIndex nodeCount : Nat)
    (known : KnownNode streaming.added.length contextNode) :
    Together (KnownAll KnownNode) streaming.added.length
      (do
        let (contextNode, after) <- executePredicateExpression planner options.withoutCallback
          nodeIndex nodeCount contextNode whole
        return ([contextNode], after))
      (do
        let (contextNode, after) <- executePredicateExpression planner options nodeIndex nodeCount
          contextNode streaming
        return ([contextNode], after)) := by
  apply Together.bind (executePredicateExpression_together continues parallel nodeIndex nodeCount
    known)
  intro reached wholeAfter streamingAfter after grown knownAfter
  exact (Together.pure after (KnownAll.singleton knownAfter)).earlier grown

include continues in
lemma executeMember_together (nodeName : Text)
    (known : KnownAll KnownContext streaming.added.length contexts) (redpathToExecute : Text)
    (iterable : Iterable) (nodeIndex : Nat) :
    Together (KnownAll KnownNode) streaming.added.length
      (executeMember planner options.withoutCallback nodeName contexts redpathToExecute iterable
        whole nodeIndex)
      (executeMember planner options nodeName contexts redpathToExecute iterable streaming
        nodeIndex) := by
  apply Together.bind (checkStatus_together parallel _ contexts nodeName _)
  intro found wholeAfter streamingAfter after grown _
  cases found with
  | false => exact (Together.pure after KnownAll.nil).earlier grown
  | true =>
    cases getRedfishObjectWithFreshness planner (planner.index iterable nodeIndex)
        (getQueryParamsForRedPath planner (selectAllRedpath redpathToExecute)) with
    | none => exact (Together.pure after KnownAll.nil).earlier grown
    | some object =>
      have knownAfter : KnownNode streamingAfter.added.length
          ⟨object, contexts, selectAllRedpath redpathToExecute⟩ :=
        growing_context.all _ _ contexts grown known
      exact (singleNode_together continues after nodeIndex _ knownAfter).earlier grown

include continues in
lemma executePredicates_together (nodeName : Text)
    (known : KnownAll KnownContext streaming.added.length contexts) (redpathToExecute : Text)
    (variant : RedfishVariant Object Iterable) :
    Together (KnownAll KnownNode) streaming.added.length
      (executePredicates planner options.withoutCallback nodeName contexts redpathToExecute
        variant whole)
      (executePredicates planner options nodeName contexts redpathToExecute variant streaming) := by
  unfold executePredicates
  cases variant.iterable with
  | some iterable =>
    apply gather_together growing_node _ parallel (le_refl _)
    intro whole streaming nodeIndex _ parallel grown
    exact executeMember_together continues parallel nodeName
      (growing_context.all _ _ contexts grown known) redpathToExecute iterable nodeIndex
  | none =>
    cases getRedfishObjectWithFreshness planner variant
        (getQueryParamsForRedPath planner (selectAllRedpath redpathToExecute)) with
    | none => exact .pure parallel KnownAll.nil
    | some object =>
      have knownNode : KnownNode streaming.added.length
          ⟨object, contexts, redpathToExecute⟩ := known
      exact singleNode_together continues parallel 0 1 knownNode

lemma populateRawData_together (rawData : Option Text)
    (known : KnownAll KnownContext streaming.added.length contexts) :
    Parallel (populateRawData rawData contexts whole)
        (populateRawData rawData contexts streaming) ∧
      streaming.added.length <= (populateRawData rawData contexts streaming).added.length := by
  cases rawData with
  | none => exact ⟨parallel, le_refl _⟩
  | some raw =>
    induction contexts generalizing whole streaming with
    | nil => exact ⟨parallel, le_refl _⟩
    | cons context rest ih =>
      have single := parallel.addRawData raw context.subqueryHandle.subquery
        (known context (.head _))
      have knownRest := growing_context.all _ _ rest single.2
        (known.part fun other member => mem_cons_of_mem context member)
      rcases ih single.1 knownRest with ⟨after, grown⟩
      exact ⟨after, single.2.trans grown⟩

include continues in
lemma executeVariant_together (nodeName : Text)
    (known : KnownAll KnownContext streaming.added.length contexts) (redpathToExecute : Text)
    (params : GetParams) (variant : RedfishVariant Object Iterable) :
    Together (KnownAll KnownNode) streaming.added.length
      (executeVariant planner options.withoutCallback nodeName contexts redpathToExecute params
        variant whole)
      (executeVariant planner options nodeName contexts redpathToExecute params variant
        streaming) := by
  have knownPlain : KnownAll KnownContext streaming.added.length
      (contexts.filter RedPathContext.hasNoPredicate) :=
    known.part fun context member => (mem_filter.mp member).1
  unfold executeVariant
  by_cases none : (contexts.filter RedPathContext.hasNoPredicate).isEmpty = true
  · simp only [if_pos none]
    exact executePredicates_together continues parallel nodeName known redpathToExecute variant
  · simp only [if_neg none]
    cases getRedfishObjectWithFreshness planner variant params with
    | none =>
      rcases populateRawData_together parallel variant.raw knownPlain with ⟨after, grown⟩
      exact (Together.pure after KnownAll.nil).earlier grown
    | some object =>
      apply Together.bind (populateResultOrContinueQuery_together continues parallel object
        knownPlain)
      intro filtered wholeAfter streamingAfter after grown knownFiltered
      have knownNode : KnownNode streamingAfter.added.length
          ⟨object, filtered, redpathToExecute⟩ := knownFiltered
      by_cases all : (contexts.filter RedPathContext.hasNoPredicate).length = contexts.length
      · simp only [if_pos all]
        exact (Together.pure after (KnownAll.singleton knownNode)).earlier grown
      · simp only [if_neg all]
        refine Together.earlier ?_ grown
        apply Together.bind (executePredicates_together continues after nodeName
          (growing_context.all _ _ contexts grown known) redpathToExecute variant)
        intro others wholeFinal streamingFinal final grownFinal knownOthers
        refine (Together.pure final ?_).earlier grownFinal
        intro node member
        rcases mem_cons.mp member with first | later
        · rw [first]
          exact growing_node _ _ _ grownFinal knownNode
        · exact knownOthers node later

include continues in
lemma executeNodeName_together (contextNode : ContextNode Object)
    {group : Text × List RedPathContext}
    (known : KnownAll KnownContext streaming.added.length group.2) :
    Together (KnownAll KnownNode) streaming.added.length
      (executeNodeName planner options.withoutCallback contextNode whole group)
      (executeNodeName planner options contextNode streaming group) := by
  rcases group with ⟨nodeName, contexts⟩
  unfold executeNodeName
  simp only
  cases requestNode planner contextNode.redfishObject nodeName contexts
      (getQueryParamsForRedPath planner
        (contextNode.lastExecutedRedpath ++ text "/" ++ nodeName)) with
  | error what => exact .throw rfl
  | ok requested =>
    rcases requested with ⟨variant, params⟩
    apply Together.bind (checkStatus_together parallel variant.status contexts nodeName
      contextNode.lastExecutedRedpath)
    intro found wholeAfter streamingAfter after grown _
    refine Together.earlier ?_ grown
    cases found with
    | false => exact .pure after KnownAll.nil
    | true =>
      exact executeVariant_together continues after nodeName
        (growing_context.all _ _ contexts grown known) _ params variant

include continues in
lemma executeStep_together (known : KnownNode streaming.added.length contextNode) :
    Together (KnownAll KnownNode) streaming.added.length
      (executeStep planner options.withoutCallback contextNode whole)
      (executeStep planner options contextNode streaming) := by
  apply gather_together growing_node _ parallel (le_refl _)
  intro whole streaming group isGroup parallel grown
  apply executeNodeName_together continues parallel contextNode
  apply growing_context.all _ _ group.2 grown
  exact known.part fun context member => (mem_groupsOf planner isGroup context member).1

omit parallel

include continues in
/-- By induction on the bound: the two runs take all steps together. -/
lemma executeRedPathStep_together : ∀ (bound : Nat)
    {whole streaming : Session Object Properties}, Parallel whole streaming ->
      ∀ {contextNode : ContextNode Object},
        KnownNode streaming.added.length contextNode ->
          (executeRedPathStepFromEachSubquery planner options.withoutCallback bound contextNode
              whole).Lockstep
            (executeRedPathStepFromEachSubquery planner options bound contextNode streaming) Alike
            (Grown streaming.added.length) := by
  intro bound
  induction bound with
  | zero =>
    intro whole streaming _ contextNode _
    exact .exhausted
  | succ bound ih =>
    intro whole streaming parallel contextNode known
    rw [executeRedPathStepFromEachSubquery, executeRedPathStepFromEachSubquery]
    by_cases empty : contextNode.redpathCtxMultiple.isEmpty = true
    · simp only [if_pos empty]
      exact .pure ⟨parallel, le_refl _⟩
    · simp only [if_neg empty]
      apply Lockstep.bind (executeStep_together continues parallel known)
      rintro ⟨nodes, wholeAfter⟩ ⟨nodesB, streamingAfter⟩ ⟨same, after, grown, knownNodes⟩
      subst same
      have together : Forall₂ (fun nodeA nodeB => nodeA = nodeB ∧
          KnownNode streamingAfter.added.length nodeA) nodes nodes :=
        forall₂_same.mpr fun node member => ⟨rfl, knownNodes node member⟩
      refine .weaken
        (?_ : Lockstep _ _ Alike (Grown streamingAfter.added.length))
        (fun _ _ alike => alike)
        (fun _ _ further => ⟨further.1, grown.trans further.2⟩)
      refine .foldlM ?_ together ⟨after, le_refl _⟩
      rintro wholeHere streamingHere node nodeB ⟨here, grownHere⟩ ⟨same, knownNode⟩
      subst same
      refine .weaken (ih here (growing_node _ _ node grownHere knownNode))
        (fun _ _ alike => alike)
        (fun _ _ further => ⟨further.1, grownHere.trans further.2⟩)

include continues in
/-- A subquery at the beginning of a query. -/
lemma rootContexts_together (parallel : Parallel whole streaming) (redfishObject : Object)
    (handle : LinkedHandle) :
    Together (KnownAll KnownContext) streaming.added.length
      (rootContexts planner options.withoutCallback redfishObject whole handle)
      (rootContexts planner options redfishObject streaming handle) := by
  unfold rootContexts
  by_cases isChild : handle.isChildSubquery = true
  · simp only [if_pos isChild]
    exact .pure parallel KnownAll.nil
  · simp only [if_neg isChild]
    have known : KnownAll KnownContext streaming.added.length
        [⟨handle, none, handle.handle.substituteVariables options.queryVariables⟩] := by
      apply KnownAll.singleton
      intro address isParent
      cases isParent
    have sameVariables : options.withoutCallback.queryVariables = options.queryVariables := rfl
    rw [sameVariables]
    split
    · exact populateResultOrContinueQuery_together continues parallel redfishObject known
    · exact .pure parallel known

lemma catchReturned_together
    {first second : Execution Object Properties (Session Object Properties)}
    (together : first.Lockstep second Alike Parallel) :
    (catchReturned first).Lockstep (catchReturned second) Alike Parallel := by
  unfold Lockstep catchReturned
  rcases together.ends with ⟨a, b⟩ | ⟨stopA, stopB, a, b, alike⟩ | ⟨_, _, a, b, parallel⟩
  · simp only [a, b]
    exact trivial
  · simp only [a, b]
    cases stopA with
    | returnedFalse session =>
      cases stopB with
      | returnedFalse other => exact alike
      | exception what => exact alike.elim
      | undefinedBehaviour => exact alike.elim
    | exception what =>
      cases stopB with
      | returnedFalse other => exact alike.elim
      | exception other => exact alike
      | undefinedBehaviour => exact alike.elim
    | undefinedBehaviour =>
      cases stopB with
      | returnedFalse other => exact alike.elim
      | exception what => exact alike.elim
      | undefinedBehaviour => exact alike
  · simp only [a, b]
    exact parallel

include continues in
lemma run_together (bound : Nat) (variant : RedfishVariant Object Iterable) :
    (run planner options.withoutCallback bound variant).Lockstep
      (run planner options bound variant) Alike Parallel := by
  have start : Parallel (.start planner.planId : Session Object Properties)
      (.start planner.planId) := parallel_start planner.planId
  unfold run processSubqueries
  cases variant.object with
  | none =>
    apply Lockstep.pure
    exact start.unchanged ⟨rfl, rfl, rfl, rfl, rfl, rfl⟩ ⟨rfl, rfl, rfl, rfl, rfl, rfl⟩
  | some redfishObject =>
    apply catchReturned_together
    have roots : Together (KnownAll KnownContext)
        (.start planner.planId : Session Object Properties).added.length
        (gather (rootContexts planner options.withoutCallback redfishObject)
          planner.subqueryHandles (.start planner.planId))
        (gather (rootContexts planner options redfishObject) planner.subqueryHandles
          (.start planner.planId)) := by
      apply gather_together growing_context _ start (le_refl _)
      intro whole streaming handle _ parallel _
      exact rootContexts_together continues parallel redfishObject handle
    apply Lockstep.bind roots
    rintro ⟨contexts, whole⟩ ⟨contextsB, streaming⟩ ⟨same, parallel, _, known⟩
    subst same
    have knownNode : KnownNode streaming.added.length
        (⟨redfishObject, contexts, []⟩ : ContextNode Object) := known
    exact (executeRedPathStep_together continues bound parallel knownNode).weaken
      (fun _ _ alike => alike) fun _ _ further => further.1

end

theorem delivers_once_iff : ∀ (planner : QueryPlanner Object Iterable Properties)
    (options : RunOptions Properties) (bound : Nat) (variant : RedfishVariant Object Iterable)
    (streaming : Session Object Properties), options.Continues ->
      ExceptT.run (run planner options bound variant) = some (.ok streaming) ->
        ∃ whole,
          ExceptT.run (run planner options.withoutCallback bound variant) = some (.ok whole) ∧
            (DeliversOnce whole streaming ↔ Harmless streaming) := by
  intro planner options bound variant streaming continues returned
  have together : (run planner options.withoutCallback bound variant).Lockstep
      (run planner options bound variant) Alike Parallel := run_together continues bound variant
  rcases together.ends with ⟨_, exhausted⟩ | ⟨_, _, _, failed, _⟩ | ⟨whole, after, a, b, parallel⟩
  · rw [exhausted] at returned
    cases returned
  · rw [failed] at returned
    cases returned
  · rw [b] at returned
    cases returned
    refine ⟨whole, a, ?_⟩
    apply deliversOnce_iff_harmless parallel.kept parallel.settled
    rw [parallel.all, parallel.added]

/-! ## Two systems -/

def limitedHandle (subqueryId : Text) (maxSizeInBytes : Option Int) : LinkedHandle :=
  .mk (.construct { Subquery.empty with
      subqueryId := subqueryId
      resource := .redpath (text "/Systems[*]")
      maxSizeInBytes := maxSizeInBytes } [(text "Systems", text "*")]) []

/-- The service root has two systems. -/
def twoSystemsPlanner (subqueryHandles : List LinkedHandle) :
    QueryPlanner Nat (List Nat) Unit :=
  { systemsPlanner with
    subqueryHandles := subqueryHandles
    get := fun object nodeName _ =>
      if object = 0 ∧ nodeName = text "Systems" then .ofIterable [1, 2]
      else .ofStatus (.notFound []) }

/-- Every data set takes a hundred bytes, and the callback always continues. -/
def streamingOptions : RunOptions Unit :=
  { plainOptions with
    callback := some fun _ => true
    sizes := ⟨fun result => 100 * result.dataSets.length, fun _ => 100⟩ }

lemma streamingOptions_continues : streamingOptions.Continues := by
  intro callback given results
  cases given
  rfl

theorem delivers_once_iff_two_systems :
    ∃ whole streaming,
      ExceptT.run (run (twoSystemsPlanner [limitedHandle (text "Systems") (some 100)])
        streamingOptions 3 (.ofObject 0)) = some (.ok streaming) ∧
      ExceptT.run (run (twoSystemsPlanner [limitedHandle (text "Systems") (some 100)])
        streamingOptions.withoutCallback 3 (.ofObject 0)) = some (.ok whole) ∧
      streaming.flushes.length = 1 ∧ (DeliversOnce whole streaming ↔ Harmless streaming) := by
  rcases delivers_once_iff (twoSystemsPlanner [limitedHandle (text "Systems") (some 100)])
    streamingOptions 3 (.ofObject 0) _ streamingOptions_continues rfl with ⟨whole, returned, iff⟩
  exact ⟨whole, _, rfl, returned, rfl, iff⟩

/-- When the second subquery is beyond its limit, the data set of the first one is sent and stays in
the result, which is sent once more at the end. -/
theorem delivers_twice :
    streamingOptions.Continues ∧
      ∃ whole streaming,
        ExceptT.run (run (twoSystemsPlanner [limitedHandle (text "All") none,
          limitedHandle (text "Limited") (some 100)]) streamingOptions 3 (.ofObject 0)) =
            some (.ok streaming) ∧
        ExceptT.run (run (twoSystemsPlanner [limitedHandle (text "All") none,
          limitedHandle (text "Limited") (some 100)]) streamingOptions.withoutCallback 3
            (.ofObject 0)) = some (.ok whole) ∧
        whole.result.dataSets.map SubqueryDataSet.address = [0, 1, 2, 3] ∧
        streaming.deliveredDataSets.map SubqueryDataSet.address = [0, 0, 1, 2, 0, 2, 3] ∧
        ¬ DeliversOnce whole streaming := by
  refine ⟨streamingOptions_continues, _, _, rfl, rfl, rfl, rfl, ?_⟩
  intro delivers
  have lengths := delivers.once.length_eq
  cases lengths

end Ecclesia.StepPlanner
