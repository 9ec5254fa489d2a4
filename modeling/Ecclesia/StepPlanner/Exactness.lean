import Ecclesia.Library.Lockstep
import Ecclesia.StepPlanner.Balance

namespace Ecclesia.StepPlanner

open Absl List
open Bounded (Lockstep)

/-!
# When the planner selects what its RedPaths say

On a graph without errors a run of the planner and the survey walk in lockstep: they are at the
same resources with the same steps, and the planner calls `Normalize` for what the survey
counts as selected.  With the account of the survey this says when the calls are those that the
RedPaths ask for.
-/

variable {Object Iterable Properties : Type}

/-- A graph of readable resources, where parameters change no answer. -/
structure ErrorFree (planner : QueryPlanner Object Iterable Properties) : Prop where
  get : ∀ object nodeName params, (planner.get object nodeName params).status.isOk = true ∨
    (planner.get object nodeName params).status.code = .notFound
  parameters : ∀ object nodeName params,
    planner.get object nodeName params = planner.get object nodeName {}
  index : ∀ iterable nodeIndex, (planner.index iterable nodeIndex).status.isOk = true ∨
    (planner.index iterable nodeIndex).status.code = .notFound
  fresh : ∀ object, planner.ensureFreshPayload object = .ok (some object)

/-- The callback, if there is one, never stops a subquery. -/
def RunOptions.Continues (options : RunOptions Properties) : Prop :=
  ∀ callback, options.callback = some callback -> ∀ results, callback results = true

/-! ## What a session keeps -/

namespace Session

variable (session : Session Object Properties) (output : SubqueryOutput)

@[simp] lemma normalized_addDataSet (content : DataSetContent Properties) :
    (session.addDataSet output content).normalized = session.normalized := by
  unfold addDataSet
  simp only
  split
  · rfl
  · rfl

@[simp] lemma terminated_addDataSet (content : DataSetContent Properties) :
    (session.addDataSet output content).terminated = session.terminated := by
  unfold addDataSet
  simp only
  split
  · rfl
  · rfl

lemma addRawData_keeps (raw : Text) (subquery : Subquery) (parent : Option Nat) :
    (session.addRawData raw subquery parent).normalized = session.normalized ∧
      (session.addRawData raw subquery parent).terminated = session.terminated := by
  unfold addRawData
  cases subquery.fetchRawData with
  | none => exact ⟨rfl, rfl⟩
  | some type =>
    simp only
    split
    · exact ⟨rfl, rfl⟩
    · rw [normalized_addDataSet, terminated_addDataSet]
      exact ⟨rfl, rfl⟩

/-- A subquery that is not stopped gets a data set. -/
lemma addNormalized_continues (sizes : Sizes Properties) {callback : Option (Callback Properties)}
    (continues : ∀ given, callback = some given -> ∀ results, given results = true)
    (subquery : Subquery) (parent : Option Nat) (properties : Properties) :
    (session.addNormalized sizes callback subquery parent properties).2.normalized =
        session.normalized ∧
      (session.addNormalized sizes callback subquery parent properties).2.terminated =
        session.terminated := by
  unfold addNormalized
  simp only
  split
  next => simp [mutableOutput]
  next given exceeds =>
    have isGiven : callback = some given := by
      unfold exceeded at exceeds
      split at exceeds
      next limit found =>
        split at exceeds
        · exact exceeds
        · cases exceeds
      next => cases exceeds
    rw [continues given isGiven]
    simp [flush, clearOutput, mutableOutput]

end Session

lemma populateRawData_keeps (rawData : Option Text) (contexts : List RedPathContext)
    (session : Session Object Properties) :
    (populateRawData rawData contexts session).normalized = session.normalized ∧
      (populateRawData rawData contexts session).terminated = session.terminated := by
  unfold populateRawData
  cases rawData with
  | none => exact ⟨rfl, rfl⟩
  | some raw =>
    simp only
    induction contexts generalizing session with
    | nil => exact ⟨rfl, rfl⟩
    | cons context rest ih =>
      have single := session.addRawData_keeps raw context.subqueryHandle.subquery
        context.rootRedpathDataset
      rw [foldl_cons, (ih _).1, (ih _).2]
      exact single

/-! ## Lockstep with the survey -/

/-- A run does not return early because of an error of the service. -/
def Unfinished : Stop Object Properties -> Breakdown -> Prop
  | .returnedFalse _, _ => False
  | _, _ => True

/-- What the planner has done since a session, compared with the survey. -/
structure Follows {ResultA ResultB : Type} (session : Session Object Properties)
    (results : ResultA -> ResultB -> Prop) (stepped : Stepped Object Properties ResultA)
    (tallied : Tallied Object ResultB) : Prop where
  results : results stepped.1 tallied.1
  selected : (stepped.2.normalized : Multiset (Selection Object)) =
    session.normalized + tallied.2.selected
  going : stepped.2.terminated = []

/-- Both runs have found the same, and it is fine. -/
structure Viewed {ResultA ResultB : Type} (view : ResultA -> ResultB) (Fine : ResultB -> Prop)
    (first : List ResultA) (second : List ResultB) : Prop where
  same : first.map view = second
  fine : ∀ result ∈ second, Fine result

lemma Viewed.nil {ResultA ResultB : Type} {view : ResultA -> ResultB} {Fine : ResultB -> Prop} :
    Viewed view Fine [] [] :=
  ⟨rfl, forall_mem_nil _⟩

variable {ResultA ResultB : Type}

lemma Viewed.singleton {view : ResultA -> ResultB} {Fine : ResultB -> Prop} {result : ResultA}
    (fine : Fine (view result)) : Viewed view Fine [result] [view result] :=
  ⟨rfl, fun _ member => mem_singleton.mp member ▸ fine⟩

/-- A turn of the planner follows a turn of the survey. -/
abbrev Follow {ResultA ResultB : Type} (session : Session Object Properties)
    (first : Execution Object Properties (Stepped Object Properties ResultA))
    (second : Bounded Breakdown (Tallied Object ResultB)) (results : ResultA -> ResultB -> Prop) :
    Prop :=
  first.Lockstep second Unfinished (Follows session results)

variable {session : Session Object Properties}

/-- Nothing happens. -/
lemma Follow.pure (going : session.terminated = []) {first : ResultA} {second : ResultB}
    {results : ResultA -> ResultB -> Prop} (related : results first second) :
    Follow session (pure (first, session)) (pure (second, .zero)) results := by
  apply Lockstep.pure
  constructor
  · exact related
  · exact (add_zero _).symm
  · exact going

lemma gather_follows {ItemA ItemB : Type} {turnA : Session Object Properties -> ItemA ->
      Execution Object Properties (Stepped Object Properties (List ResultA))}
    {turnB : ItemB -> Bounded Breakdown (Tallied Object (List ResultB))} {item : ItemA -> ItemB}
    {view : ResultA -> ResultB} {Fine : ResultB -> Prop} {items : List ItemA} {itemsB : List ItemB}
    (mapped : items.map item = itemsB)
    (each : ∀ session itemA, session.terminated = [] -> itemA ∈ items ->
      Follow session (turnA session itemA) (turnB (item itemA)) (Viewed view Fine))
    (going : session.terminated = []) :
    Follow session (gather turnA items session) (tallying turnB itemsB) (Viewed view Fine) := by
  subst mapped
  have together : Forall₂ (fun itemA itemB => itemA ∈ items ∧ item itemA = itemB) items
      (items.map item) := by
    apply forall₂_map_right_iff.mpr
    apply forall₂_same.mpr
    intro itemA member
    exact ⟨member, rfl⟩
  refine .foldlM ?_ together ⟨.nil, (add_zero _).symm, going⟩
  · rintro stateA stateB itemA itemB before ⟨member, same⟩
    subst same
    apply Lockstep.bind (each stateA.2 itemA before.going member)
    intro stepped tallied follows
    apply Lockstep.pure
    constructor
    · constructor
      · rw [map_append, before.results.same, follows.results.same]
      · intro result found
        rcases mem_append.mp found with earlier | later
        · exact before.results.fine result earlier
        · exact follows.results.fine result later
    · change (stepped.2.normalized : Multiset (Selection Object)) =
        session.normalized + (stateB.2.selected + tallied.2.selected)
      rw [follows.selected, before.selected, add_assoc]
    · exact follows.going

/-- The context in the survey has no pointer to a data set. -/
def RedPathContext.forget (context : RedPathContext) : RedPathContext :=
  { context with rootRedpathDataset := none }

open RedPathContext (forget hasNoPredicate)

def ContextNode.stopover (contextNode : ContextNode Object) : Stopover Object :=
  (contextNode.redfishObject, contextNode.redpathCtxMultiple.map RedPathContext.forget)

open ContextNode (stopover)

section

variable {planner : QueryPlanner Object Iterable Properties} {options : RunOptions Properties}
  (continues : options.Continues)

include continues

variable {session : Session Object Properties}

lemma populateResultOrContinue_follows (going : session.terminated = []) {object : Object}
    {context : RedPathContext} (only : context.OnlyRedPaths) :
    Follow session (populateResultOrContinue planner options object session context)
      (advance planner options object context.forget)
      (Viewed forget RedPathContext.OnlyRedPaths) := by
  have running : session.isSubqueryTerminated context.subqueryHandle.subqueryId = false := by
    unfold Session.isSubqueryTerminated
    rw [going]
    rfl
  unfold populateResultOrContinue
  simp only [running, only.isEnd]
  rcases context with ⟨handle, dataset, steps⟩
  cases steps with
  | nil =>
    simp only [StepPlanner.OnlyRedPaths.hasRedPath only]
    exact .throw trivial
  | cons step rest =>
    cases rest with
    | nil =>
      change Follow session _
        (.pure (if hasDataSet planner options handle.subquery object then
            childContexts options handle none else [],
          { Tally.zero with selected := {(handle.subqueryId, object)} })) _
      cases found : planner.normalizer object handle.subquery options.flags.enableUrlAnnotation with
      | error status =>
        have absent : hasDataSet planner options handle.subquery object = false := by
          unfold hasDataSet
          rw [found]
        rw [absent]
        apply Lockstep.pure
        constructor
        · exact Viewed.nil
        · exact (Multiset.coe_add _ _).symm
        · exact going
      | ok properties =>
        have present : hasDataSet planner options handle.subquery object = true := by
          unfold hasDataSet
          rw [found]
        rw [present]
        apply Lockstep.pure
        have kept := Session.addNormalized_continues
          { session with normalized := session.normalized ++ [(handle.subqueryId, object)] }
          options.sizes continues handle.subquery dataset properties
        constructor
        · constructor
          · simp only [childContexts, map_map]
            rfl
          · intro next member
            rcases mem_map.mp member with ⟨child, isChild, same⟩
            subst same
            exact .children only child isChild
        · exact (congrArg Multiset.ofList kept.1).trans (Multiset.coe_add _ _).symm
        · exact kept.2.trans going
    | cons second later =>
      simp only [StepPlanner.OnlyRedPaths.hasRedPath only]
      exact .pure going (.singleton only)

variable {contexts : List RedPathContext}

lemma populateResultOrContinueQuery_follows (going : session.terminated = []) {object : Object}
    (only : ∀ context ∈ contexts, context.OnlyRedPaths) :
    Follow session (populateResultOrContinueQuery planner options object contexts session)
      (tallying (advance planner options object) (contexts.map forget))
      (Viewed forget RedPathContext.OnlyRedPaths) := by
  apply gather_follows rfl _ going
  intro session context running member
  exact populateResultOrContinue_follows continues running (only context member)

omit continues in
lemma executePredicateFromEachSubquery_forget (object : Object) (nodeIndex nodeSetSize : Nat)
    (contexts : List RedPathContext) :
    executePredicateFromEachSubquery planner object nodeIndex nodeSetSize
        (contexts.map forget) =
      (executePredicateFromEachSubquery planner object nodeIndex nodeSetSize contexts).map
        (List.map forget) := by
  induction contexts with
  | nil => rfl
  | cons context rest ih =>
    rw [map_cons, executePredicateFromEachSubquery, executePredicateFromEachSubquery, ih]
    have same : passesPredicate planner object nodeIndex nodeSetSize context.forget =
        passesPredicate planner object nodeIndex nodeSetSize context := rfl
    rw [same]
    cases passesPredicate planner object nodeIndex nodeSetSize context with
    | error what => rfl
    | ok passed =>
      cases executePredicateFromEachSubquery planner object nodeIndex nodeSetSize rest with
      | error what => rfl
      | ok filtered =>
        cases passed with
        | false => rfl
        | true => rfl

lemma executePredicateExpression_follows (going : session.terminated = [])
    {member : Object × Nat × Nat} (only : ∀ context ∈ contexts, context.OnlyRedPaths)
    (lastExecutedRedpath : Text) :
    Follow session
      (executePredicateExpression planner options member.2.1 member.2.2
        ⟨member.1, contexts, lastExecutedRedpath⟩ session)
      (surveyMember planner options (contexts.map forget) member)
      (fun contextNode stopovers =>
        Viewed stopover Stopover.OnlyRedPaths [contextNode] stopovers) := by
  unfold executePredicateExpression surveyMember
  rw [executePredicateFromEachSubquery_forget]
  cases executed : executePredicateFromEachSubquery planner member.1 member.2.1 member.2.2
      contexts with
  | error what => exact .throw trivial
  | ok filtered =>
    have passing := executePredicateFromEachSubquery_eq planner executed
    cases filtered with
    | nil =>
      apply Lockstep.pure
      constructor
      · constructor
        · rfl
        · intro stopover isStopover
          rw [mem_singleton.mp isStopover]
          intro context isContext
          rcases mem_map.mp isContext with ⟨original, isOriginal, same⟩
          subst same
          exact only original isOriginal
      · exact (add_zero _).symm
      · exact going
    | cons first others =>
      have onlyFiltered : ∀ context ∈ first :: others, context.OnlyRedPaths := by
        intro context isContext
        rw [passing] at isContext
        exact only context (mem_filter.mp isContext).1
      apply Lockstep.bind (populateResultOrContinueQuery_follows continues going onlyFiltered)
      intro stepped tallied follows
      apply Lockstep.pure
      constructor
      · constructor
        · change [(member.1, stepped.1.map forget)] = [(member.1, tallied.1)]
          rw [follows.results.same]
        · intro stopover isStopover
          rw [mem_singleton.mp isStopover]
          exact follows.results.fine
      · exact follows.selected
      · exact follows.going

lemma singleMember_follows (going : session.terminated = []) (member : Object × Nat × Nat)
    (only : ∀ context ∈ contexts, context.OnlyRedPaths) (lastExecutedRedpath : Text) :
    Follow session
      (do
        let (contextNode, after) <- executePredicateExpression planner options member.2.1 member.2.2
          ⟨member.1, contexts, lastExecutedRedpath⟩ session
        return ([contextNode], after))
      (surveyMember planner options (contexts.map forget) member)
      (Viewed stopover Stopover.OnlyRedPaths) := by
  rw [<- bind_pure (surveyMember planner options _ _)]
  apply Lockstep.bind (executePredicateExpression_follows continues going only lastExecutedRedpath)
  intro stepped tallied follows
  apply Lockstep.pure
  exact ⟨follows.results, follows.selected, follows.going⟩

variable (errorFree : ErrorFree planner)

omit continues in
include errorFree in
lemma getRedfishObjectWithFreshness_eq (variant : RedfishVariant Object Iterable)
    (params : GetParams) :
    getRedfishObjectWithFreshness planner variant params = variant.object := by
  unfold getRedfishObjectWithFreshness
  cases variant.object with
  | none => rfl
  | some object => simp only [errorFree.fresh, ite_self]

omit continues in
lemma checkStatus_follows {status : Status}
    (readable : status.isOk = true ∨ status.code = .notFound) (contexts : List RedPathContext)
    (nodeName redpath : Text) {ResultA ResultB : Type} {first : Stepped Object Properties Bool ->
      Execution Object Properties (Stepped Object Properties (List ResultA))}
    {second : Bounded Breakdown (Tallied Object (List ResultB))}
    {results : List ResultA -> List ResultB -> Prop}
    (looked : status.isOk = true -> Follow session (first (true, session)) second results)
    (skipped : status.isOk = false -> Follow session (first (false, session)) second results) :
    Follow session
      (checkStatus options status contexts nodeName redpath session >>= first) second results := by
  unfold checkStatus
  cases fine : status.isOk with
  | true => exact looked fine
  | false =>
    have missing : status.code = .notFound := by
      rcases readable with isOk | missing
      · rw [isOk] at fine
        cases fine
      · exact missing
    simp only [Session.populateSubqueryErrorStatus, if_pos missing]
    exact skipped fine

omit continues in
lemma tallying_flatMap {Item Member Result Found : Type} {found : Item -> Option Found}
    {member : Item -> Found -> Member}
    {turn : Member -> Bounded Breakdown (Tallied Object (List Result))}
    (turnAt : Item -> Bounded Breakdown (Tallied Object (List Result)))
    (absent : ∀ item, found item = none -> turnAt item = pure ([], .zero))
    (present : ∀ item object, found item = some object -> turnAt item = turn (member item object))
    (items : List Item) :
    tallying turn (items.flatMap fun item => (found item).toList.map (member item)) =
      tallying turnAt items := by
  have general : ∀ start : Tallied Object (List Result),
      (items.flatMap fun item => (found item).toList.map (member item)).foldlM
          (fun state member => do
            let found <- turn member
            return (state.1 ++ found.1, state.2.plus found.2)) start =
        items.foldlM
          (fun state item => do
            let found <- turnAt item
            return (state.1 ++ found.1, state.2.plus found.2)) start := by
    induction items with
    | nil =>
      intro start
      rfl
    | cons item rest ih =>
      intro start
      rw [flatMap_cons, foldlM_cons]
      cases lookup : found item with
      | none =>
        rw [absent item lookup]
        simp only [pure_bind, append_nil, Tally.plus_zero]
        exact ih start
      | some object =>
        rw [present item object lookup]
        simp only [Option.toList_some, map_cons, map_nil]
        apply bind_congr
        intro state
        exact ih state
  exact general ([], .zero)

include errorFree in
lemma executePredicates_follows (going : session.terminated = []) {nodeName : Text}
    (only : ∀ context ∈ contexts, context.OnlyRedPaths) (redpathToExecute : Text)
    (variant : RedfishVariant Object Iterable) :
    Follow session
      (executePredicates planner options nodeName contexts redpathToExecute variant session)
      (tallying (surveyMember planner options (contexts.map forget))
        (membersOf planner variant))
      (Viewed stopover Stopover.OnlyRedPaths) := by
  unfold executePredicates membersOf
  cases variant.iterable with
  | none =>
    simp only [getRedfishObjectWithFreshness_eq errorFree]
    cases variant.object with
    | none =>
      exact .pure going Viewed.nil
    | some object =>
      rw [Option.toList_some, map_singleton, tallying_singleton]
      exact singleMember_follows continues going (object, 0, 1) only redpathToExecute
  | some iterable =>
    rw [tallying_flatMap (fun nodeIndex =>
        (objectOf (planner.index iterable nodeIndex)).elim (pure ([], .zero)) fun object =>
          surveyMember planner options (contexts.map forget)
            (object, nodeIndex, planner.size iterable))
      (by
        intro nodeIndex absent
        rw [absent, Option.elim_none])
      (by
        intro nodeIndex object present
        rw [present, Option.elim_some])]
    apply gather_follows (map_id _) _ going
    intro session nodeIndex running _
    apply checkStatus_follows (errorFree.index iterable nodeIndex)
    · intro fine
      simp only [getRedfishObjectWithFreshness_eq errorFree, objectOf, fine, id]
      cases (planner.index iterable nodeIndex).object with
      | none =>
        exact .pure running Viewed.nil
      | some object =>
        exact singleMember_follows continues running (object, nodeIndex, planner.size iterable)
          only _
    · intro missing
      simp only [objectOf, missing, id]
      exact .pure running Viewed.nil

omit continues in
lemma filter_forget (contexts : List RedPathContext) :
    (contexts.map forget).filter hasNoPredicate =
      (contexts.filter hasNoPredicate).map forget := by
  rw [filter_map]
  rfl

include errorFree in
lemma executeVariant_follows (going : session.terminated = []) {nodeName : Text}
    (only : ∀ context ∈ contexts, context.OnlyRedPaths) (redpathToExecute : Text)
    (params : GetParams) (variant : RedfishVariant Object Iterable) (resource : Object) :
    Follow session
      (executeVariant planner options nodeName contexts redpathToExecute params variant session)
      (surveyVariant planner options resource (contexts.map forget) variant)
      (Viewed stopover Stopover.OnlyRedPaths) := by
  unfold executeVariant surveyVariant
  simp only [filter_forget, isEmpty_map, length_map, getRedfishObjectWithFreshness_eq errorFree]
  by_cases allHave : (contexts.filter hasNoPredicate).isEmpty = true
  · simp only [if_pos allHave]
    exact executePredicates_follows continues errorFree going only redpathToExecute variant
  · simp only [if_neg allHave]
    cases variant.object with
    | none =>
      have kept := populateRawData_keeps variant.raw
        (contexts.filter hasNoPredicate) session
      apply Lockstep.pure
      constructor
      · exact Viewed.nil
      · exact (congrArg Multiset.ofList kept.1).trans (add_zero _).symm
      · exact kept.2.trans going
    | some object =>
      have onlyNoPredicate : ∀ context ∈ contexts.filter hasNoPredicate,
          context.OnlyRedPaths :=
        fun context member => only context (mem_filter.mp member).1
      apply Lockstep.bind
        (populateResultOrContinueQuery_follows continues going onlyNoPredicate)
      intro stepped tallied follows
      by_cases all : (contexts.filter hasNoPredicate).length = contexts.length
      · simp only [if_pos all]
        apply Lockstep.pure
        constructor
        · rw [<- follows.results.same]
          apply Viewed.singleton
          intro context member
          exact follows.results.fine context (follows.results.same ▸ member)
        · exact follows.selected
        · exact follows.going
      · simp only [if_neg all]
        apply Lockstep.bind
          (executePredicates_follows continues errorFree follows.going only redpathToExecute
            variant)
        intro others further followsOthers
        apply Lockstep.pure
        constructor
        · constructor
          · change (object, stepped.1.map forget) ::
              others.1.map stopover = (object, tallied.1) :: further.1
            rw [follows.results.same, followsOthers.results.same]
          · intro stopover member
            rcases mem_cons.mp member with first | later
            · rw [first]
              exact follows.results.fine
            · exact followsOthers.results.fine stopover later
        · change (others.2.normalized : Multiset (Selection Object)) =
            session.normalized + (tallied.2.selected + further.2.selected)
          rw [followsOthers.selected, follows.selected, add_assoc]
        · exact followsOthers.going

omit continues in
include errorFree in
lemma requestNode_eq (resource : Object) (nodeName : Text)
    (only : ∀ context ∈ contexts, context.OnlyRedPaths) (params : GetParams) :
    ∃ filtered, requestNode planner resource nodeName contexts params =
      .ok (planner.get resource nodeName {}, filtered) := by
  have noUri : contexts.any (fun context => context.subqueryHandle.hasUri) = false := by
    apply any_eq_false.mpr
    intro context member
    rcases StepPlanner.OnlyRedPaths.resource (only context member) with ⟨redpath, resource⟩
    simp [LinkedHandle.hasUri, resource]
  have noReference :
      contexts.any (fun context => context.subqueryHandle.hasUriReferenceRedpath) = false := by
    apply any_eq_false.mpr
    intro context member
    rcases StepPlanner.OnlyRedPaths.resource (only context member) with ⟨redpath, resource⟩
    simp [LinkedHandle.hasUriReferenceRedpath, resource]
  refine ⟨paramsWithFilter planner params contexts, ?_⟩
  unfold requestNode
  simp only [noUri, noReference, if_neg Bool.false_ne_true, errorFree.parameters _ _
    (paramsWithFilter planner params contexts)]

include errorFree in
lemma executeNodeName_follows (going : session.terminated = []) (contextNode : ContextNode Object)
    {group : Text × List RedPathContext} (only : ∀ context ∈ group.2, context.OnlyRedPaths) :
    Follow session (executeNodeName planner options contextNode session group)
      (surveyNodeName planner options contextNode.redfishObject
        (group.1, group.2.map forget))
      (Viewed stopover Stopover.OnlyRedPaths) := by
  rcases group with ⟨nodeName, contexts⟩
  unfold executeNodeName surveyNodeName nodeSet
  rcases requestNode_eq errorFree contextNode.redfishObject nodeName only
    (getQueryParamsForRedPath planner (contextNode.lastExecutedRedpath ++ text "/" ++ nodeName))
    with ⟨filtered, requested⟩
  simp only [requested]
  apply checkStatus_follows (errorFree.get contextNode.redfishObject nodeName {})
  · intro fine
    simp only [fine]
    exact executeVariant_follows continues errorFree going only _ _ _ contextNode.redfishObject
  · intro missing
    simp only [missing]
    apply Lockstep.pure
    exact ⟨Viewed.nil, (add_zero _).symm, going⟩

omit continues in
/-- The groups do not depend on the data sets. -/
lemma groupsOf_forget (contexts : List RedPathContext) :
    groupsOf planner (contexts.map forget) =
      (groupsOf planner contexts).map fun group =>
        (group.1, group.2.map forget) := by
  have sameNames : (contexts.map forget).map RedPathContext.nodeName =
      contexts.map RedPathContext.nodeName := by
    rw [map_map]
    rfl
  unfold groupsOf deduplicateNodeNamesAcrossSubqueries
  simp only [HashMap.keys_foldl_pushBack, HashMap.listAt_foldl_pushBack, map_map]
  apply map_congr_left
  intro nodeName _
  simp only [filter_map]
  rfl

include errorFree in
lemma executeStep_follows (going : session.terminated = []) (contextNode : ContextNode Object)
    (only : ∀ context ∈ contextNode.redpathCtxMultiple, context.OnlyRedPaths) :
    Follow session (executeStep planner options contextNode session)
      (surveyStep planner options contextNode.stopover)
      (Viewed stopover Stopover.OnlyRedPaths) := by
  apply gather_follows (groupsOf_forget contextNode.redpathCtxMultiple).symm _ going
  intro session group running isGroup
  apply executeNodeName_follows continues errorFree running
  intro context member
  exact only context (mem_groupsOf planner isGroup context member).1

include errorFree in
/-- By induction on the bound: the planner and the survey take all steps together. -/
lemma executeRedPathStep_follows : ∀ (bound : Nat) {session : Session Object Properties},
    session.terminated = [] -> ∀ {contextNode : ContextNode Object},
      contextNode.stopover.OnlyRedPaths ->
        (executeRedPathStepFromEachSubquery planner options bound contextNode session).Lockstep
          (surveyFrom planner options bound contextNode.stopover) Unfinished
          (fun after tally =>
            (after.normalized : Multiset (Selection Object)) =
                session.normalized + tally.selected ∧ after.terminated = []) := by
  intro bound
  induction bound with
  | zero =>
    intro session _ contextNode _
    exact Lockstep.exhausted
  | succ bound ih =>
    intro session going contextNode only
    rw [executeRedPathStepFromEachSubquery, surveyFrom]
    simp only [stopover, isEmpty_map]
    by_cases empty : contextNode.redpathCtxMultiple.isEmpty = true
    · simp only [if_pos empty]
      exact Lockstep.pure ⟨(add_zero _).symm, going⟩
    · simp only [if_neg empty]
      have onlyHere : ∀ context ∈ contextNode.redpathCtxMultiple, context.OnlyRedPaths :=
        fun context member => only context.forget (mem_map_of_mem member)
      apply Lockstep.bind (executeStep_follows continues errorFree going contextNode
        onlyHere)
      intro stepped tallied follows
      have together : Forall₂ (fun (node : ContextNode Object) (reached : Stopover Object) =>
            node.stopover = reached ∧ reached.OnlyRedPaths) stepped.1 tallied.1 := by
        rw [<- follows.results.same]
        apply forall₂_map_right_iff.mpr
        apply forall₂_same.mpr
        intro node member
        exact ⟨rfl, follows.results.fine _ (follows.results.same ▸ mem_map_of_mem member)⟩
      refine Lockstep.foldlM ?_ together ⟨follows.selected, follows.going⟩
      rintro before total node reached ⟨selected, running⟩ ⟨same, fine⟩
      subst same
      rw [<- bind_pure (executeRedPathStepFromEachSubquery planner options bound node before)]
      apply Lockstep.bind (ih running fine)
      rintro after further ⟨selectedAfter, runningAfter⟩
      apply Lockstep.pure
      constructor
      · change (after.normalized : Multiset (Selection Object)) =
          session.normalized + (total.selected + further.selected)
        rw [selectedAfter, selected, add_assoc]
      · exact runningAfter

/-- A subquery at the beginning of a query. -/
lemma rootContexts_follows (going : session.terminated = []) (serviceRoot : Object)
    {handle : LinkedHandle} (only : OnlyRedPaths handle) :
    Follow session (rootContexts planner options serviceRoot session handle)
      (surveyRoot planner options serviceRoot handle)
      (Viewed forget RedPathContext.OnlyRedPaths) := by
  unfold rootContexts surveyRoot stepsOf
  by_cases isChild : handle.isChildSubquery = true
  · simp only [if_pos isChild]
    exact .pure going Viewed.nil
  · simp only [if_neg isChild, only.hasRedPath, Bool.true_and]
    have onlyContext : ∀ context, context ∈
        [(⟨handle, none, handle.handle.substituteVariables options.queryVariables⟩ :
          RedPathContext)] -> context.OnlyRedPaths := by
      intro context member
      rw [mem_singleton.mp member]
      exact only
    by_cases atRoot :
        (getNode (handle.handle.substituteVariables options.queryVariables)).isEmpty = true
    · simp only [if_pos atRoot]
      exact populateResultOrContinueQuery_follows continues going onlyContext
    · simp only [if_neg atRoot]
      exact .pure going (.singleton only)

omit continues in
/-- A run that does not return early is not caught. -/
lemma catchReturned_lockstep {first : Execution Object Properties (Session Object Properties)}
    {second : Bounded Breakdown (Tally Object)}
    {values : Session Object Properties -> Tally Object -> Prop}
    (together : first.Lockstep second Unfinished values) :
    (catchReturned first).Lockstep second Unfinished values := by
  rcases together.ends with ⟨a, b⟩ | ⟨stop, breakdown, a, b, related⟩ | ⟨_, _, a, b, related⟩
  · unfold Lockstep catchReturned
    simp only [a, b]
    exact trivial
  · unfold Lockstep catchReturned
    simp only [a, b]
    cases stop with
    | returnedFalse session => exact related.elim
    | exception what => exact related
    | undefinedBehaviour => exact related
  · unfold Lockstep catchReturned
    simp only [a, b]
    exact related

include errorFree in
lemma run_follows (only : ∀ handle ∈ planner.subqueryHandles, OnlyRedPaths handle)
    (bound : Nat) {variant : RedfishVariant Object Iterable} {serviceRoot : Object}
    (shown : variant.object = some serviceRoot) :
    (run planner options bound variant).Lockstep (survey planner options bound serviceRoot)
      Unfinished
      (fun session tally => (session.normalized : Multiset (Selection Object)) = tally.selected) := by
  unfold run processSubqueries
  rw [shown]
  apply catchReturned_lockstep
  have going : (.start planner.planId : Session Object Properties).terminated = [] := rfl
  have roots : Follow (.start planner.planId)
      (gather (rootContexts planner options serviceRoot) planner.subqueryHandles
        (.start planner.planId))
      (tallying (surveyRoot planner options serviceRoot) planner.subqueryHandles)
      (Viewed forget RedPathContext.OnlyRedPaths) := by
    apply gather_follows (map_id _) _ going
    intro session handle running member
    exact rootContexts_follows continues running serviceRoot (only handle member)
  apply Lockstep.bind roots
  intro stepped tallied follows
  have reached : (⟨serviceRoot, stepped.1, []⟩ : ContextNode Object).stopover =
      (serviceRoot, tallied.1) := by
    unfold stopover
    rw [<- follows.results.same]
  have onlyReached : Stopover.OnlyRedPaths
      (⟨serviceRoot, stepped.1, []⟩ : ContextNode Object).stopover := by
    rw [reached]
    exact follows.results.fine
  have walked : (executeRedPathStepFromEachSubquery planner options bound
      ⟨serviceRoot, stepped.1, []⟩ stepped.2).Lockstep
      (surveyFrom planner options bound (serviceRoot, tallied.1)) Unfinished _ :=
    reached ▸ executeRedPathStep_follows continues errorFree bound follows.going onlyReached
  change (executeRedPathStepFromEachSubquery planner options bound
    ⟨serviceRoot, stepped.1, []⟩ stepped.2).Lockstep _ _ _
  rw [<- bind_pure (executeRedPathStepFromEachSubquery planner options bound _ stepped.2)]
  apply Lockstep.bind walked
  rintro after further ⟨selected, _⟩
  apply Lockstep.pure
  change (after.normalized : Multiset (Selection Object)) = tallied.2.selected + further.selected
  have nothing : ((.start planner.planId : Session Object Properties).normalized :
      Multiset (Selection Object)) = 0 := rfl
  rw [selected, follows.selected, nothing, zero_add]

end

/-! ## The calls of Normalize -/

lemma normalized_perm_iff {planner : QueryPlanner Object Iterable Properties}
    {options : RunOptions Properties} {serviceRoot : Object}
    (only : ∀ handle ∈ planner.subqueryHandles, OnlyRedPaths handle) {bound : Nat}
    {tally : Tally Object}
    (surveyed : ExceptT.run (survey planner options bound serviceRoot) = some (.ok tally))
    (same : (session.normalized : Multiset (Selection Object)) = tally.selected) :
    session.normalized.Perm (selections planner options serviceRoot) ↔ tally.extra = tally.lost := by
  have balanced : Balanced (selections planner options serviceRoot : Multiset (Selection Object)) 0
      tally := (survey_accounted only bound).of_ok surveyed
  unfold Balanced at balanced
  rw [<- same] at balanced
  rw [<- Multiset.coe_eq_coe]
  constructor
  · intro exact_
    rw [exact_] at balanced
    exact add_left_cancel balanced
  · intro even
    rw [even] at balanced
    exact (add_right_cancel balanced).symm

theorem normalizes_selections_iff : ∀ (planner : QueryPlanner Object Iterable Properties)
    (options : RunOptions Properties) (variant : RedfishVariant Object Iterable)
    (serviceRoot : Object),
    (∀ handle ∈ planner.subqueryHandles, OnlyRedPaths handle) ->
      ErrorFree planner -> options.Continues -> variant.object = some serviceRoot ->
        ((∃ bound session,
            ExceptT.run (run planner options bound variant) = some (.ok session) ∧
              session.normalized.Perm (selections planner options serviceRoot)) ↔
          ∃ bound tally,
            ExceptT.run (survey planner options bound serviceRoot) = some (.ok tally) ∧
              tally.extra = tally.lost) := by
  intro planner options variant serviceRoot only errorFree continues shown
  constructor
  · rintro ⟨bound, session, ended, permuted⟩
    rcases (run_follows continues errorFree only bound shown).ends with
      ⟨exhausted, _⟩ | ⟨_, _, failed, _⟩ | ⟨after, tally, returned, surveyed, same⟩
    · rw [exhausted] at ended
      cases ended
    · rw [failed] at ended
      cases ended
    · rw [returned] at ended
      cases ended
      exact ⟨bound, tally, surveyed, (normalized_perm_iff only surveyed same).mp permuted⟩
  · rintro ⟨bound, tally, ended, even⟩
    rcases (run_follows continues errorFree only bound shown).ends with
      ⟨_, exhausted⟩ | ⟨_, _, _, failed, _⟩ | ⟨session, after, returned, surveyed, same⟩
    · rw [exhausted] at ended
      cases ended
    · rw [failed] at ended
      cases ended
    · rw [surveyed] at ended
      cases ended
      exact ⟨bound, session, returned, (normalized_perm_iff only surveyed same).mpr even⟩

/-! ## A member that fulfils no predicate -/

/-- A subquery for the systems of some kind. -/
def systemsHandle : LinkedHandle :=
  .mk (.construct { Subquery.empty with
      subqueryId := text "Systems"
      resource := .redpath (text "/Systems[Kind]") } [(text "Systems", text "Kind")]) []

/-- The service root has one system without a kind.  This one has a system below it, which has
a kind. -/
def systemsGraph : Nat -> RedfishVariant Nat (List Nat)
  | 0 => .ofIterable [1]
  | 1 => .ofIterable [2]
  | _ => .ofStatus (.notFound [])

def systemsPlanner : QueryPlanner Nat (List Nat) Unit where
  planId := text "Systems"
  subqueryHandles := [systemsHandle]
  redpathToQueryParams := []
  redfishInterface := none
  get object nodeName _ :=
    if nodeName = text "Systems" then systemsGraph object else .ofStatus (.notFound [])
  ensureFreshPayload object := .ok (some object)
  getContentAsJson object := .object (if object = 2 then [(text "Kind", .null)] else [])
  size := List.length
  index systems nodeIndex :=
    match systems[nodeIndex]? with
    | some object => .ofObject object
    | none => .ofStatus (.notFound [])
  normalizer _ _ _ := .ok ()
  numbers := Predicates.integerLibrary
  buildFilterFromRedpathPredicateList _ := .ok []
  nodeOrder := .listed _
  predicateOrder := .listed _

def plainOptions : RunOptions Unit where
  queryVariables := []
  callback := none
  flags := {}
  sizes := ⟨fun _ => 0, fun _ => 0⟩

lemma systemsPlanner_onlyRedPaths :
    ∀ handle ∈ systemsPlanner.subqueryHandles, OnlyRedPaths handle := by
  intro handle member
  rw [mem_singleton.mp member]
  exact .mk rfl fun child isChild => absurd isChild not_mem_nil

lemma systemsPlanner_errorFree : ErrorFree systemsPlanner where
  get object nodeName params := by
    simp only [systemsPlanner]
    split
    · unfold systemsGraph
      split
      · exact .inl rfl
      · exact .inl rfl
      · exact .inr rfl
    · exact .inr rfl
  parameters _ _ _ := rfl
  index systems nodeIndex := by
    simp only [systemsPlanner]
    split
    · exact .inl rfl
    · exact .inr rfl
  fresh _ := rfl

lemma plainOptions_continues : plainOptions.Continues := by
  intro callback given
  cases given

theorem normalizes_selections_iff_systems :
    (∃ bound session,
        ExceptT.run (run systemsPlanner plainOptions bound (.ofObject 0)) = some (.ok session) ∧
          session.normalized.Perm (selections systemsPlanner plainOptions 0)) ↔
      ∃ bound tally,
        ExceptT.run (survey systemsPlanner plainOptions bound 0) = some (.ok tally) ∧
          tally.extra = tally.lost :=
  normalizes_selections_iff systemsPlanner plainOptions (.ofObject 0) 0 systemsPlanner_onlyRedPaths
    systemsPlanner_errorFree plainOptions_continues rfl

/-- The RedPath selects no system, since the one at the service root has no kind, but the planner
calls `Normalize` for the system below. -/
theorem normalizes_what_is_not_selected :
    (∀ handle ∈ systemsPlanner.subqueryHandles, OnlyRedPaths handle) ∧
      ErrorFree systemsPlanner ∧ selections systemsPlanner plainOptions 0 = [] ∧
      (∃ bound session,
        ExceptT.run (run systemsPlanner plainOptions bound (.ofObject 0)) = some (.ok session) ∧
          session.normalized = [(text "Systems", 2)]) ∧
      ¬ ∃ bound session,
        ExceptT.run (run systemsPlanner plainOptions bound (.ofObject 0)) = some (.ok session) ∧
          session.normalized.Perm (selections systemsPlanner plainOptions 0) := by
  refine ⟨systemsPlanner_onlyRedPaths, systemsPlanner_errorFree, rfl, ⟨3, _, rfl, rfl⟩, ?_⟩
  rintro ⟨bound, session, ended, permuted⟩
  have enough : ∀ more : Nat,
      (ExceptT.run (run systemsPlanner plainOptions (more + 3) (.ofObject 0))).map
        (fun outcome => outcome.toOption.map Session.normalized) =
      some (some [(text "Systems", 2)]) := fun _ => rfl
  rcases bound with _ | _ | _ | more
  · cases ended
  · cases ended
  · cases ended
  · have called := enough more
    rw [ended] at called
    have normalized : session.normalized = [(text "Systems", 2)] :=
      Option.some.inj (Option.some.inj called)
    have lengths := permuted.length_eq
    rw [normalized] at lengths
    cases lengths

end Ecclesia.StepPlanner
