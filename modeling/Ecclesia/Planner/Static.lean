import Ecclesia.Library.Yields
import Ecclesia.Planner.Execute

namespace Ecclesia.Planner

open Absl

/-!
# Expressions in a static resource tree

In a tree that does not change while it is queried, the answer to an
expression depends only on the place at which it is executed: the resource
and the RedPath prefix that leads there.  The definitions below say what the
answer is, without any state; the main result is that the planner computes it.
-/

/-- A resource together with the RedPath prefix that leads to it. -/
structure Place (Object Iterable : Type) where
  lastRedpathPrefix : Text
  redfishResponse : RedfishResponse Object Iterable

def QueryExecutionContext.place {Object Iterable : Type}
    (context : QueryExecutionContext Object Iterable) : Place Object Iterable :=
  ⟨context.lastRedpathPrefix, context.redfishResponse⟩

/-- The place of a resource that an expression selects. -/
def Place.next {Object Iterable : Type} (place : Place Object Iterable)
    (expression : RedPathExpression) (response : RedfishResponse Object Iterable) :
    Place Object Iterable :=
  ⟨addExpressionToRedPath place.lastRedpathPrefix expression, response⟩

/-- The answers of a service that do not change, and of the normalizer of its resources. -/
structure ResourceTree (Object Iterable : Type) where
  get : Object -> Text -> GetParams -> RedfishVariant Object Iterable
  cachedGetUri : Text -> GetParams -> RedfishVariant Object Iterable
  ensureFreshPayload : Object -> GetParams -> StatusOr (Option Object)
  index : Iterable -> Nat -> RedfishVariant Object Iterable
  normalize : Object -> Subquery -> Bool -> StatusOr QueryResultData

variable {World Object Iterable : Type}

/-- The service always gives this answer, whatever else happens to the world. -/
def Answers {Value : Type} (action : StateM World Value) (value : Value) : Prop :=
  Yields (.anything World) action value

/-- The planner queries this tree through the given interface and is never
cancelled. -/
structure IsStatic (planner : QueryPlanner World Object Iterable)
    (interface : RedfishInterface World Object Iterable)
    (tree : ResourceTree Object Iterable) : Prop where
  get : ∀ object name params,
    Answers (planner.views.get object name params) (tree.get object name params)
  cachedGetUri : ∀ uri params,
    Answers (interface.cachedGetUri uri params) (tree.cachedGetUri uri params)
  ensureFreshPayload : ∀ object params,
    Answers (planner.views.ensureFreshPayload object params) (tree.ensureFreshPayload object params)
  index : ∀ iterable position,
    Answers (planner.views.index iterable position) (tree.index iterable position)
  normalize : ∀ object subquery urlAnnotationEnabled,
    Answers (planner.normalizer object subquery urlAnnotationEnabled)
      (tree.normalize object subquery urlAnnotationEnabled)
  notCancelled : Answers planner.isQueryExecutionCancelled false

/-- The object of an answer, refreshed if that is required. -/
def ResourceTree.freshObject (tree : ResourceTree Object Iterable) (params : GetParams)
    (variant : RedfishVariant Object Iterable) : StatusOr (Option Object) :=
  if !variant.status.isOk then
    .error (.failedPrecondition (text "RedfishVariant object has status: " ++
      variant.status.message))
  else
    match variant.object with
    | none => .ok none
    | some object =>
      if params.freshness ≠ .required then .ok (some object)
      else
        match tree.ensureFreshPayload object { timeoutManager := params.timeoutManager } with
        | .error status => .error (.internal status.message)
        | .ok fresh => .ok fresh

/-- A member of a collection, or the status with which it could not be had. -/
def ResourceTree.member (tree : ResourceTree Object Iterable) (params : GetParams)
    (iterable : Iterable) (nodeIndex : Nat) : StatusOr (Option Object) :=
  match tree.freshObject params (tree.index iterable nodeIndex) with
  | .ok object => .ok object
  | .error status =>
    .error (if (tree.index iterable nodeIndex).status.isOk then status
      else (tree.index iterable nodeIndex).status)

/-- What becomes of one member of a collection under a predicate. -/
inductive Verdict (Object : Type) where
  | unavailable (status : Status)
  | nothing
  | broken (failure : Failure)
  | refused
  | accepted (object : Object)

variable (planner : QueryPlanner World Object Iterable) (tree : ResourceTree Object Iterable)

def paramsAt (place : Place Object Iterable) (expression : RedPathExpression) : GetParams :=
  getQueryParamsForRedPath planner (addExpressionToRedPath place.lastRedpathPrefix expression)

def verdict (place : Place Object Iterable) (params : GetParams) (newPredicate : Text)
    (iterable : Iterable) (nodeIndex : Nat) : Verdict Object :=
  match tree.member params iterable nodeIndex with
  | .error status => .unavailable status
  | .ok none => .nothing
  | .ok (some object) =>
    match executePredicateExpression planner newPredicate nodeIndex
        (planner.views.size iterable) place.redfishResponse object with
    | .error failure => .broken failure
    | .ok true => .accepted object
    | .ok false => .refused

/-- The verdict as a turn of the loop over the members. -/
def Verdict.turn (place : Place Object Iterable) (nodeIndex : Nat) :
    Verdict Object -> MemberTurn Object Iterable
  | .unavailable status =>
    match statusAtResource
        (getChildUriFromIterable planner.views place.redfishResponse nodeIndex) status with
    | .exception what => .exit (.exception what)
    | .status located =>
      if planner.executionMode = .failOnFirstError then .exit (.status located) else .next
  | .nothing => .next
  | .broken failure => .exit failure
  | .refused => .next
  | .accepted object => .push (.ofObject (some object))

def collectTurns : List (MemberTurn Object Iterable) ->
    Evaluation (List (RedfishResponse Object Iterable))
  | [] => .ok []
  | .exit failure :: _ => .error failure
  | .next :: rest => collectTurns rest
  | .push response :: rest => (collectTurns rest).map fun responses => response :: responses

def membersAnswer (place : Place Object Iterable) (params : GetParams) (newPredicate : Text)
    (iterable : Iterable) : Evaluation (List (RedfishResponse Object Iterable)) :=
  collectTurns ((List.range (planner.views.size iterable)).map fun nodeIndex =>
    (verdict planner tree place params newPredicate iterable nodeIndex).turn planner place
      nodeIndex)

/-- The answer behind the request for a node. -/
def variantAnswer (place : Place Object Iterable) (expression : RedPathExpression)
    (params : GetParams) (variant : RedfishVariant Object Iterable) :
    Evaluation (List (RedfishResponse Object Iterable)) :=
  let located (status : Status) : Evaluation (List (RedfishResponse Object Iterable)) :=
    .error (statusAtResource
      (getChildUriFromNode planner.views place.redfishResponse expression.expression) status)
  if !variant.status.isOk then located variant.status
  else if variant.iterable.isNone && variant.raw.isNone then
    match variant.object with
    | none => .ok []
    | some _ =>
      match tree.freshObject params variant with
      | .error status => located status
      | .ok object => .ok [⟨object, none, none⟩]
  else .ok [⟨variant.object, variant.iterable, variant.raw⟩]

/-- The answer for an expression on a single resource. -/
def objectAnswer (queryVariables : QueryVariables) (place : Place Object Iterable)
    (expression : RedPathExpression) (object : Object) :
    Evaluation (List (RedfishResponse Object Iterable)) :=
  let params := paramsAt planner place expression
  match expression.type with
  | .nodeName =>
    let filtered := paramsWithFilter planner params expression queryVariables
    variantAnswer planner tree place expression filtered
      (tree.get object expression.expression filtered)
  | .nodeNameJsonPointer =>
    match PathUtil.resolveRedPathNodeToJson (planner.views.getContentAsJson object)
        expression.expression with
    | .error (.status _) => .ok []
    | .error (.exception what) => .error (.exception what)
    | .ok resolved =>
      match resolved.getString with
      | .error failure => .error failure
      | .ok nodeName =>
        let pointed := getQueryParamsForRedPath planner nodeName
        variantAnswer planner tree place expression pointed (tree.cachedGetUri nodeName pointed)
  | .nodeNameUriPointer =>
    let pointed := getQueryParamsForRedPath planner expression.expression
    variantAnswer planner tree place expression pointed
      (tree.cachedGetUri expression.expression pointed)
  | .predicate =>
    match executePredicateExpression planner expression.expression 0 1 place.redfishResponse
        object with
    | .error failure => .error failure
    | .ok selected =>
      match tree.ensureFreshPayload object params with
      | .error status => .error (.status status)
      | .ok none => .ok []
      | .ok (some refreshed) =>
        .ok (if selected then [.ofObject (some refreshed)] else [])
  | .predicateTemplate =>
    variantAnswer planner tree place expression params (.ofStatus .okStatus)

def treeAnswer (queryVariables : QueryVariables) (place : Place Object Iterable)
    (expression : RedPathExpression) : Evaluation (List (RedfishResponse Object Iterable)) :=
  match membersFor place.redfishResponse expression with
  | some iterable =>
    match planner.substituteVariables expression.expression queryVariables with
    | .error status => .error (.status status)
    | .ok newPredicate =>
      membersAnswer planner tree place (paramsAt planner place expression) newPredicate iterable
  | none =>
    match place.redfishResponse.redfishObject with
    | none => .ok []
    | some object => objectAnswer planner tree queryVariables place expression object

/-- An execution keeps the URIs to subscribe to and takes back no error; a quiet one reports none.
-/
structure ExecutesQuietly (quiet : Prop) (before after : ExecutionState World) : Prop where
  uris : after.urisToSubscribe = before.urisToSubscribe
  status : quiet -> after.status = before.status
  clean : after.status = none -> before.status = none

def quietly (World : Type) (quiet : Prop) : Keeping (ExecutionState World) where
  Holds := ExecutesQuietly quiet
  refl _ := ⟨rfl, fun _ => rfl, fun clean => clean⟩
  trans first second :=
    ⟨second.uris.trans first.uris, fun quiet => (second.status quiet).trans (first.status quiet),
      fun clean => first.clean (second.clean clean)⟩

lemma Answers.onWorld {Value : Type} {action : StateM World Value} {value : Value}
    (answers : Answers action value) (quiet : Prop) :
    Yields (quietly World quiet) (onWorld action) value :=
  fun state => ⟨(answers state.world).1, rfl, fun _ => rfl, fun clean => clean⟩

/-- The loudest a member can be: it reports an error that is not a missing
resource. -/
def Loud (planner : QueryPlanner World Object Iterable) : Verdict Object -> Prop
  | .unavailable status =>
    planner.executionMode = .continueOnSubqueryErrors ∧ status.code ≠ .notFound
  | _ => False

variable {planner} {tree} {interface : RedfishInterface World Object Iterable}

lemma IsStatic.freshObject (static : IsStatic planner interface tree) (params : GetParams)
    (variant : RedfishVariant Object Iterable) :
    Answers (getRedfishObjectWithFreshness planner params variant false)
      (tree.freshObject params variant) := by
  unfold getRedfishObjectWithFreshness ResourceTree.freshObject
  cases fine : variant.status.isOk with
  | false => exact .pure _
  | true =>
    cases shown : variant.object with
    | none => exact .pure _
    | some object =>
      by_cases optional : params.freshness ≠ .required
      · simp only [if_pos optional]
        exact .pure _
      · simp only [if_neg optional]
        apply Yields.bind (static.ensureFreshPayload object _)
        cases tree.ensureFreshPayload object { timeoutManager := params.timeoutManager } with
        | error status => exact Yields.pure _
        | ok fresh => exact Yields.pure _

lemma ResourceTree.freshObject_not_cancelled {params : GetParams}
    {variant : RedfishVariant Object Iterable} {status : Status}
    (failed : tree.freshObject params variant = .error status) : status.code ≠ .cancelled := by
  unfold ResourceTree.freshObject at failed
  cases fine : variant.status.isOk with
  | false =>
    rw [fine] at failed
    cases failed
    exact nofun
  | true =>
    rw [fine] at failed
    cases shown : variant.object with
    | none =>
      rw [shown] at failed
      cases failed
    | some object =>
      rw [shown] at failed
      by_cases optional : params.freshness ≠ .required
      · simp only [if_pos optional] at failed
        cases failed
      · simp only [if_neg optional] at failed
        cases refreshed : tree.ensureFreshPayload object
            { timeoutManager := params.timeoutManager } with
        | error other =>
          rw [refreshed] at failed
          cases failed
          exact nofun
        | ok fresh =>
          rw [refreshed] at failed
          cases failed

lemma statusAtResource_code {childUri : Evaluation Text} {status located : Status}
    (reported : statusAtResource childUri status = .status located) :
    located.code = status.code := by
  unfold statusAtResource at reported
  split at reported
  · cases reported
    rfl
  · cases reported
    rfl
  · cases reported

lemma failMember_yields (expression : RedPathExpression)
    (context : QueryExecutionContext Object Iterable) (nodeIndex : Nat) (status : Status)
    {quiet : Prop} (silent : quiet -> ¬ Loud planner (.unavailable status : Verdict Object)) :
    Yields (quietly World quiet) (failMember planner expression context nodeIndex status)
      ((Verdict.unavailable status).turn planner context.place nodeIndex) := by
  unfold failMember Verdict.turn
  simp only [QueryExecutionContext.place]
  cases reported : statusAtResource
      (getChildUriFromIterable planner.views context.redfishResponse nodeIndex) status with
  | exception what => exact .pure _
  | status located =>
    simp only
    by_cases mode : planner.executionMode = .failOnFirstError
    · rw [if_pos mode, if_pos mode]
      exact .pure _
    · rw [if_neg mode, if_neg mode]
      by_cases missing : located.code ≠ .notFound
      · rw [if_pos missing]
        intro state
        refine ⟨rfl, rfl, ?_, ?_⟩
        · intro quietNow
          -- A quiet member reports nothing, so this branch is not taken.
          exact absurd ⟨by cases known : planner.executionMode <;> simp_all,
            by rw [<- statusAtResource_code reported]; exact missing⟩ (silent quietNow)
        · intro impossible
          cases impossible
      · rw [if_neg missing]
        exact .pure _

section

variable (static : IsStatic planner interface tree) (expression : RedPathExpression)
  (context : QueryExecutionContext Object Iterable)

include static

section

variable (params : GetParams)

section

variable (newPredicate : Text) (iterable : Iterable)

lemma IsStatic.executeMember_yields (nodeIndex : Nat) {quiet : Prop}
    (silent : quiet -> ¬ Loud planner
      (verdict planner tree context.place params newPredicate iterable nodeIndex)) :
    Yields (quietly World quiet)
      (executeMember planner .polling expression context params newPredicate iterable nodeIndex)
      ((verdict planner tree context.place params newPredicate iterable nodeIndex).turn planner
        context.place nodeIndex) := by
  apply Yields.bind ((static.index iterable nodeIndex).onWorld quiet)
  apply Yields.bind (static.notCancelled.onWorld quiet)
  apply Yields.bind ((static.freshObject params _).onWorld quiet)
  unfold verdict ResourceTree.member at silent ⊢
  cases fetched : tree.freshObject params (tree.index iterable nodeIndex) with
  | error status =>
    rw [fetched] at silent
    simp only [if_neg (ResourceTree.freshObject_not_cancelled fetched)]
    exact failMember_yields expression context nodeIndex _ silent
  | ok found =>
    cases found with
    | none => exact .pure _
    | some object =>
      simp only [selectMember, QueryExecutionContext.place]
      cases executePredicateExpression planner newPredicate nodeIndex
          (planner.views.size iterable) context.redfishResponse object with
      | error failure => exact .pure _
      | ok selected =>
        cases selected with
        | true => exact .pure _
        | false => exact .pure _

lemma IsStatic.executeMembers_yields (indices : List Nat) {quiet : Prop}
    (silent : quiet -> ∀ nodeIndex ∈ indices, ¬ Loud planner
      (verdict planner tree context.place params newPredicate iterable nodeIndex)) :
    Yields (quietly World quiet)
      (executeMembers planner .polling expression context params newPredicate iterable indices)
      (collectTurns (indices.map fun nodeIndex =>
        (verdict planner tree context.place params newPredicate iterable nodeIndex).turn planner
          context.place nodeIndex)) := by
  induction indices with
  | nil => exact .pure _
  | cons nodeIndex rest ih =>
    have later := ih fun quietNow other member =>
      silent quietNow other (.tail _ member)
    refine .bind (static.executeMember_yields expression context params newPredicate
      iterable nodeIndex fun quietNow => silent quietNow nodeIndex (.head _)) ?_
    rw [List.map_cons]
    cases (verdict planner tree context.place params newPredicate iterable nodeIndex).turn
        planner context.place nodeIndex with
    | exit failure => exact .pure _
    | next => exact later
    | push response => exact .bind later (.pure _)

lemma IsStatic.executeMember_loud (nodeIndex : Nat) (loud : Loud planner
      (verdict planner tree context.place params newPredicate iterable nodeIndex))
    (stays : ∀ failure,
      (verdict planner tree context.place params newPredicate iterable nodeIndex).turn planner
        context.place nodeIndex ≠ .exit failure) (state : ExecutionState World) :
    (executeMember planner .polling expression context params newPredicate iterable nodeIndex
      state).2.status ≠ none := by
  revert state
  refine Yields.bind_ends (fun state => state.status ≠ none)
    ((static.index iterable nodeIndex).onWorld False) ?_
  refine Yields.bind_ends (fun state => state.status ≠ none) (static.notCancelled.onWorld False) ?_
  refine Yields.bind_ends (fun state => state.status ≠ none)
    ((static.freshObject params _).onWorld False) ?_
  intro state
  unfold verdict ResourceTree.member at loud stays
  cases fetched : tree.freshObject params (tree.index iterable nodeIndex) with
  | ok found =>
    rw [fetched] at loud
    cases found with
    | none => exact loud.elim
    | some object =>
      simp only at loud
      split at loud
      · exact loud.elim
      · exact loud.elim
      · exact loud.elim
  | error status =>
    rw [fetched] at loud stays
    rcases loud with ⟨mode, present⟩
    simp only [if_neg (ResourceTree.freshObject_not_cancelled fetched)]
    simp only [Verdict.turn] at stays
    unfold failMember
    simp only [QueryExecutionContext.place] at stays
    cases reported : statusAtResource
        (getChildUriFromIterable planner.views context.redfishResponse nodeIndex)
        (if (tree.index iterable nodeIndex).status.isOk then status
          else (tree.index iterable nodeIndex).status) with
    | exception what =>
      rw [reported] at stays
      exact absurd rfl (stays _)
    | status located =>
      have distinct : located.code ≠ .notFound := by
        rw [statusAtResource_code reported]
        exact present
      simp only [mode, if_pos distinct]
      exact nofun

/-- A loop that no member leaves is clean only if no member is loud. -/
lemma IsStatic.executeMembers_clean {indices : List Nat} (stays : ∀ nodeIndex ∈ indices, ∀ failure,
      (verdict planner tree context.place params newPredicate iterable nodeIndex).turn planner
        context.place nodeIndex ≠ .exit failure) {state : ExecutionState World}
    (clean : (executeMembers planner .polling expression context params newPredicate iterable
      indices state).2.status = none) :
    ∀ nodeIndex ∈ indices, ¬ Loud planner
      (verdict planner tree context.place params newPredicate iterable nodeIndex) := by
  induction indices generalizing state with
  | nil => exact nofun
  | cons first rest ih =>
    have staysRest := fun nodeIndex member => stays nodeIndex (List.mem_cons_of_mem first member)
    have loud := static.executeMember_loud expression context params newPredicate iterable first
    have turned := static.executeMember_yields expression context params newPredicate iterable
      first (fun impossible : False => impossible.elim) state
    have kept := fun between => (static.executeMembers_yields expression context params
      newPredicate iterable rest (fun impossible : False => impossible.elim) between).2.clean
    simp only [executeMembers, bind, StateT.bind] at clean
    rcases ran : executeMember planner .polling expression context params newPredicate iterable
      first state with ⟨turn, between⟩
    rw [ran] at clean turned
    have cleanRest : (executeMembers planner .polling expression context params newPredicate
        iterable rest between).2.status = none := by
      have left := stays first (.head _)
      rw [<- turned.1] at left
      cases turn with
      | exit failure => exact absurd rfl (left failure)
      | next => exact clean
      | push response => exact clean
    intro nodeIndex member
    rcases List.mem_cons.mp member with rfl | member
    · intro reports
      have error := loud reports (stays _ (.head _)) state
      rw [ran] at error
      exact error (kept between cleanRest)
    · exact ih staysRest cleanRest nodeIndex member

end

lemma IsStatic.acceptVariant_yields (variant : RedfishVariant Object Iterable) (quiet : Prop) :
    Yields (quietly World quiet) (acceptVariant planner expression context params variant)
      (variantAnswer planner tree context.place expression params variant) := by
  unfold acceptVariant variantAnswer
  cases fine : variant.status.isOk with
  | false => exact .pure _
  | true =>
    cases plain : (variant.iterable.isNone && variant.raw.isNone) with
    | false => exact .pure _
    | true =>
      cases variant.object with
      | none => exact .pure _
      | some object =>
        apply Yields.bind (static.notCancelled.onWorld quiet)
        apply Yields.bind ((static.freshObject params variant).onWorld quiet)
        cases tree.freshObject params variant with
        | error status => exact Yields.pure _
        | ok fresh => exact .pure _

end

lemma IsStatic.executeOnObject_yields
    (queryVariables : QueryVariables) (object : Object) (quiet : Prop) :
    Yields (quietly World quiet)
      (executeOnObject planner .polling expression context queryVariables interface object)
      (objectAnswer planner tree queryVariables context.place expression object) := by
  unfold executeOnObject objectAnswer
  apply Yields.bind (static.notCancelled.onWorld quiet)
  simp only [Bool.false_eq_true, if_false]
  cases expression.type with
  | nodeName =>
    apply Yields.bind ((static.get object _ _).onWorld quiet)
    exact static.acceptVariant_yields expression context _ _ quiet
  | nodeNameJsonPointer =>
    cases PathUtil.resolveRedPathNodeToJson (planner.views.getContentAsJson object)
        expression.expression with
    | error failure =>
      cases failure with
      | status status => exact .pure _
      | exception what => exact .pure _
    | ok resolved =>
      simp only
      cases resolved.getString with
      | error failure => exact .pure _
      | ok nodeName =>
        apply Yields.bind ((static.cachedGetUri nodeName _).onWorld quiet)
        exact static.acceptVariant_yields expression context _ _ quiet
  | nodeNameUriPointer =>
    apply Yields.bind ((static.cachedGetUri expression.expression _).onWorld quiet)
    exact static.acceptVariant_yields expression context _ _ quiet
  | predicate =>
    simp only [executeSinglePredicate, QueryExecutionContext.place, paramsAt]
    cases executePredicateExpression planner expression.expression 0 1
        context.redfishResponse object with
    | error failure => exact Yields.pure _
    | ok selected =>
      apply Yields.bind ((static.ensureFreshPayload object _).onWorld quiet)
      cases tree.ensureFreshPayload object (getQueryParamsForRedPath planner
          (addExpressionToRedPath context.lastRedpathPrefix expression)) with
      | error status => exact Yields.pure _
      | ok fresh =>
        cases fresh with
        | none => exact .pure _
        | some refreshed => exact .pure _
  | predicateTemplate => exact static.acceptVariant_yields expression context _ _ quiet

/-- No member that an expression is applied to reports an error. -/
def QuietAt (planner : QueryPlanner World Object Iterable) (tree : ResourceTree Object Iterable)
    (queryVariables : QueryVariables) (place : Place Object Iterable)
    (expression : RedPathExpression) : Prop :=
  ∀ iterable newPredicate,
    membersFor place.redfishResponse expression = some iterable ->
    planner.substituteVariables expression.expression queryVariables = .ok newPredicate ->
      ∀ nodeIndex, nodeIndex < planner.views.size iterable -> ¬ Loud planner
        (verdict planner tree place (paramsAt planner place expression) newPredicate iterable
          nodeIndex)

/-- A polling planner gives the answers of the tree, and reports errors of members
only where there are some. -/
lemma IsStatic.executeForResponses_yields (queryVariables : QueryVariables) :
    Yields (quietly World (QuietAt planner tree queryVariables context.place expression))
      (executeForResponses planner .polling expression context queryVariables (some interface))
      (treeAnswer planner tree queryVariables context.place expression) := by
  unfold executeForResponses treeAnswer
  simp only [QueryExecutionContext.place]
  cases found : membersFor context.redfishResponse expression with
  | some iterable =>
    cases substituted : planner.substituteVariables expression.expression queryVariables with
    | error status => exact .pure _
    | ok newPredicate =>
      refine static.executeMembers_yields expression context _ newPredicate iterable
        (List.range (planner.views.size iterable)) ?_
      intro quietNow nodeIndex member
      exact quietNow iterable newPredicate found substituted nodeIndex (List.mem_range.mp member)
  | none =>
    cases context.redfishResponse.redfishObject with
    | none => exact .pure _
    | some object =>
      exact static.executeOnObject_yields expression context queryVariables object _

end

end Ecclesia.Planner
