import Ecclesia.Planner.Table
import Ecclesia.Predicates.VariableSubstitution

namespace Ecclesia.Planner

open Absl List Option

/-!
# A predicate on a single resource

A context holds one resource, or a collection with this resource as its only member.  The
predicate of a collection gets the values of its variables, and its members are refreshed only
if their freshness is required.  The predicate of a single resource is taken as it is written,
and the resource is always refreshed, after the predicate was evaluated.
-/

section

variable {World Object Iterable : Type}

def Selects (answer : Evaluation (List (QueryExecutionContext Object Iterable))) : Prop :=
  ∃ contexts context object, answer = .ok contexts ∧ context ∈ contexts ∧
    context.redfishResponse.redfishObject = some object

def HasObject (answer : Evaluation (List (RedfishResponse Object Iterable))) : Prop :=
  ∃ responses response object, answer = .ok responses ∧ response ∈ responses ∧
    response.redfishObject = some object

variable (planner : QueryPlanner World Object Iterable)

lemma executeQueryExpression_selects (queryType : QueryType) (expression : RedPathExpression)
    (context : QueryExecutionContext Object Iterable) (queryVariables : QueryVariables)
    (interface : Option (RedfishInterface World Object Iterable)) (state : ExecutionState World) :
    Selects (executeQueryExpression planner queryType expression context queryVariables interface
        state).1 ↔
      HasObject (executeForResponses planner queryType expression context queryVariables
        interface state).1 := by
  have mapped : (executeQueryExpression planner queryType expression context queryVariables
      interface state).1 =
      (executeForResponses planner queryType expression context queryVariables interface
        state).1.map fun found => found.map (context.fromExisting
          (addExpressionToRedPath context.lastRedpathPrefix expression)) := rfl
  rw [mapped]
  rcases (executeForResponses planner queryType expression context queryVariables interface
    state).1 with failure | responses
  · constructor
    · rintro ⟨contexts, _, _, impossible, _⟩
      cases impossible
    · rintro ⟨responses, _, _, impossible, _⟩
      cases impossible
  · constructor
    · rintro ⟨contexts, found, object, answered, member, holds⟩
      cases answered
      rcases mem_map.mp member with ⟨response, listed, rfl⟩
      exact ⟨responses, response, object, rfl, listed, holds⟩
    · rintro ⟨others, response, object, answered, member, holds⟩
      cases answered
      exact ⟨_, _, object, rfl, mem_map_of_mem member, holds⟩

def IsTrueOf (predicate : Text) (object : Object) : Prop :=
  Predicates.applyPredicateRule planner.numbers (planner.views.getContentAsJson object)
    ⟨predicate, 0, 1⟩ = .ok true

lemma executePredicateExpression_iff (predicate : Text)
    (response : RedfishResponse Object Iterable) (object : Object) :
    executePredicateExpression planner predicate 0 1 response object = .ok true ↔
      IsTrueOf planner predicate object := by
  unfold executePredicateExpression IsTrueOf
  cases applied : Predicates.applyPredicateRule planner.numbers
      (planner.views.getContentAsJson object) ⟨predicate, 0, 1⟩ with
  | ok selected => rfl
  | error failure =>
    constructor
    · intro impossible
      cases failure with
      | status status => cases impossible
      | exception what => cases impossible
    · intro impossible
      cases impossible

/-- The single resource is selected: the predicate is true as it is written, and the resource
can be refreshed. -/
def SelectedAlone (predicate : Text) (object : Object) (params : GetParams) (world : World) :
    Prop :=
  IsTrueOf planner predicate object ∧
    ∃ refreshed, (planner.views.ensureFreshPayload object params world).1 = .ok (some refreshed)

/-- What is evaluated of a member: the resource itself, or the refreshed one if this is
required. -/
def IsMemberFor (object : Object) (params : GetParams) (world : World) (member : Object) :
    Prop :=
  if params.freshness = .required then
    (planner.views.ensureFreshPayload object { timeoutManager := params.timeoutManager }
      world).1 = .ok (some member)
  else member = object

/-- The only member is selected: the predicate with its values is true of what is evaluated. -/
def SelectedAsMember (queryVariables : QueryVariables) (predicate : Text) (object : Object)
    (params : GetParams) (world : World) : Prop :=
  ∃ newPredicate member,
    Predicates.substituteVariables predicate queryVariables = .ok newPredicate ∧
      IsMemberFor planner object params world member ∧ IsTrueOf planner newPredicate member

/-- The execution goes on to the predicate: it neither halts for a subscription nor was it
cancelled. -/
def GoesOn (queryType : QueryType) (expression : RedPathExpression)
    (context : QueryExecutionContext Object Iterable) (world : World) : Prop :=
  subscribesAt planner queryType (addExpressionToRedPath context.lastRedpathPrefix expression) =
      false ∧
    (planner.isQueryExecutionCancelled world).1 = false

lemma hasObject_error (failure : Failure) :
    ¬ HasObject (.error failure : Evaluation (List (RedfishResponse Object Iterable))) := by
  rintro ⟨responses, response, object, impossible, -⟩
  cases impossible

lemma hasObject_nil :
    ¬ HasObject (.ok [] : Evaluation (List (RedfishResponse Object Iterable))) := by
  rintro ⟨responses, response, object, answered, member, -⟩
  cases answered
  cases member

lemma hasObject_single (object : Option Object) :
    HasObject (.ok [.ofObject object] : Evaluation (List (RedfishResponse Object Iterable))) ↔
      object.isSome = true := by
  constructor
  · rintro ⟨responses, response, found, answered, member, holds⟩
    cases answered
    rw [mem_singleton.mp member] at holds
    rw [show object = some found from holds]
    rfl
  · intro present
    rcases isSome_iff_exists.mp present with ⟨found, isFound⟩
    exact ⟨_, _, found, rfl, mem_singleton.mpr rfl, isFound⟩

section

variable {queryType : QueryType} {expression : RedPathExpression}
  {context : QueryExecutionContext Object Iterable} {queryVariables : QueryVariables}
  {interface : RedfishInterface World Object Iterable} {object : Object}

lemma executeSinglePredicate_hasObject (params : GetParams) (state : ExecutionState World) :
    HasObject (executeSinglePredicate planner expression context object params state).1 ↔
      SelectedAlone planner expression.expression object params state.world := by
  unfold executeSinglePredicate SelectedAlone
  rw [<- executePredicateExpression_iff planner expression.expression context.redfishResponse]
  cases executePredicateExpression planner expression.expression 0 1 context.redfishResponse
      object with
  | error failure =>
    constructor
    · intro impossible
      exact absurd impossible (hasObject_error failure)
    · rintro ⟨impossible, -⟩
      cases impossible
  | ok selected =>
    simp only [bind, StateT.bind, onWorld]
    rcases planner.views.ensureFreshPayload object params state.world with
      ⟨status | _ | refreshed, after⟩
    · constructor
      · intro impossible
        exact absurd impossible (hasObject_error _)
      · rintro ⟨-, refreshed, impossible⟩
        cases impossible
    · constructor
      · intro impossible
        exact absurd impossible hasObject_nil
      · rintro ⟨-, refreshed, impossible⟩
        cases impossible
    · cases selected with
      | true => exact ⟨fun _ => ⟨rfl, refreshed, rfl⟩, fun _ => (hasObject_single _).mpr rfl⟩
      | false =>
        constructor
        · intro impossible
          exact absurd impossible hasObject_nil
        · rintro ⟨impossible, -⟩
          cases impossible

/-- A halted expression selects nothing. -/
lemma subscribeToNode_hasObject (params : GetParams) (state : ExecutionState World) :
    ¬ HasObject (subscribeToNode planner expression object params state).1 := by
  unfold subscribeToNode
  rcases getNavigationalPropertyToSubscribe planner expression object params with
    (status | what) | uri
  · exact hasObject_nil
  · exact hasObject_error _
  · exact hasObject_nil

lemma single_hasObject (isPredicate : expression.type = .predicate)
    (holdsObject : context.redfishResponse.redfishObject = some object)
    (noIterable : context.redfishResponse.redfishIterable = none) (state : ExecutionState World) :
    HasObject (executeForResponses planner queryType expression context queryVariables
        (some interface) state).1 ↔
      GoesOn planner queryType expression context state.world ∧
        SelectedAlone planner expression.expression object
          (getQueryParamsForRedPath planner
            (addExpressionToRedPath context.lastRedpathPrefix expression))
          (planner.isQueryExecutionCancelled state.world).2 := by
  have single : membersFor context.redfishResponse expression = none := by
    rw [membersFor, if_pos isPredicate, noIterable]
  unfold executeForResponses
  simp only [single, holdsObject]
  unfold executeOnObject GoesOn
  cases subscribed : subscribesAt planner queryType
      (addExpressionToRedPath context.lastRedpathPrefix expression) with
  | true =>
    constructor
    · intro impossible
      exact absurd impossible (subscribeToNode_hasObject planner _ state)
    · rintro ⟨⟨impossible, -⟩, -⟩
      cases impossible
  | false =>
    simp only [Bool.false_eq_true, if_false, bind, StateT.bind, onWorld]
    rcases planner.isQueryExecutionCancelled state.world with ⟨_ | _, after⟩
    · simp only [isPredicate, true_and]
      exact executeSinglePredicate_hasObject planner _ _
    · constructor
      · intro impossible
        exact absurd impossible (hasObject_error _)
      · rintro ⟨⟨-, impossible⟩, -⟩
        cases impossible

def MemberTurn.HasObject : MemberTurn Object Iterable -> Prop
  | .push response => response.redfishObject.isSome = true
  | _ => False

/-- The loop over one member answers with what its turn pushes. -/
lemma executeMembers_one (params : GetParams) (newPredicate : Text) (iterable : Iterable)
    (state : ExecutionState World) :
    HasObject (executeMembers planner queryType expression context params newPredicate iterable
        [0] state).1 ↔
      (executeMember planner queryType expression context params newPredicate iterable 0
        state).1.HasObject := by
  unfold executeMembers
  simp only [bind, StateT.bind]
  rcases executeMember planner queryType expression context params newPredicate iterable 0 state
    with ⟨_ | response | failure, after⟩
  · exact ⟨fun impossible => absurd impossible hasObject_nil, False.elim⟩
  · constructor
    · rintro ⟨responses, found, object, answered, member, holds⟩
      cases answered
      rw [mem_singleton.mp member] at holds
      exact isSome_iff_exists.mpr ⟨object, holds⟩
    · intro present
      rcases isSome_iff_exists.mp present with ⟨found, isFound⟩
      exact ⟨_, response, found, rfl, mem_singleton.mpr rfl, isFound⟩
  · exact ⟨fun impossible => absurd impossible (hasObject_error failure), False.elim⟩

variable {newPredicate : Text} {iterable : Iterable}

lemma selectMember_hasObject (single : planner.views.size iterable = 1)
    (goes : subscribesAt planner queryType
      (addExpressionToRedPath context.lastRedpathPrefix expression) = false)
    (member : Object) (state : ExecutionState World) :
    (selectMember planner queryType expression context newPredicate iterable 0 member
        state).1.HasObject ↔ IsTrueOf planner newPredicate member := by
  unfold selectMember
  rw [goes, single, <- executePredicateExpression_iff planner newPredicate context.redfishResponse]
  cases executePredicateExpression planner newPredicate 0 1 context.redfishResponse member with
  | error failure => exact ⟨False.elim, fun impossible => by cases impossible⟩
  | ok selected =>
    cases selected with
    | true => exact ⟨fun _ => rfl, fun _ => rfl⟩
    | false => exact ⟨False.elim, fun impossible => by cases impossible⟩

lemma selectMember_subscribed (halts : subscribesAt planner queryType
      (addExpressionToRedPath context.lastRedpathPrefix expression) = true)
    (member : Object) (state : ExecutionState World) :
    ¬ (selectMember planner queryType expression context newPredicate iterable 0 member
        state).1.HasObject := by
  unfold selectMember
  rw [halts]
  simp only [if_true, bind, StateT.bind, onWorld]
  rcases planner.views.getNodeValue member propertyOdataId state.world with ⟨_ | uri, after⟩
  · exact id
  · exact id

/-- A member that cannot be fetched is not selected. -/
lemma failMember_hasObject (nodeIndex : Nat) (errorStatus : Status) (state : ExecutionState World) :
    ¬ (failMember planner expression context nodeIndex errorStatus state).1.HasObject := by
  unfold failMember
  rcases statusAtResource (getChildUriFromIterable planner.views context.redfishResponse nodeIndex)
    errorStatus with located | what
  · simp only
    split_ifs
    · exact id
    · exact id
    · exact id
  · exact id

/-- The only member: the resource itself, which is had without an error. -/
structure OnlyMember (planner : QueryPlanner World Object Iterable) (iterable : Iterable)
    (object : Object) (before after : World) : Prop where
  single : planner.views.size iterable = 1
  had : ∃ variant : RedfishVariant Object Iterable,
    planner.views.index iterable 0 before = (variant, after) ∧ variant.status.isOk = true ∧
      variant.object = some object

lemma fetched_iff {params : GetParams} {variant : RedfishVariant Object Iterable}
    (fine : variant.status.isOk = true) (holds : variant.object = some object) (world : World)
    (member : Object) :
    (getRedfishObjectWithFreshness planner params variant false world).1 = .ok (some member) ↔
      IsMemberFor planner object params world member := by
  unfold getRedfishObjectWithFreshness IsMemberFor
  simp only [Bool.false_eq_true, if_false, fine, Bool.not_true, holds]
  by_cases required : params.freshness = .required
  · rw [if_neg (not_not.mpr required), if_pos required]
    simp only [bind, StateT.bind]
    rcases planner.views.ensureFreshPayload object { timeoutManager := params.timeoutManager }
      world with ⟨status | refreshed, after⟩
    · constructor
      · intro impossible
        cases impossible
      · intro impossible
        cases impossible
    · exact .rfl
  · rw [if_pos required, if_neg required]
    constructor
    · intro same
      exact (some.inj (Except.ok.inj same)).symm
    · intro same
      rw [same]
      rfl

variable {state : ExecutionState World} {world : World}

lemma executeMember_hasObject {params : GetParams}
    (only : OnlyMember planner iterable object state.world world) :
    (executeMember planner queryType expression context params newPredicate iterable 0
        state).1.HasObject ↔
      GoesOn planner queryType expression context world ∧
        ∃ member, IsMemberFor planner object params
            (planner.isQueryExecutionCancelled world).2 member ∧
          IsTrueOf planner newPredicate member := by
  rcases only.had with ⟨variant, had, fine, holds⟩
  unfold executeMember GoesOn
  simp only [bind, StateT.bind, onWorld, had]
  rcases planner.isQueryExecutionCancelled world with ⟨_ | _, after⟩
  · simp only [<- fetched_iff planner fine holds]
    rcases getRedfishObjectWithFreshness planner params variant false after with
      ⟨status | _ | member, later⟩
    · constructor
      · intro impossible
        simp only at impossible
        by_cases isCancelled : status.code = .cancelled
        · rw [if_pos isCancelled] at impossible
          cases impossible
        · rw [if_neg isCancelled] at impossible
          exact absurd impossible (failMember_hasObject planner 0 _ _)
      · rintro ⟨-, member, impossible, -⟩
        cases impossible
    · constructor
      · exact False.elim
      · rintro ⟨-, member, impossible, -⟩
        cases impossible
    · cases halts : subscribesAt planner queryType
          (addExpressionToRedPath context.lastRedpathPrefix expression) with
      | true =>
        constructor
        · intro impossible
          exact absurd impossible (selectMember_subscribed planner halts member _)
        · rintro ⟨⟨impossible, -⟩, -⟩
          cases impossible
      | false =>
        constructor
        · intro selected
          exact ⟨⟨rfl, trivial⟩, member, rfl,
            (selectMember_hasObject planner only.single halts member _).mp selected⟩
        · rintro ⟨-, other, same, isTrue⟩
          cases same
          exact (selectMember_hasObject planner only.single halts member _).mpr isTrue
  · -- A cancelled query pushes a context without a resource.
    constructor
    · intro impossible
      cases impossible
    · rintro ⟨⟨-, impossible⟩, -⟩
      cases impossible

lemma collection_hasObject (substitutes : ∀ newPredicate,
      planner.substituteVariables expression.expression queryVariables = .ok newPredicate ↔
        Predicates.substituteVariables expression.expression queryVariables = .ok newPredicate)
    (isPredicate : expression.type = .predicate)
    (holdsIterable : context.redfishResponse.redfishIterable = some iterable)
    (only : OnlyMember planner iterable object state.world world) :
    HasObject (executeForResponses planner queryType expression context queryVariables
        (some interface) state).1 ↔
      GoesOn planner queryType expression context world ∧
        SelectedAsMember planner queryVariables expression.expression object
          (getQueryParamsForRedPath planner
            (addExpressionToRedPath context.lastRedpathPrefix expression))
          (planner.isQueryExecutionCancelled world).2 := by
  have members : membersFor context.redfishResponse expression = some iterable := by
    rw [membersFor, if_pos isPredicate, holdsIterable]
  unfold executeForResponses
  simp only [members]
  cases substituted : planner.substituteVariables expression.expression queryVariables with
  | ok newPredicate =>
    have known := (substitutes newPredicate).mp substituted
    simp only [only.single]
    rw [show List.range 1 = [0] from rfl, executeMembers_one, executeMember_hasObject planner only]
    constructor
    · rintro ⟨goes, member, isMember, isTrue⟩
      exact ⟨goes, newPredicate, member, known, isMember, isTrue⟩
    · rintro ⟨goes, other, member, same, isMember, isTrue⟩
      rw [known] at same
      cases same
      exact ⟨goes, member, isMember, isTrue⟩
  | error status =>
    constructor
    · exact fun impossible => absurd impossible (hasObject_error _)
    · rintro ⟨-, other, member, same, -⟩
      rw [(substitutes other).mpr same] at substituted
      cases substituted

end

/-- The planner substitutes variables as `SubstituteVariables` does. -/
def SubstitutesVariables : Prop :=
  ∀ predicate queryVariables newPredicate,
    planner.substituteVariables predicate queryVariables = .ok newPredicate ↔
      Predicates.substituteVariables predicate queryVariables = .ok newPredicate

/-- The two contexts: one holds the resource itself, the other an iterable. -/
structure HoldsEither (single members : QueryExecutionContext Object Iterable)
    (object : Object) (iterable : Iterable) : Prop where
  samePrefix : single.lastRedpathPrefix = members.lastRedpathPrefix
  object : single.redfishResponse.redfishObject = some object
  noIterable : single.redfishResponse.redfishIterable = none
  iterable : members.redfishResponse.redfishIterable = some iterable

end

/-- A predicate selects a single resource just when it selects it as the only member of a
collection, exactly if nothing is executed or both of these hold or none: the predicate as it is
written is true of the resource, which can be refreshed, and with its values it is true of the
member. -/
theorem single_agrees_iff {World Object Iterable : Type} :
    ∀ (planner : QueryPlanner World Object Iterable) (queryType : QueryType)
        (expression : RedPathExpression) (single members : QueryExecutionContext Object Iterable)
        (queryVariables : QueryVariables)
        (interface : Option (RedfishInterface World Object Iterable)) (object : Object)
        (iterable : Iterable) (state before : ExecutionState World) (params : GetParams)
        (cancelled : Bool) (after : World),
      SubstitutesVariables planner -> expression.type = .predicate ->
      HoldsEither single members object iterable ->
      OnlyMember planner iterable object before.world state.world ->
      params = getQueryParamsForRedPath planner
        (addExpressionToRedPath single.lastRedpathPrefix expression) ->
      planner.isQueryExecutionCancelled state.world = (cancelled, after) ->
      ((Selects (executeQueryExpression planner queryType expression single queryVariables
            interface state).1 ↔
          Selects (executeQueryExpression planner queryType expression members queryVariables
            interface before).1) ↔
        (interface = none ∨ cancelled = true ∨
          subscribesAt planner queryType
            (addExpressionToRedPath single.lastRedpathPrefix expression) = true ∨
          (SelectedAlone planner expression.expression object params after ↔
            SelectedAsMember planner queryVariables expression.expression object params
              after))) := by
  intro planner queryType expression single members queryVariables interface object iterable state
    before params cancelled after substitutes isPredicate either only isParams asked
  rw [executeQueryExpression_selects, executeQueryExpression_selects]
  cases interface with
  | none =>
    have neither (context : QueryExecutionContext Object Iterable)
        (start : ExecutionState World) :
        ¬ HasObject (executeForResponses planner queryType expression context queryVariables
          none start).1 := hasObject_error _
    exact ⟨fun _ => .inl rfl, fun _ => ⟨fun impossible => absurd impossible (neither _ _),
      fun impossible => absurd impossible (neither _ _)⟩⟩
  | some interface =>
    rw [single_hasObject planner isPredicate either.object either.noIterable,
      collection_hasObject planner (substitutes expression.expression queryVariables)
        isPredicate either.iterable only]
    rw [GoesOn, GoesOn, <- either.samePrefix, <- isParams, asked]
    cases subscribed : subscribesAt planner queryType
        (addExpressionToRedPath single.lastRedpathPrefix expression) with
    | true => simp
    | false =>
      cases cancelled with
      | true => simp
      | false => simp

/-- A fan, and a collection with the fan as its only member. -/
def kindTable : ServiceTable where
  root := .ofObject 0
  nodes := []
  members := [(1, [.ofObject 0])]
  contents := [(0, .object [(text "Kind", .string (text "fan"))])]

/-- The table with variables. -/
def kindPlanner : QueryPlanner Unit Nat Nat :=
  { tablePlanner kindTable [] (.mk [] []) .failOnFirstError with
    substituteVariables := fun predicate queryVariables =>
      match Predicates.substituteVariables predicate queryVariables with
      | .ok newPredicate => .ok newPredicate
      | .error (.status status) => .error status
      | .error (.exception what) => .error (.internal what) }

lemma kindPlanner_substitutesVariables : SubstitutesVariables kindPlanner := by
  intro predicate queryVariables newPredicate
  unfold kindPlanner
  simp only
  rcases Predicates.substituteVariables predicate queryVariables with (status | what) | other
  · simp
  · simp
  · simp

/-- A predicate below the root. -/
def kindExpression (predicate : Text) : RedPathExpression :=
  .mk .predicate predicate (.mk [] [])

def fanContext : QueryExecutionContext Nat Nat :=
  .start (.mk [] []) ⟨some 0, none, none⟩

def fansContext : QueryExecutionContext Nat Nat :=
  .start (.mk [] []) ⟨none, some 1, none⟩

lemma fan_onlyMember : OnlyMember kindPlanner 1 0 () () := ⟨rfl, .ofObject 0, rfl, rfl, rfl⟩

/-- Without a variable, the fan is selected in both contexts. -/
theorem single_agrees_fan :
    Selects (executeQueryExpression kindPlanner .polling (kindExpression (text "Kind=fan"))
        fanContext [] (some kindTable.interface) ⟨(), none, []⟩).1 ↔
      Selects (executeQueryExpression kindPlanner .polling (kindExpression (text "Kind=fan"))
        fansContext [] (some kindTable.interface) ⟨(), none, []⟩).1 := by
  have isTrue : IsTrueOf kindPlanner (text "Kind=fan") 0 := by
    rfl
  refine (single_agrees_iff kindPlanner .polling (kindExpression (text "Kind=fan")) fanContext
    fansContext [] (some kindTable.interface) 0 1 ⟨(), none, []⟩ ⟨(), none, []⟩ _ false ()
    kindPlanner_substitutesVariables rfl ⟨rfl, rfl, rfl, rfl⟩ fan_onlyMember rfl rfl).mpr
    (.inr (.inr (.inr ?_)))
  constructor
  · intro _
    exact ⟨text "Kind=fan", 0, rfl, rfl, isTrue⟩
  · intro _
    exact ⟨isTrue, 0, rfl⟩

/-- With a variable, the fan is selected in the collection only. -/
theorem single_ignores_variable :
    ¬ Selects (executeQueryExpression kindPlanner .polling (kindExpression (text "Kind=$k"))
        fanContext [(text "k", [text "fan"])] (some kindTable.interface) ⟨(), none, []⟩).1 ∧
      Selects (executeQueryExpression kindPlanner .polling (kindExpression (text "Kind=$k"))
        fansContext [(text "k", [text "fan"])] (some kindTable.interface) ⟨(), none, []⟩).1 := by
  constructor
  · have fails : ∃ failure, (executeQueryExpression kindPlanner .polling
        (kindExpression (text "Kind=$k")) fanContext [(text "k", [text "fan"])]
        (some kindTable.interface) ⟨(), none, []⟩).1 = .error failure := ⟨_, rfl⟩
    rcases fails with ⟨failure, fails⟩
    rintro ⟨contexts, context, object, answered, -⟩
    cases answered
  · exact ⟨_, _, 0, rfl, List.mem_singleton.mpr rfl, rfl⟩

end Ecclesia.Planner
