import Ecclesia.Normalizer.DataSet
import Ecclesia.Planner.Table

namespace Ecclesia.Normalizer

open Absl List
open PathUtil (processNodeName resolveRedPathNodeToJson)
open Planner (propertyOdataId)

/-!
# Conversions that throw

The JSON library throws when a value is read as a value of another type.  Both normalisers
test the type of a value before they read it, with one exception each: the one for query
results reads the URI of a resource untested, and the one for data sets the elements of an
array.
-/

variable {World Object Iterable : Type}

/-! ## Loops with a failure for each item -/

section

variable {State Item Error : Type} {round : State -> Item -> Except Error State}
  {refusal : Item -> Option Error}

lemma foldlM_refusal (refuses : ∀ state item error, round state item = .error error ↔
      refusal item = some error) (items : List Item) (error : Error) :
    ∀ state, items.foldlM round state = .error error ↔ items.findSome? refusal = some error := by
  induction items with
  | nil =>
    intro state
    constructor <;> intro impossible <;> cases impossible
  | cons item rest ih =>
    intro state
    rw [foldlM_cons, findSome?_cons]
    cases rounded : round state item with
    | error failure =>
      rw [(refuses state item failure).mp rounded]
      change Except.error failure = Except.error error ↔ some failure = some error
      rw [Except.error.injEq, Option.some_inj]
    | ok next =>
      cases refused : refusal item with
      | none => exact ih next
      | some failure =>
        rw [(refuses state item failure).mpr refused] at rounded
        cases rounded

lemma findSome?_eq_bind {refused : Item -> Bool} (items : List Item)
    (agrees : ∀ item ∈ items, (refusal item).isSome = refused item) :
    items.findSome? refusal = (items.find? refused).bind refusal := by
  induction items with
  | nil => rfl
  | cons item rest ih =>
    rw [forall_mem_cons] at agrees
    rw [findSome?_cons, find?_cons, <- agrees.1]
    cases refusedHere : refusal item with
    | none => exact ih agrees.2
    | some failure => exact refusedHere.symm

end

/-- A run that is not ended by an exception. -/
def Survives {Result : Type} (outcome : Evaluation Result) : Prop :=
  ∀ what, outcome ≠ .error (.exception what)

/-- A failure that ends a loop over properties. -/
def ends {Result : Type} : Evaluation Result -> Option Failure
  | .ok _ => none
  | .error (.status status) =>
    if status.code = .invalidArgument then some (.status status) else none
  | .error (.exception what) => some (.exception what)

/-! ## Paths without an index -/

def hasArrayIndex (path : Text) : Bool :=
  (PathUtil.splitNodeNameForNestedNodes path).any fun name =>
    endsWith name (text "]") && (PathUtil.splitNodeNameIfArrayType name).isSome

/-- An internal error, or no failure at all. -/
def OnlyInternal {Result : Type} (outcome : Evaluation Result) : Prop :=
  ∀ failure, outcome = .error failure -> ∃ message, failure = .status (.internal message)

lemma processNodeName_internal {name : Text} (value : Json)
    (plain : (endsWith name (text "]") && (PathUtil.splitNodeNameIfArrayType name).isSome) = false) :
    OnlyInternal (processNodeName name value) := by
  intro failure failed
  unfold processNodeName at failed
  have unindexed : (if endsWith name (text "]") then PathUtil.splitNodeNameIfArrayType name
      else none) = none := by
    cases bracket : endsWith name (text "]") with
    | false => simp
    | true =>
      rw [bracket, Bool.true_and, Option.isSome_eq_false_iff, Option.isNone_iff_eq_none] at plain
      rw [plain]
      rfl
  rw [unindexed] at failed
  dsimp only at failed
  cases found : value.find name with
  | none =>
    rw [found] at failed
    cases failed
    exact ⟨_, rfl⟩
  | some member =>
    rw [found] at failed
    cases failed

lemma foldlM_processNodeName_internal (names : List Text) (plain : ∀ name ∈ names,
      (endsWith name (text "]") && (PathUtil.splitNodeNameIfArrayType name).isSome) = false) :
    ∀ value : Json, OnlyInternal
      (names.foldlM (fun current name => processNodeName name current) value) := by
  induction names with
  | nil =>
    intro value failure failed
    cases failed
  | cons name rest ih =>
    rw [forall_mem_cons] at plain
    intro value failure failed
    rw [foldlM_cons] at failed
    cases stepped : processNodeName name value with
    | error first =>
      rw [stepped] at failed
      cases failed
      exact processNodeName_internal value plain.1 failure stepped
    | ok next =>
      rw [stepped] at failed
      exact ih plain.2 next failure failed

lemma resolveRedPathNodeToJson_internal {path : Text} (content : Json)
    (plain : hasArrayIndex path = false) :
    OnlyInternal (resolveRedPathNodeToJson content path) := by
  intro failure failed
  have names := any_eq_false.mp plain
  unfold resolveRedPathNodeToJson at failed
  cases split : PathUtil.splitNodeNameForNestedNodes path with
  | nil =>
    rw [split] at failed
    cases failed
    exact ⟨_, rfl⟩
  | cons first rest =>
    rw [split] at failed names
    have whole := foldlM_processNodeName_internal (first :: rest)
      (fun name member => Bool.not_eq_true _ ▸ names name member) content
    exact whole failure failed

variable {property : RedfishProperty}

lemma getAdditionalProperties_plain
    (member : property ∈ getAdditionalProperties) : hasArrayIndex property.property = false := by
  have all : getAdditionalProperties.all (fun property => !hasArrayIndex property.property) = true := by
    decide +kernel
  have plain := all_eq_true.mp all property member
  rwa [Bool.not_eq_true'] at plain

/-! ## The normaliser of query results -/

section

variable (library : ValueLibrary) (content : Json)

/-- The elements of an array have the type of the property, and one of them can be
converted. -/
def fitsCollection (type : PrimitiveType) : Json -> Bool
  | .array elements =>
    elements.all (isOfType type) &&
      elements.any fun element => isSet (primitiveValue library type element)
  | _ => false

/-- The value at the node of a property has another type than the property, or nothing of it
can be converted. -/
def isUnfit (property : RedfishProperty) : Bool :=
  match PathUtil.resolveRedPathNodeToJson content property.property with
  | .error _ => false
  | .ok json =>
    if property.propertyElementType = .collectionPrimitive then
      !json.isEmpty && !fitsCollection library property.type json
    else
      !json.isNull &&
        !(isOfType property.type json && isSet (primitiveValue library property.type json))

lemma isSet_listOf (values : List QueryValue) : isSet (listOf values) = !values.isEmpty := by
  cases values <;> rfl

lemma getCollectionPropertyFromRedfishObject_tests (property : RedfishProperty) (json : Json) :
    (∃ value, getCollectionPropertyFromRedfishObject library property json = .ok value ∧
        isSet value = fitsCollection library property.type json) ∨
      (fitsCollection library property.type json = false ∧ ∃ message,
        getCollectionPropertyFromRedfishObject library property json =
          .invalidArgument message) := by
  cases json with
  | array elements =>
    have fits : fitsCollection library property.type (.array elements) =
        (elements.all (isOfType property.type) && elements.any fun element =>
          isSet (primitiveValue library property.type element)) := rfl
    rw [fits]
    cases typed : elements.all (isOfType property.type) with
    | false => exact .inr ⟨Bool.false_and _, _, if_neg (by simp [typed])⟩
    | true =>
      refine .inl ⟨_, if_pos typed, ?_⟩
      rw [isSet_listOf, Bool.eq_iff_iff]
      simp
  | _ => exact .inr ⟨rfl, _, rfl⟩

lemma ends_getProperty (plain : hasArrayIndex property.property = false) :
    (isUnfit library content property = false ∧
        ends (getPropertyFromRedfishObject library content property) = none) ∨
      (isUnfit library content property = true ∧ ∃ status,
        ends (getPropertyFromRedfishObject library content property) = some (.status status)) := by
  unfold isUnfit getPropertyFromRedfishObject
  cases resolved : resolveRedPathNodeToJson content property.property with
  | error failure =>
    rcases resolveRedPathNodeToJson_internal content plain failure resolved with ⟨message, internal⟩
    subst internal
    exact .inl ⟨rfl, rfl⟩
  | ok json =>
    dsimp only [bind, Except.bind]
    unfold nodeValue
    by_cases isCollection : property.propertyElementType = .collectionPrimitive
    · rw [if_pos isCollection, if_pos isCollection]
      cases empty : json.isEmpty with
      | true => exact .inl ⟨rfl, rfl⟩
      | false =>
        rw [if_neg Bool.false_ne_true]
        rcases getCollectionPropertyFromRedfishObject_tests library property json with
          ⟨value, got, set⟩ | ⟨unfit, message, refused⟩
        · rw [got, <- set]
          dsimp only
          cases isSet value with
          | false => exact .inr ⟨rfl, _, rfl⟩
          | true => exact .inl ⟨rfl, rfl⟩
        · rw [unfit, refused]
          exact .inr ⟨rfl, _, rfl⟩
    · rw [if_neg isCollection, if_neg isCollection]
      cases null : json.isNull with
      | true =>
        cases property.nullable with
        | true => exact .inl ⟨rfl, rfl⟩
        | false => exact .inl ⟨rfl, rfl⟩
      | false =>
        rw [if_neg Bool.false_ne_true]
        cases typed : isOfType property.type json with
        | false => exact .inr ⟨rfl, _, rfl⟩
        | true =>
          rw [if_pos rfl]
          dsimp only
          cases set : isSet (primitiveValue library property.type json) with
          | false => exact .inr ⟨rfl, _, rfl⟩
          | true => exact .inl ⟨rfl, rfl⟩

section

variable {State : Type} (store : RedfishProperty -> QueryValue -> State -> State)

lemma withProperty_refuses (state : State) (property : RedfishProperty) (failure : Failure) :
    withProperty library content store state property = .error failure ↔
      ends (getPropertyFromRedfishObject library content property) = some failure := by
  unfold withProperty ends
  cases getPropertyFromRedfishObject library content property with
  | ok value =>
    constructor <;> intro impossible <;> cases impossible
  | error reason =>
    cases reason with
    | exception what =>
      rw [Except.error.injEq, Option.some_inj]
    | status status =>
      dsimp only
      split
      · rw [Except.error.injEq, Option.some_inj]
      · constructor <;> intro impossible <;> cases impossible

/-- A loop over properties without an index ends with a status, and does so exactly if a value
is unfit. -/
lemma foldlM_withProperty_tests (properties : List RedfishProperty)
    (plain : ∀ property ∈ properties, hasArrayIndex property.property = false) (state : State) :
    (properties.any (isUnfit library content) = false ∧ ∃ after,
        properties.foldlM (withProperty library content store) state = .ok after) ∨
      (properties.any (isUnfit library content) = true ∧ ∃ status,
        properties.foldlM (withProperty library content store) state =
          .error (.status status)) := by
  have first := foldlM_refusal (withProperty_refuses library content store) properties
  cases looped : properties.foldlM (withProperty library content store) state with
  | ok after =>
    refine .inl ⟨?_, after, rfl⟩
    rw [any_eq_false]
    intro property member
    rcases ends_getProperty library content (plain property member) with
      ⟨fit, _⟩ | ⟨_, status, ended⟩
    · rw [fit]
      exact Bool.false_ne_true
    · have refused : (properties.findSome? fun property =>
          ends (getPropertyFromRedfishObject library content property)).isSome = true :=
        findSome?_isSome_iff.mpr ⟨property, member, by rw [ended]; rfl⟩
      rcases Option.isSome_iff_exists.mp refused with ⟨failure, found⟩
      have failed := (first failure state).mpr found
      rw [looped] at failed
      cases failed
  | error failure =>
    rcases exists_of_findSome?_eq_some ((first failure state).mp looped) with
      ⟨property, member, ended⟩
    rcases ends_getProperty library content (plain property member) with
      ⟨_, passed⟩ | ⟨unfit, status, refused⟩
    · rw [passed] at ended
      cases ended
    · rw [refused] at ended
      cases ended
      exact .inr ⟨any_eq_true.mpr ⟨property, member, unfit⟩, status, rfl⟩

end

lemma addIdentifier_tests (resourceType : Text) (fields : QueryResultData) :
    (getAdditionalProperties.any (isUnfit library content) = false ∧ ∃ after,
        addIdentifier library content resourceType fields = .ok after) ∨
      (getAdditionalProperties.any (isUnfit library content) = true ∧ ∃ status,
        addIdentifier library content resourceType fields = .error (.status status)) := by
  unfold addIdentifier
  dsimp only
  rcases foldlM_withProperty_tests library content storeInIdentifier getAdditionalProperties
      (fun _ member => getAdditionalProperties_plain member) _ with
    ⟨fit, identifier, looped⟩ | ⟨unfit, status, looped⟩
  · rw [looped]
    refine .inl ⟨fit, ?_⟩
    dsimp only [bind, Except.bind]
    split
    · exact ⟨_, rfl⟩
    · exact ⟨_, rfl⟩
  · rw [looped]
    exact .inr ⟨unfit, status, rfl⟩

lemma annotateUri_survives_iff (urlAnnotationEnabled : Bool) (fields : QueryResultData) :
    Survives (annotateUri content urlAnnotationEnabled fields) ↔
      (urlAnnotationEnabled = true -> ∀ member, content.find propertyOdataId = some member ->
        member.isString = true) := by
  unfold annotateUri
  cases urlAnnotationEnabled with
  | false =>
    constructor
    · intro _ impossible
      cases impossible
    · intro _ what threw
      cases threw
  | true =>
    cases found : content.find propertyOdataId with
    | none =>
      constructor
      · intro _ _ member impossible
        cases impossible
      · intro _ what threw
        cases threw
    | some member =>
      cases member with
      | string uri =>
        constructor
        · intro _ _ member same
          cases same
          rfl
        · intro _ what threw
          cases threw
      | _ =>
        constructor
        · intro survives
          exact absurd rfl (survives (text "type_error.302"))
        · intro strings
          cases strings rfl _ rfl

variable (views : RedfishViews World Object Iterable)

lemma normalize_survives (object : Object) (subquery : Subquery)
    (plain : ∀ property ∈ subquery.properties, hasArrayIndex property.property = false)
    (dataSetLocal : QueryResultData) (urlAnnotationEnabled : Bool) (world : World) :
    Survives (normalize library views object subquery dataSetLocal urlAnnotationEnabled world).1 ↔
      (urlAnnotationEnabled = true -> ∀ member,
        (views.getContentAsJson object).find propertyOdataId = some member ->
        member.isString = false ->
        (subquery.properties ++ getAdditionalProperties).any
          (isUnfit library (views.getContentAsJson object)) = true) := by
  rw [any_append]
  unfold normalize
  rcases foldlM_withProperty_tests library (views.getContentAsJson object) storeProperty
      subquery.properties plain dataSetLocal with
    ⟨fit, fields, looped⟩ | ⟨unfit, status, looped⟩
  · rw [looped, fit]
    dsimp only [bind, StateT.bind]
    rcases views.getNodeValue object (text "@odata.type") world with ⟨resourceType, after⟩
    dsimp only [pure, StateT.pure]
    rcases addIdentifier_tests library (views.getContentAsJson object) (resourceType.getD [])
        fields with ⟨fit, identified, added⟩ | ⟨unfit, status, added⟩
    · rw [added, fit]
      dsimp only [Except.bind]
      rw [annotateUri_survives_iff]
      simp
    · rw [added, unfit]
      constructor
      · intro _ _ member _ _
        rfl
      · intro _ what threw
        cases threw
  · rw [looped, unfit]
    constructor
    · intro _ _ member _ _
      rfl
    · intro _ what threw
      cases threw

end

/-! ## The normaliser of data sets -/

namespace DataSet

variable (library : ValueLibrary) (content : Json)

/-- The value at the node of a property is found to have another type than the property. -/
def isRejected (property : RedfishProperty) : Bool :=
  match PathUtil.resolveRedPathNodeToJson content property.property with
  | .error _ => false
  | .ok json =>
    if property.propertyElementType = .collectionPrimitive then
      match json with
      | .array _ => false
      | _ => true
    else !json.isNull && !isOfType property.type json

/-- The value at the node of a collection is an array with an element of another type. -/
def isUnreadable (property : RedfishProperty) : Bool :=
  match PathUtil.resolveRedPathNodeToJson content property.property with
  | .error _ => false
  | .ok json =>
    property.propertyElementType == .collectionPrimitive &&
      property.type != .dateTimeOffset &&
      match json with
      | .array elements => !elements.all (isOfType property.type)
      | _ => false

lemma getAs_reads (type : PrimitiveType) (json : Json) :
    (isOfType type json = true ∧ ∃ value, getAs library type json = .ok value) ∨
      (isOfType type json = false ∧ ∃ what,
        getAs library type json = .error (.exception what)) := by
  cases type <;> cases json <;> first
    | exact .inl ⟨rfl, _, rfl⟩
    | exact .inr ⟨rfl, _, rfl⟩

lemma mapM_getAs_reads (type : PrimitiveType) (elements : List Json) :
    (elements.all (isOfType type) = true ∧ ∃ values,
        elements.mapM (getAs library type) = .ok values) ∨
      (elements.all (isOfType type) = false ∧ ∃ what,
        elements.mapM (getAs library type) = .error (.exception what)) := by
  induction elements with
  | nil => exact .inl ⟨rfl, _, rfl⟩
  | cons element rest ih =>
    rw [all_cons, mapM_cons]
    rcases getAs_reads library type element with ⟨typed, value, read⟩ | ⟨untyped, what, threw⟩
    · rw [typed, read]
      rcases ih with ⟨later, values, readAll⟩ | ⟨later, what, threw⟩
      · rw [later, readAll]
        exact .inl ⟨rfl, _, rfl⟩
      · rw [later, threw]
        exact .inr ⟨rfl, _, rfl⟩
    · rw [untyped, threw]
      exact .inr ⟨rfl, _, rfl⟩

/-- What the loop does at a property, by whether its value is rejected and whether it is unreadable.
-/
inductive Treatment : Bool -> Bool -> Option Failure -> Prop where
  | passed : Treatment false false none
  | rejected (unreadable : Bool) (status : Status) :
      Treatment true unreadable (some (.status status))
  | threw (what : Text) : Treatment false true (some (.exception what))

lemma Treatment.isSome {rejected unreadable : Bool} {failure : Option Failure}
    (treatment : Treatment rejected unreadable failure) :
    failure.isSome = (rejected || unreadable) := by
  cases treatment <;> rfl

lemma getCollectionPropertyFromRedfishObject_treatment (property : RedfishProperty)
    (elements : List Json) :
    Treatment false (property.type != .dateTimeOffset && !elements.all (isOfType property.type))
      (ends (getCollectionPropertyFromRedfishObject library property (.array elements))) := by
  have reads := mapM_getAs_reads library property.type elements
  unfold getCollectionPropertyFromRedfishObject
  cases typed : property.type with
  | dateTimeOffset => exact .passed
  | undefined =>
    have all : elements.all (isOfType .undefined) = true := by
      rw [all_eq_true]
      intro element _
      cases element <;> rfl
    rw [all]
    exact .passed
  | _ =>
    rw [typed] at reads
    rcases reads with ⟨all, values, read⟩ | ⟨some, what, threw⟩
    · rw [all]
      dsimp only
      rw [read]
      exact .passed
    · rw [some]
      dsimp only
      rw [threw]
      exact .threw what

lemma ends_getProperty (plain : hasArrayIndex property.property = false) :
    Treatment (isRejected content property) (isUnreadable content property)
      (ends (getPropertyFromRedfishObject library content property)) := by
  unfold isRejected isUnreadable getPropertyFromRedfishObject
  cases resolved : resolveRedPathNodeToJson content property.property with
  | error failure =>
    rcases resolveRedPathNodeToJson_internal content plain failure resolved with ⟨message, internal⟩
    subst internal
    exact .passed
  | ok json =>
    dsimp only [bind, Except.bind]
    by_cases isCollection : property.propertyElementType = .collectionPrimitive
    · rw [isCollection]
      cases json with
      | array elements =>
        exact getCollectionPropertyFromRedfishObject_treatment library property elements
      | _ => exact .rejected _ _
    · rw [if_neg isCollection, if_neg isCollection, beq_eq_false_iff_ne.mpr isCollection]
      cases null : json.isNull with
      | true => exact .passed
      | false =>
        rcases getAs_reads library property.type json with
          ⟨typed, value, read⟩ | ⟨untyped, what, threw⟩
        · rw [typed, read]
          exact .passed
        · rw [untyped]
          exact .rejected _ _

lemma withProperty_refuses (dataSet : SubqueryDataSet) (property : RedfishProperty)
    (failure : Failure) :
    withProperty library content dataSet property = .error failure ↔
      ends (getPropertyFromRedfishObject library content property) = some failure := by
  unfold withProperty ends
  cases getPropertyFromRedfishObject library content property with
  | ok value =>
    constructor <;> intro impossible <;> cases impossible
  | error reason =>
    cases reason with
    | exception what =>
      rw [Except.error.injEq, Option.some_inj]
    | status status =>
      dsimp only
      split
      · rw [Except.error.injEq, Option.some_inj]
      · constructor <;> intro impossible <;> cases impossible

/-- The loop throws exactly if the first property with a value of another type is not tested. -/
lemma foldlM_withProperty_survives (properties : List RedfishProperty)
    (plain : ∀ property ∈ properties, hasArrayIndex property.property = false)
    (dataSet : SubqueryDataSet) :
    Survives (properties.foldlM (withProperty library content) dataSet) ↔
      ∀ property, properties.find? (fun property =>
        isRejected content property || isUnreadable content property) = some property ->
          isRejected content property = true := by
  have treated := fun property member =>
    ends_getProperty library content (plain property member)
  have first := findSome?_eq_bind properties fun property member => (treated property member).isSome
  have refused := fun failure =>
    foldlM_refusal (withProperty_refuses library content) properties failure dataSet
  constructor
  · intro survives property found
    have treatment := treated property (mem_of_find?_eq_some found)
    rw [found] at first
    cases rejected : isRejected content property with
    | true => rfl
    | false =>
      have unreadable : isUnreadable content property = true := by
        have holds := find?_some found
        rwa [rejected] at holds
      rw [rejected, unreadable] at treatment
      cases ended : ends (getPropertyFromRedfishObject library content property) with
      | none =>
        rw [ended] at treatment
        cases treatment
      | some failure =>
        rw [ended] at treatment
        cases treatment with
        | threw what =>
          exact absurd ((refused _).mpr (first.trans ended)) (survives what)
  · intro tested what threw
    have ended := (refused _).mp threw
    rw [first, Option.bind_eq_some_iff] at ended
    rcases ended with ⟨property, found, ended⟩
    have treatment := treated property (mem_of_find?_eq_some found)
    rw [ended, tested property found] at treatment
    cases treatment

lemma foldlM_withAdditionalProperty (dataSet : SubqueryDataSet) :
    ∃ after, getAdditionalProperties.foldlM (withAdditionalProperty library content) dataSet =
      .ok after := by
  have single : ∀ property ∈ getAdditionalProperties,
      property.propertyElementType ≠ .collectionPrimitive := by
    have all : getAdditionalProperties.all (fun property =>
        property.propertyElementType != .collectionPrimitive) = true := rfl
    intro property member
    exact bne_iff_ne.mp (all_eq_true.mp all property member)
  have plain : ∀ property ∈ getAdditionalProperties, hasArrayIndex property.property = false :=
    fun _ member => getAdditionalProperties_plain member
  revert single plain
  generalize getAdditionalProperties = properties
  intro single plain
  induction properties generalizing dataSet with
  | nil => exact ⟨dataSet, rfl⟩
  | cons property rest ih =>
    rw [forall_mem_cons] at single plain
    rw [foldlM_cons]
    have unreadable : isUnreadable content property = false := by
      unfold isUnreadable
      split
      · rfl
      · rw [beq_eq_false_iff_ne.mpr single.1, Bool.false_and, Bool.false_and]
    have treatment := ends_getProperty library content plain.1
    rw [unreadable] at treatment
    unfold withAdditionalProperty
    cases got : getPropertyFromRedfishObject library content property with
    | ok value => exact ih _ single.2 plain.2
    | error failure =>
      cases failure with
      | status status => exact ih _ single.2 plain.2
      | exception what =>
        rw [got] at treatment
        generalize isRejected content property = rejected at treatment
        cases treatment

variable (views : RedfishViews World Object Iterable)

/-- The normaliser of data sets throws exactly if it gets to an array with an element of another
type. -/
lemma normalize_survives (object : Object) (subquery : Subquery)
    (plain : ∀ property ∈ subquery.properties, hasArrayIndex property.property = false)
    (dataSetLocal : SubqueryDataSet) (urlAnnotationEnabled : Bool) (world : World) :
    Survives (normalize library views object subquery dataSetLocal urlAnnotationEnabled world).1 ↔
      ∀ property, subquery.properties.find? (fun property =>
        isRejected (views.getContentAsJson object) property ||
          isUnreadable (views.getContentAsJson object) property) = some property ->
        isRejected (views.getContentAsJson object) property = true := by
  rw [<- foldlM_withProperty_survives library _ subquery.properties plain dataSetLocal]
  unfold normalize
  cases looped : subquery.properties.foldlM
      (withProperty library (views.getContentAsJson object)) dataSetLocal with
  | error failure =>
    constructor
    · intro survives what threw
      cases threw
      exact survives what rfl
    · intro survives what threw
      cases threw
      exact survives what rfl
  | ok own =>
    rcases foldlM_withAdditionalProperty library (views.getContentAsJson object) own with
      ⟨after, additional⟩
    dsimp only [bind, Except.bind]
    rw [additional]
    dsimp only
    constructor
    · intro _ what threw
      cases threw
    · intro _ what threw
      split at threw
      · cases threw
      · cases threw

end DataSet

/-! ## Both normalisers -/

/-- The normaliser of query results survives a payload exactly if it is not asked for the URI, or
the URI is a string or missing, or a value before it is refused; that of data sets, if the first
value of another type than its property is not an array behind a collection. -/
theorem normalizers_survive_iff :
    ∀ (library : ValueLibrary) (views : RedfishViews World Object Iterable) (object : Object)
        (subquery : Subquery) (fields : QueryResultData) (dataSet : DataSet.SubqueryDataSet)
        (urlAnnotationEnabled : Bool) (world : World),
      (∀ property ∈ subquery.properties, hasArrayIndex property.property = false) ->
      (Survives (normalize library views object subquery fields urlAnnotationEnabled world).1 ↔
        (urlAnnotationEnabled = true -> ∀ member,
          (views.getContentAsJson object).find propertyOdataId = some member ->
          member.isString = false ->
          (subquery.properties ++ getAdditionalProperties).any
            (isUnfit library (views.getContentAsJson object)) = true)) ∧
      (Survives
          (DataSet.normalize library views object subquery dataSet urlAnnotationEnabled world).1 ↔
        ∀ property, subquery.properties.find? (fun property =>
          DataSet.isRejected (views.getContentAsJson object) property ||
            DataSet.isUnreadable (views.getContentAsJson object) property) = some property ->
          DataSet.isRejected (views.getContentAsJson object) property = true) := by
  intro library views object subquery fields dataSet urlAnnotationEnabled world plain
  constructor
  · exact normalize_survives library views object subquery plain fields urlAnnotationEnabled world
  · exact DataSet.normalize_survives library views object subquery plain dataSet
      urlAnnotationEnabled world

/-! ## A number as a URI, and a mixed array -/

/-- A library for payloads whose numbers are small integers. -/
def numberLibrary : ValueLibrary where
  parseTime _ := none
  toDouble value := value
  toInt64 value := value.num
  dump _ := []

/-- A resource with a number as its URI and one with an array of a string and a number. -/
def mixedTable : Planner.ServiceTable where
  root := .ofObject 0
  nodes := []
  members := []
  contents := [(0, .object [(propertyOdataId, .integer 5)]),
    (1, .object [(text "Tags", .array [.string (text "a"), .integer 1])])]

/-- A subquery for the strings below "Tags". -/
def tagSubquery : Subquery :=
  { Subquery.empty with
    properties := [⟨text "Tags", [], [], .string, .collectionPrimitive, false⟩] }

/-- A data set without any values. -/
def DataSet.SubqueryDataSet.blank : DataSet.SubqueryDataSet :=
  ⟨none, [], none, none⟩

/-- Each normaliser survives the payload that the other one throws at. -/
theorem normalizers_survive_other :
    Survives (normalize numberLibrary mixedTable.views 1 tagSubquery [] true ()).1 ∧
      Survives (DataSet.normalize numberLibrary mixedTable.views 0 tagSubquery .blank true
        ()).1 := by
  have plain : ∀ property ∈ tagSubquery.properties, hasArrayIndex property.property = false := by
    intro property member
    cases List.mem_singleton.mp member
    rfl
  constructor
  · refine (normalizers_survive_iff numberLibrary mixedTable.views 1 tagSubquery [] .blank true ()
      plain).1.mpr ?_
    intro _ member impossible
    cases impossible
  · refine (normalizers_survive_iff numberLibrary mixedTable.views 0 tagSubquery [] .blank true ()
      plain).2.mpr ?_
    intro property impossible
    cases impossible

theorem normalizers_throw :
    (normalize numberLibrary mixedTable.views 0 .empty [] true ()).1 =
        .error (.exception (text "type_error.302")) ∧
      (DataSet.normalize numberLibrary mixedTable.views 1 tagSubquery .blank false ()).1 =
        .error (.exception (text "type_error.302")) := by
  exact ⟨rfl, rfl⟩

end Ecclesia.Normalizer
