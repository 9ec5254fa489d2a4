import Ecclesia.Normalizer.Default
import Ecclesia.Query.Location

namespace Ecclesia.Normalizer

open Absl List
open Planner (kIdentifierTag propertyOdataId)

/-!
# What the default normaliser emits

The fields of a normalised data set can be read off the subquery and the payload: the
identifier and the URI annotation, if the resource gives rise to them, and under every
other name the value of the last property with this name that the resource has.  The
kind of a value follows from the type of its property.
-/

/-- Whether a value has the kind that belongs to a type. -/
def hasType : PrimitiveType -> QueryValue -> Bool
  | .string, .string _ | .boolean, .bool _ | .int64, .int _ | .double, .double _ => true
  | .dateTimeOffset, .timestamp _ _ => true
  | _, _ => false

variable {value : QueryValue} {content : Json}

section

variable (library : ValueLibrary)

lemma timestampValue_hasType {value : Text} (set : isSet (timestampValue library value) = true) :
    hasType .dateTimeOffset (timestampValue library value) = true := by
  unfold timestampValue at set ⊢
  cases parsed : library.parseTime value with
  | none =>
    rw [parsed] at set
    cases set
  | some time =>
    rw [parsed] at set
    cases converted : abslTimeToProtoTime time with
    | error status =>
      simp only [converted] at set
      cases set
    | ok stamp =>
      simp only [converted]
      rfl

lemma primitiveValue_hasType {type : PrimitiveType} {json : Json}
    (set : isSet (primitiveValue library type json) = true) :
    hasType type (primitiveValue library type json) = true := by
  cases type <;> cases json <;> first
    | rfl
    | exact timestampValue_hasType library set
    | cases set

/-- The resource has an explicit null value at the node of a property. -/
def isNullNode (content : Json) (property : RedfishProperty) : Bool :=
  match PathUtil.resolveRedPathNodeToJson content property.property with
  | .ok .null => true
  | _ => false

/-- What kind of value a property with a given node has. -/
inductive KindOf (property : RedfishProperty) (nullNode : Bool) : QueryValue -> Prop where
  | collection {values : List QueryValue}
      (isCollection : property.propertyElementType = .collectionPrimitive)
      (nonempty : values ≠ [])
      (typed : ∀ value ∈ values, hasType property.type value = true) :
      KindOf property nullNode (.list values)
  | null (single : property.propertyElementType ≠ .collectionPrimitive)
      (isNull : nullNode = true) : KindOf property nullNode .null
  | primitive {value : QueryValue} (single : property.propertyElementType ≠ .collectionPrimitive)
      (notNull : nullNode = false) (typed : hasType property.type value = true) :
      KindOf property nullNode value

lemma getCollectionPropertyFromRedfishObject_kind {property : RedfishProperty} {json : Json}
    {nullNode : Bool} (isCollection : property.propertyElementType = .collectionPrimitive)
    (got : getCollectionPropertyFromRedfishObject library property json = .ok value)
    (set : isSet value = true) : KindOf property nullNode value := by
  unfold getCollectionPropertyFromRedfishObject at got
  split at got
  · split at got
    · cases got
      rename_i elements allTyped
      cases listed : (elements.map (primitiveValue library property.type)).filter isSet with
      | nil =>
        rw [listed] at set
        cases set
      | cons first others =>
        apply KindOf.collection isCollection (cons_ne_nil first others)
        intro value member
        rw [<- listed] at member
        rcases mem_filter.mp member with ⟨converted, setValue⟩
        rcases mem_map.mp converted with ⟨element, -, rfl⟩
        exact primitiveValue_hasType library setValue
    · cases got
  · cases got

/-- The kind of a value is determined by its property, and by whether it is null in the resource. -/
lemma getPropertyFromRedfishObject_kind {property : RedfishProperty}
    (got : getPropertyFromRedfishObject library content property = .ok value) :
    KindOf property (isNullNode content property) value := by
  unfold getPropertyFromRedfishObject at got
  cases resolved : PathUtil.resolveRedPathNodeToJson content property.property with
  | error failure =>
    rw [resolved] at got
    cases got
  | ok json =>
    rw [resolved] at got
    cases found : nodeValue library property json with
    | error failure =>
      simp only [bind, Except.bind, found] at got
      cases got
    | ok present =>
      simp only [bind, Except.bind, found] at got
      split at got
      · cases got
        rename_i set
        unfold nodeValue at found
        split at found
        · rename_i isCollection
          split at found
          · cases found
          · exact getCollectionPropertyFromRedfishObject_kind library isCollection found set
        · rename_i single
          split at found
          · rename_i isNull
            split at found
            · cases found
              apply KindOf.null single
              cases json with
              | null => rw [isNullNode, resolved]
              | _ => cases isNull
            · cases found
          · rename_i notNull
            split at found
            · cases found
              apply KindOf.primitive single _ (primitiveValue_hasType library set)
              cases json with
              | null => exact absurd rfl notNull
              | _ => rw [isNullNode, resolved]
            · cases found
      · cases got

variable (content : Json)

/-- Whether a value can be had for a property. -/
def yields (property : RedfishProperty) : Bool :=
  (getPropertyFromRedfishObject library content property).isOk

variable {State : Type} (store : RedfishProperty -> QueryValue -> State -> State)

/-- A round of a loop that does not fail. -/
def absorb (state : State) (property : RedfishProperty) : State :=
  match getPropertyFromRedfishObject library content property with
  | .ok value => store property value state
  | .error _ => state

variable {property : RedfishProperty}

lemma withProperty_absorbs {state after : State}
    (stepped : withProperty library content store state property = .ok after) :
    after = absorb library content store state property := by
  unfold withProperty at stepped
  unfold absorb
  cases got : getPropertyFromRedfishObject library content property with
  | ok value =>
    rw [got] at stepped
    cases stepped
    rfl
  | error failure =>
    rw [got] at stepped
    cases failure with
    | status status =>
      simp only at stepped
      split at stepped
      · cases stepped
      · cases stepped
        rfl
    | exception what => cases stepped

variable {properties : List RedfishProperty}

lemma foldlM_withProperty {state after : State}
    (looped : properties.foldlM (withProperty library content store) state = .ok after) :
    after = properties.foldl (absorb library content store) state := by
  induction properties generalizing state with
  | nil =>
    cases looped
    rfl
  | cons property rest ih =>
    rw [foldlM_cons] at looped
    cases stepped : withProperty library content store state property with
    | error failure =>
      rw [stepped] at looped
      cases looped
    | ok next =>
      rw [stepped] at looped
      rw [foldl_cons, <- withProperty_absorbs library content store stepped]
      exact ih looped

/-- The property whose value is stored under a name: the last one with a value. -/
def provider (properties : List RedfishProperty) (key : Text) : Option RedfishProperty :=
  properties.reverse.find? fun property =>
    emittedName property == key && yields library content property

lemma provider_cons (property : RedfishProperty) (rest : List RedfishProperty) (key : Text) :
    provider library content (property :: rest) key =
      (provider library content rest key).or
        (if emittedName property == key && yields library content property then some property
          else none) := by
  rw [provider, provider, reverse_cons, find?_append, find?_singleton]

lemma provider_yields {key : Text}
    (provided : provider library content properties key = some property) :
    ∃ value, getPropertyFromRedfishObject library content property = .ok value := by
  have holds := find?_some provided
  have yielded := (Bool.and_eq_true_iff.mp holds).2
  unfold yields at yielded
  cases got : getPropertyFromRedfishObject library content property with
  | ok value => exact ⟨value, rfl⟩
  | error failure =>
    rw [got] at yielded
    cases yielded

/-- The value stored under a name by the properties of a subquery. -/
def providedValue (properties : List RedfishProperty) (key : Text) : Option QueryValue :=
  (provider library content properties key).bind fun property =>
    (getPropertyFromRedfishObject library content property).toOption

lemma foldl_storeProperty (properties : List RedfishProperty) (fields : QueryResultData)
    (key : Text) :
    (properties.foldl (absorb library content storeProperty) fields).lookup key =
      (providedValue library content properties key).or (fields.lookup key) := by
  induction properties generalizing fields with
  | nil => rfl
  | cons property rest ih =>
    rw [foldl_cons, ih, providedValue, providedValue, provider_cons]
    cases provided : provider library content rest key with
    | some later =>
      rcases provider_yields library content provided with ⟨value, got⟩
      simp [got, Except.toOption]
    | none =>
      unfold absorb yields
      cases got : getPropertyFromRedfishObject library content property with
      | error failure => simp [Except.isOk, Except.toBool]
      | ok value =>
        simp only [storeProperty, lookup_setField]
        by_cases named : emittedName property = key
        · simp [named, Except.isOk, Except.toBool, got, Except.toOption]
        · simp [named, Ne.symm named]

variable {fields : QueryResultData}

lemma nodup_foldl_storeProperty (properties : List RedfishProperty)
    (distinct : (fields.map Prod.fst).Nodup) :
    ((properties.foldl (absorb library content storeProperty) fields).map Prod.fst).Nodup := by
  induction properties generalizing fields with
  | nil => exact distinct
  | cons property rest ih =>
    apply ih
    unfold absorb
    split
    · exact nodup_setField _ _ distinct
    · exact distinct

/-- The names of additional properties. -/
def identifierNames : List Text :=
  [kServiceLabel, kPartLocationContext, kLocalDevpath, kEmbeddedLocationContext]

lemma storeInIdentifier_ne_empty (known : property.name ∈ identifierNames) (value : QueryValue)
    (identifier : Identifier) : storeInIdentifier property value identifier ≠ .empty := by
  unfold storeInIdentifier
  split_ifs with label context devpath embedded
  · simp [Identifier.empty]
  · simp [Identifier.empty]
  · simp [Identifier.empty]
  · simp [Identifier.empty]
  · simp only [identifierNames, mem_cons, not_mem_nil, or_false] at known
    rcases known with found | found | found | found
    · exact absurd found label
    · exact absurd found context
    · exact absurd found devpath
    · exact absurd found embedded

lemma foldl_storeInIdentifier (known : ∀ property ∈ properties, property.name ∈ identifierNames)
    (start : Identifier) :
    properties.foldl (absorb library content storeInIdentifier) start ≠ .empty ↔
      start ≠ .empty ∨ ∃ property ∈ properties, yields library content property = true := by
  induction properties generalizing start with
  | nil => simp
  | cons property rest ih =>
    rw [foldl_cons, ih fun other member => known other (.tail _ member)]
    unfold absorb yields
    cases got : getPropertyFromRedfishObject library content property with
    | ok value =>
      have stored := storeInIdentifier_ne_empty (known property (.head _)) value start
      simp [stored, got, Except.isOk, Except.toBool]
    | error failure => simp [got, Except.isOk, Except.toBool]

lemma getAdditionalProperties_name
    (member : property ∈ getAdditionalProperties) : property.name ∈ identifierNames := by
  have all : getAdditionalProperties.all (fun property => property.name ∈ identifierNames) = true :=
    rfl
  exact of_decide_eq_true (all_eq_true.mp all property member)

/-- The data set of a resource gets an identifier if it is a chassis, or a part of its location is
known. -/
def isIdentified (resourceType : Text) : Bool :=
  strContains resourceType (text "#Chassis.") ||
    getAdditionalProperties.any (yields library content)

/-- Whether the data set of a resource gets a URI annotation. -/
def isAnnotated (urlAnnotationEnabled : Bool) : Bool :=
  urlAnnotationEnabled && content.contains propertyOdataId

lemma addIdentifier_identifies {resourceType : Text} {after : QueryResultData}
    (unidentified : (fields.lookup kIdentifierTag).bind QueryValue.identifier? = none)
    (added : addIdentifier library content resourceType fields = .ok after) :
    (isIdentified library content resourceType = true ∧ ∃ identifier,
        after = setField kIdentifierTag (.identifier identifier) fields) ∨
      (isIdentified library content resourceType = false ∧ after = fields) := by
  unfold addIdentifier at added
  rw [unidentified] at added
  simp only [Option.getD_none] at added
  cases looped : getAdditionalProperties.foldlM (withProperty library content storeInIdentifier)
      (if isRootChassis resourceType .empty then { Identifier.empty with isRoot := some true }
        else .empty) with
  | error failure =>
    rw [looped] at added
    cases added
  | ok identifier =>
    rw [looped] at added
    have collected := foldl_storeInIdentifier library content
      (fun property => getAdditionalProperties_name) (if isRootChassis resourceType .empty
        then { Identifier.empty with isRoot := some true } else .empty)
    rw [<- foldlM_withProperty library content storeInIdentifier looped] at collected
    have started : (if isRootChassis resourceType .empty
        then { Identifier.empty with isRoot := some true } else Identifier.empty) ≠ .empty ↔
        strContains resourceType (text "#Chassis.") = true := by
      have chassis : isRootChassis resourceType .empty =
          strContains resourceType (text "#Chassis.") := by
        simp [isRootChassis, mutableRedfishLocation, Identifier.empty]
      rw [chassis]
      cases strContains resourceType (text "#Chassis.") with
      | true => simp [Identifier.empty]
      | false => simp
    rw [started, <- any_eq_true, <- Bool.or_eq_true] at collected
    change (if identifier = .empty then Except.ok fields
      else Except.ok (setField kIdentifierTag (.identifier identifier) fields)) = .ok after at added
    by_cases empty : identifier = .empty
    · rw [if_pos empty] at added
      cases added
      exact .inr ⟨Bool.eq_false_iff.mpr fun identified => collected.mpr identified empty, rfl⟩
    · rw [if_neg empty] at added
      cases added
      exact .inl ⟨collected.mp empty, identifier, rfl⟩

lemma annotateUri_annotates {urlAnnotationEnabled : Bool} {after : QueryResultData}
    (added : annotateUri content urlAnnotationEnabled fields = .ok after) :
    (isAnnotated content urlAnnotationEnabled = true ∧ ∃ uri,
        after = setField kUriAnnotationTag (.string uri) fields) ∨
      (isAnnotated content urlAnnotationEnabled = false ∧ after = fields) := by
  unfold annotateUri at added
  cases urlAnnotationEnabled with
  | false =>
    cases added
    exact .inr ⟨rfl, rfl⟩
  | true =>
    unfold isAnnotated Json.contains
    cases found : content.find propertyOdataId with
    | none =>
      rw [found] at added
      cases added
      exact .inr ⟨rfl, rfl⟩
    | some member =>
      rw [found] at added
      cases got : member.getString with
      | error failure =>
        simp only [got] at added
        cases added
      | ok uri =>
        simp only [got] at added
        cases added
        exact .inl ⟨rfl, uri, rfl⟩

end

variable {World Object Iterable : Type} (library : ValueLibrary)
  (views : RedfishViews World Object Iterable)

def resourceTypeOf (object : Object) (world : World) : Text :=
  (views.getNodeValue object (text "@odata.type") world).1.getD []

/-- The fields of a data set, as the subquery and the resource determine them. -/
structure Emitted (object : Object) (world : World) (subquery : Subquery)
    (urlAnnotationEnabled : Bool) (fields : QueryResultData) : Prop where
  distinct : (fields.map Prod.fst).Nodup
  uri : isAnnotated (views.getContentAsJson object) urlAnnotationEnabled = true ->
    ∃ uri, fields.lookup kUriAnnotationTag = some (.string uri)
  identifier : isIdentified library (views.getContentAsJson object)
      (resourceTypeOf views object world) = true ->
    ∃ identifier, fields.lookup kIdentifierTag = some (.identifier identifier)
  properties : ∀ key,
    (key = kUriAnnotationTag ->
      isAnnotated (views.getContentAsJson object) urlAnnotationEnabled = false) ->
    (key = kIdentifierTag -> isIdentified library (views.getContentAsJson object)
      (resourceTypeOf views object world) = false) ->
    fields.lookup key =
      providedValue library (views.getContentAsJson object) subquery.properties key

lemma providedValue_kind {properties : List RedfishProperty} {key : Text}
    (provided : providedValue library content properties key = some value) :
    ∃ property, provider library content properties key = some property ∧
      KindOf property (isNullNode content property) value := by
  rcases Option.bind_eq_some_iff.mp provided with ⟨property, isProvider, converted⟩
  refine ⟨property, isProvider, ?_⟩
  rcases provider_yields library content isProvider with ⟨present, got⟩
  rw [got] at converted
  cases converted
  exact getPropertyFromRedfishObject_kind library got

lemma providedValue_identifier (content : Json) (properties : List RedfishProperty) (key : Text) :
    (providedValue library content properties key).bind QueryValue.identifier? = none := by
  cases provided : providedValue library content properties key with
  | none => rfl
  | some value =>
    rcases providedValue_kind library provided with ⟨property, -, kind⟩
    cases kind with
    | collection isCollection nonempty typed => rfl
    | null single isNull => rfl
    | primitive single notNull typed =>
      cases value with
      | identifier identifier =>
        cases type : property.type <;> rw [type] at typed <;> cases typed
      | _ => rfl

lemma addIdentifier_emits {resourceType : Text}
    {own identified : QueryResultData} (distinct : (own.map Prod.fst).Nodup)
    (unidentified : (own.lookup kIdentifierTag).bind QueryValue.identifier? = none)
    (identifies : addIdentifier library content resourceType own = .ok identified) :
    (identified.map Prod.fst).Nodup ∧
      (isIdentified library content resourceType = true ->
        ∃ identifier, identified.lookup kIdentifierTag = some (.identifier identifier)) ∧
      ∀ key, (key = kIdentifierTag -> isIdentified library content resourceType = false) ->
        identified.lookup key = own.lookup key := by
  rcases addIdentifier_identifies library _ unidentified identifies with
    ⟨isId, identifier, rfl⟩ | ⟨notId, rfl⟩
  · refine ⟨nodup_setField _ _ distinct, fun _ => ⟨identifier, ?_⟩, ?_⟩
    · rw [lookup_setField, if_pos rfl]
    · intro key other
      have differs : key ≠ kIdentifierTag := by
        intro same
        rw [other same] at isId
        cases isId
      rw [lookup_setField, if_neg differs]
  · refine ⟨distinct, fun isId => ?_, fun key _ => rfl⟩
    rw [notId] at isId
    cases isId

/-- The data set of a resource has just the fields that the subquery and the resource
determine. -/
lemma normalize_emits {object : Object} {world : World} {subquery : Subquery}
    {urlAnnotationEnabled : Bool} {fields : QueryResultData}
    (normalized : (normalize library views object subquery [] urlAnnotationEnabled world).1 =
      .ok fields) : Emitted library views object world subquery urlAnnotationEnabled fields := by
  unfold normalize at normalized
  cases looped : subquery.properties.foldlM
      (withProperty library (views.getContentAsJson object) storeProperty) [] with
  | error failure =>
    simp only [looped] at normalized
    cases normalized
  | ok own =>
    simp only [looped] at normalized
    have stored := foldlM_withProperty library _ storeProperty looped
    have reads : ∀ key, own.lookup key = providedValue library
        (views.getContentAsJson object) subquery.properties key := by
      intro key
      rw [stored, foldl_storeProperty, lookup_nil, Option.or_none]
    have distinctOwn : (own.map Prod.fst).Nodup := by
      rw [stored]
      exact nodup_foldl_storeProperty library _ _ nodup_nil
    change (addIdentifier library (views.getContentAsJson object)
      (resourceTypeOf views object world) own >>= fun identified =>
        annotateUri (views.getContentAsJson object) urlAnnotationEnabled identified) =
      .ok fields at normalized
    cases identifies : addIdentifier library (views.getContentAsJson object)
        (resourceTypeOf views object world) own with
    | error failure =>
      rw [identifies] at normalized
      cases normalized
    | ok identified =>
      rw [identifies] at normalized
      have unidentified : (own.lookup kIdentifierTag).bind QueryValue.identifier? = none := by
        rw [reads]
        exact providedValue_identifier library _ _ _
      have apart : kIdentifierTag ≠ kUriAnnotationTag := by decide
      rcases addIdentifier_emits library distinctOwn unidentified identifies with
        ⟨distinct, holdsIdentifier, others⟩
      rcases annotateUri_annotates _ normalized with ⟨annotated, uri, rfl⟩ | ⟨plain, rfl⟩
      · refine ⟨nodup_setField _ _ distinct, fun _ => ⟨uri, ?_⟩, ?_, ?_⟩
        · rw [lookup_setField, if_pos rfl]
        · intro isId
          rw [lookup_setField]
          exact holdsIdentifier isId
        · intro key notUri notIdentifier
          have differs : key ≠ kUriAnnotationTag := by
            intro same
            rw [notUri same] at annotated
            cases annotated
          rw [lookup_setField, if_neg differs, others key notIdentifier, reads]
      · refine ⟨distinct, fun annotated => ?_, holdsIdentifier, ?_⟩
        · rw [plain] at annotated
          cases annotated
        · intro key _ notIdentifier
          rw [others key notIdentifier, reads]

end Ecclesia.Normalizer
