import Ecclesia.Normalizer.MachineBarepath

namespace Ecclesia.Normalizer

open Absl List
open Planner (kIdentifierTag propertyOdataId)

/-!
# Root chassis

Whether a resource is a root chassis is asked twice: before its location is collected, when
the default normaliser sets a flag in the identifier, and afterwards, when a machine devpath is
looked up.
-/

section

variable (library : ValueLibrary) (content : Json)

/-- The text that is collected under a name of the location: the value of the last path that
has one. -/
def collectedText (name : Text) : Text :=
  ((providedValue library content getAdditionalProperties name).map stringValue).getD []

/-- A text of an identifier that only the properties with one name change. -/
structure StoredUnder (name : Text) (read : Identifier -> Text) : Prop where
  stored : ∀ (property : RedfishProperty) (value : QueryValue) (identifier : Identifier),
    read (storeInIdentifier property value identifier) =
      if property.name = name then stringValue value else read identifier

lemma serviceLabel_stored : StoredUnder kServiceLabel fun identifier =>
      (mutableRedfishLocation identifier).serviceLabel := by
  constructor
  intro property value identifier
  unfold storeInIdentifier
  split_ifs with label context devpath embedded
  · rfl
  · rfl
  · rfl
  · rfl
  · rfl

lemma partLocationContext_stored : StoredUnder kPartLocationContext fun identifier =>
      (mutableRedfishLocation identifier).partLocationContext.getD [] := by
  have apart : kPartLocationContext ≠ kServiceLabel := by decide
  constructor
  intro property value identifier
  unfold storeInIdentifier
  by_cases label : property.name = kServiceLabel
  · rw [if_pos label, if_neg (fun context => apart (context.symm.trans label))]
    rfl
  · split_ifs with context devpath embedded
    · rfl
    · rfl
    · rfl
    · rfl

variable {properties : List RedfishProperty}

lemma StoredUnder.collected {name : Text} {read : Identifier -> Text}
    (under : StoredUnder name read) (named : ∀ property ∈ properties, property.name.isEmpty = false)
    (start : Identifier) :
    read (properties.foldl (absorb library content storeInIdentifier) start) =
      ((providedValue library content properties name).map stringValue).getD (read start) := by
  induction properties generalizing start with
  | nil => rfl
  | cons property rest ih =>
    rw [foldl_cons, ih fun other member => named other (.tail _ member),
      providedValue, providedValue, provider_cons]
    have emitted : emittedName property = property.name := by
      rw [emittedName, named property (.head _)]
      rfl
    cases provided : provider library content rest name with
    | some later =>
      rcases provider_yields library content provided with ⟨value, got⟩
      simp [got, Except.toOption]
    | none =>
      unfold absorb yields
      rw [emitted]
      cases got : getPropertyFromRedfishObject library content property with
      | error failure => simp [Except.isOk, Except.toBool]
      | ok value =>
        simp only [under.stored]
        by_cases same : property.name = name
        · simp [same, Except.isOk, Except.toBool, got, Except.toOption]
        · simp [same]

/-- The flag is not touched by the location. -/
lemma foldl_isRoot (properties : List RedfishProperty) (start : Identifier) :
    (properties.foldl (absorb library content storeInIdentifier) start).isRoot = start.isRoot := by
  induction properties generalizing start with
  | nil => rfl
  | cons property rest ih =>
    rw [foldl_cons, ih]
    unfold absorb storeInIdentifier
    split
    · split_ifs
      · rfl
      · rfl
      · rfl
      · rfl
      · rfl
    · rfl

lemma getAdditionalProperties_named {property : RedfishProperty}
    (member : property ∈ getAdditionalProperties) : property.name.isEmpty = false := by
  have known := getAdditionalProperties_name member
  simp only [identifierNames, mem_cons, not_mem_nil, or_false] at known
  rcases known with found | found | found | found
  · rw [found]
    rfl
  · rw [found]
    rfl
  · rw [found]
    rfl
  · rw [found]
    rfl

/-- What an identifier says behind the default normaliser. -/
structure Collected (resourceType : Text) (identifier : Identifier) : Prop where
  isRoot : identifier.isRoot.getD false = strContains resourceType (text "#Chassis.")
  serviceLabel :
    (mutableRedfishLocation identifier).serviceLabel = collectedText library content kServiceLabel
  partLocationContext : (mutableRedfishLocation identifier).partLocationContext.getD [] =
    collectedText library content kPartLocationContext

def startIdentifier (resourceType : Text) : Identifier :=
  if isRootChassis resourceType .empty then { Identifier.empty with isRoot := some true }
  else .empty

lemma collected_fromStart (resourceType : Text) :
    Collected library content resourceType
      (getAdditionalProperties.foldl (absorb library content storeInIdentifier)
        (startIdentifier resourceType)) := by
  have chassis : isRootChassis resourceType .empty =
      strContains resourceType (text "#Chassis.") := by
    simp [isRootChassis, mutableRedfishLocation, Identifier.empty]
  have unlabelled : (mutableRedfishLocation (startIdentifier resourceType)).serviceLabel = [] ∧
      (mutableRedfishLocation (startIdentifier resourceType)).partLocationContext.getD [] = [] := by
    unfold startIdentifier
    split_ifs
    · exact ⟨rfl, rfl⟩
    · exact ⟨rfl, rfl⟩
  refine ⟨?_, ?_, ?_⟩
  · rw [foldl_isRoot, startIdentifier, chassis]
    cases strContains resourceType (text "#Chassis.") with
    | true => rfl
    | false => rfl
  · have collected := serviceLabel_stored.collected library content
      (fun _ => getAdditionalProperties_named) (startIdentifier resourceType)
    rw [unlabelled.1] at collected
    exact collected
  · have collected := partLocationContext_stored.collected library content
      (fun _ => getAdditionalProperties_named) (startIdentifier resourceType)
    rw [unlabelled.2] at collected
    exact collected

lemma heldIdentifier_setField (identifier : Identifier) (fields : QueryResultData) :
    heldIdentifier (setField kIdentifierTag (.identifier identifier) fields) = identifier := by
  rw [heldIdentifier, lookup_setField]
  rfl

variable {fields : QueryResultData}

lemma addIdentifier_collected {resourceType : Text} {after : QueryResultData}
    (unidentified : fields.lookup kIdentifierTag = none)
    (added : addIdentifier library content resourceType fields = .ok after) :
    Collected library content resourceType (heldIdentifier after) := by
  unfold addIdentifier at added
  rw [unidentified] at added
  change (getAdditionalProperties.foldlM (withProperty library content storeInIdentifier)
    (startIdentifier resourceType) >>= _) = _ at added
  cases looped : getAdditionalProperties.foldlM
      (withProperty library content storeInIdentifier) (startIdentifier resourceType) with
  | error failure =>
    rw [looped] at added
    cases added
  | ok identifier =>
    rw [looped] at added
    change (if identifier = .empty then Except.ok fields
      else Except.ok (setField kIdentifierTag (.identifier identifier) fields)) = .ok after at added
    have collected := collected_fromStart library content resourceType
    rw [<- foldlM_withProperty library content storeInIdentifier looped] at collected
    by_cases empty : identifier = .empty
    · rw [if_pos empty] at added
      cases added
      have held : heldIdentifier fields = identifier := by
        rw [heldIdentifier, unidentified, empty]
        rfl
      rw [held]
      exact collected
    · rw [if_neg empty] at added
      cases added
      rw [heldIdentifier_setField]
      exact collected

lemma annotateUri_identifier {urlAnnotationEnabled : Bool} {after : QueryResultData}
    (added : annotateUri content urlAnnotationEnabled fields = .ok after) :
    heldIdentifier after = heldIdentifier fields := by
  have apart : kIdentifierTag ≠ kUriAnnotationTag := by decide
  rcases annotateUri_annotates content added with ⟨-, uri, isAnnotated⟩ | ⟨-, same⟩
  · rw [isAnnotated, heldIdentifier, lookup_setField]
    rfl
  · rw [same]

/-- No property of the subquery takes the place of the identifier. -/
def LeavesIdentifier (properties : List RedfishProperty) : Prop :=
  ∀ property ∈ properties, emittedName property ≠ kIdentifierTag

lemma LeavesIdentifier.unidentified (leaves : LeavesIdentifier properties)
    (looped : properties.foldlM (withProperty library content storeProperty) [] = .ok fields) :
    fields.lookup kIdentifierTag = none := by
  rw [foldlM_withProperty library content storeProperty looped, foldl_storeProperty]
  have nobody : provider library content properties kIdentifierTag = none := by
    apply find?_eq_none.mpr
    intro property member
    have other := leaves property (mem_reverse.mp member)
    rw [beq_false_of_ne other]
    exact Bool.false_ne_true
  rw [providedValue, nobody]
  rfl

variable {World Object Iterable : Type} (views : RedfishViews World Object Iterable)

/-- `is_root` of the identifier. -/
def isRootFlag (dataSet : QueryResultData) : Bool :=
  (heldIdentifier dataSet).isRoot.getD false

variable {world : World} {fields : QueryResultData}

lemma normalize_collected {object : Object} {subquery : Subquery}
    (leaves : LeavesIdentifier subquery.properties) {urlAnnotationEnabled : Bool}
    (normalized : (normalize library views object subquery [] urlAnnotationEnabled world).1 =
      .ok fields) :
    Collected library (views.getContentAsJson object)
      ((views.getNodeValue object (text "@odata.type") world).1.getD [])
      (heldIdentifier fields) := by
  unfold normalize at normalized
  cases looped : subquery.properties.foldlM
      (withProperty library (views.getContentAsJson object) storeProperty) [] with
  | error failure =>
    simp only [looped] at normalized
    cases normalized
  | ok own =>
    simp only [looped] at normalized
    change (addIdentifier library (views.getContentAsJson object)
      ((views.getNodeValue object (text "@odata.type") world).1.getD []) own >>=
        fun identified => annotateUri (views.getContentAsJson object) urlAnnotationEnabled
          identified) = .ok fields at normalized
    cases identifies : addIdentifier library (views.getContentAsJson object)
        ((views.getNodeValue object (text "@odata.type") world).1.getD []) own with
    | error failure =>
      rw [identifies] at normalized
      cases normalized
    | ok identified =>
      rw [identifies] at normalized
      rw [annotateUri_identifier _ normalized]
      exact addIdentifier_collected library _ (leaves.unidentified library _ looped) identifies

lemma storeMachineDevpath_isRootFlag (machineDevpath : StatusOr Text) (dataSet : QueryResultData) :
    isRootFlag (storeMachineDevpath machineDevpath dataSet) = isRootFlag dataSet := by
  unfold storeMachineDevpath
  split
  · rfl
  · split_ifs
    · rfl
    · rw [isRootFlag, heldIdentifier_setField]
      rfl

variable {dataSet : QueryResultData}

lemma addMachineBarepath_isRootFlag {idAssigner : IdAssigner World} {fallback : Bool}
    {object : Object}
    (normalized : (addMachineBarepath views idAssigner fallback object dataSet world).1 =
      .ok fields) : isRootFlag fields = isRootFlag dataSet := by
  have stored : ∃ machineDevpath isRoot, fields = storeMachineDevpath machineDevpath
      (if !(dataSet.lookup kIdentifierTag).isSome && isRoot then
        setField kIdentifierTag (.identifier .empty) dataSet else dataSet) := by
    exact ⟨_, _, (Except.ok.inj normalized).symm⟩
  rcases stored with ⟨machineDevpath, isRoot, stored⟩
  rw [stored, storeMachineDevpath_isRootFlag]
  split_ifs with isNew
  · have missing : dataSet.lookup kIdentifierTag = none := by
      have unset := (Bool.and_eq_true_iff.mp isNew).1
      cases found : dataSet.lookup kIdentifierTag with
      | none => rfl
      | some value =>
        rw [found] at unset
        cases unset
    rw [isRootFlag, heldIdentifier_setField, isRootFlag, heldIdentifier, missing]
    rfl
  · rfl

/-- The text and the context of a location are both missing or empty. -/
def Unlocated (content : Json) : Prop :=
  collectedText library content kServiceLabel = [] ∧
    collectedText library content kPartLocationContext = []

lemma runChain_cons {impl : QueryResultData -> StateM World (Evaluation QueryResultData)}
    {rest : List (QueryResultData -> StateM World (Evaluation QueryResultData))}
    (ran : (runChain (impl :: rest) dataSet world).1 = .ok fields) :
    ∃ middle between, impl dataSet world = (.ok middle, between) ∧
      (runChain rest middle between).1 = .ok fields := by
  unfold runChain at ran
  simp only [bind, StateT.bind] at ran
  rcases turn : impl dataSet world with ⟨failure | middle, between⟩
  · rw [turn] at ran
    cases ran
  · rw [turn] at ran
    exact ⟨middle, between, rfl, ran⟩

lemma normalizeChain_runs
    {implChain : List (QueryResultData -> StateM World (Evaluation QueryResultData))}
    {returnErrorOnEmptyDataset : Bool}
    (normalized : (normalizeChain implChain dataSet returnErrorOnEmptyDataset world).1 =
      .ok fields) : (runChain implChain dataSet world).1 = .ok fields := by
  unfold normalizeChain at normalized
  split at normalized
  · cases normalized
  · simp only [bind, StateT.bind] at normalized
    rcases ran : runChain implChain dataSet world with ⟨failure | changed, after⟩
    · rw [ran] at normalized
      cases normalized
    · rw [ran] at normalized
      dsimp only at normalized
      split at normalized
      · cases normalized
      · exact normalized

/-- Behind the default normaliser and the one for machine barepaths, the flag is what the second one
computed exactly if the resource is no chassis, or one without a label and a context. -/
theorem root_flag_agrees_iff :
    ∀ (library : ValueLibrary) (views : RedfishViews World Object Iterable)
        (idAssigner : IdAssigner World) (fallback : Bool) (object : Object) (subquery : Subquery)
        (urlAnnotationEnabled returnErrorOnEmptyDataset : Bool) (world : World)
        (resourceType : Text) (fields : QueryResultData),
      (∀ world, (views.getNodeValue object (text "@odata.type") world).1.getD [] = resourceType) ->
      LeavesIdentifier subquery.properties ->
      (normalizeChain
        [fun dataSet => normalize library views object subquery dataSet urlAnnotationEnabled,
          addMachineBarepath views idAssigner fallback object]
        [] returnErrorOnEmptyDataset world).1 = .ok fields ->
      ∃ middle between,
        normalize library views object subquery [] urlAnnotationEnabled world =
            (.ok middle, between) ∧
          (((isRootFlag fields = true ↔
              (checkRootChassis views object middle between).1 = true) ∧
            ((checkRootChassis views object middle between).1 = true ↔
              strContains resourceType (text "#Chassis.") = true ∧
                Unlocated library (views.getContentAsJson object))) ↔
          (strContains resourceType (text "#Chassis.") = false ∨
            Unlocated library (views.getContentAsJson object))) := by
  intro library views idAssigner fallback object subquery urlAnnotationEnabled
    returnErrorOnEmptyDataset world resourceType fields typed leaves normalized
  rcases runChain_cons (normalizeChain_runs normalized) with ⟨middle, between, ran, later⟩
  rcases runChain_cons later with ⟨last, after, barepath, ended⟩
  have same : last = fields := Except.ok.inj ended
  refine ⟨middle, between, ran, ?_⟩
  have collected := normalize_collected library views leaves (congrArg Prod.fst ran)
  rw [typed] at collected
  have kept : isRootFlag fields = strContains resourceType (text "#Chassis.") := by
    rw [<- same, addMachineBarepath_isRootFlag views (congrArg Prod.fst barepath)]
    exact collected.isRoot
  have computed : (checkRootChassis views object middle between).1 = true ↔
      strContains resourceType (text "#Chassis.") = true ∧
        Unlocated library (views.getContentAsJson object) := by
    change isRootChassis ((views.getNodeValue object (text "@odata.type") between).1.getD [])
      (heldIdentifier middle) = true ↔ _
    rw [typed, isRootChassis, collected.serviceLabel, collected.partLocationContext,
      Bool.and_eq_true, Bool.and_eq_true, List.isEmpty_iff, List.isEmpty_iff, and_assoc]
    rfl
  rw [kept, computed]
  cases strContains resourceType (text "#Chassis.") with
  | false => simp
  | true => simp

end

/-- A library for payloads without numbers and time stamps. -/
def labelLibrary : ValueLibrary where
  parseTime _ := none
  toDouble value := value
  toInt64 value := value.num
  dump _ := []

/-- A chassis in the slot "A", and one without a location. -/
def chassisTable : Planner.ServiceTable where
  root := .ofObject 0
  nodes := [((0, text "@odata.type"), .ofString (text "#Chassis.v1_0_0.Chassis")),
    ((1, text "@odata.type"), .ofString (text "#Chassis.v1_0_0.Chassis"))]
  members := []
  contents := [(0, .object [(text "Location", .object [(text "PartLocation",
    .object [(text "ServiceLabel", .string (text "A"))])])]), (1, .object [])]

def rootAssigner : IdAssigner Unit where
  idForLocalDevpathInQueryResult _ := return .error (.notFound [])
  idForRedfishLocationInQueryResult _ isRoot :=
    return if isRoot then .ok (text "/phys") else .error (.notFound [])

def chassisChain (object : Nat) :
    List (QueryResultData -> StateM Unit (Evaluation QueryResultData)) :=
  [fun dataSet => normalize labelLibrary chassisTable.views object .empty dataSet false,
    addMachineBarepath chassisTable.views rootAssigner true object]

/-- The chassis without a location is a root chassis for both. -/
theorem root_flag_agrees_unlocated :
    ∃ fields middle,
      (normalizeChain (chassisChain 1) [] true ()).1 = .ok fields ∧
      normalize labelLibrary chassisTable.views 1 .empty [] false () = (.ok middle, ()) ∧
      (isRootFlag fields = true ↔ (checkRootChassis chassisTable.views 1 middle ()).1 = true) := by
  have typed : ∀ world, (chassisTable.views.getNodeValue 1 (text "@odata.type") world).1.getD
      [] = text "#Chassis.v1_0_0.Chassis" := fun _ => rfl
  have leaves : LeavesIdentifier Subquery.empty.properties := by
    exact List.forall_mem_nil _
  have ran : ∃ fields, (normalizeChain (chassisChain 1) [] true ()).1 = .ok fields := ⟨_, rfl⟩
  rcases ran with ⟨fields, ran⟩
  rcases root_flag_agrees_iff labelLibrary chassisTable.views rootAssigner true 1 .empty false true
    () _ fields typed leaves ran with ⟨middle, between, normalized, agrees⟩
  exact ⟨fields, middle, ran, normalized, (agrees.mpr (.inr ⟨rfl, rfl⟩)).1⟩

/-- A chassis with a label carries the flag of a root chassis, and is none for the assigner. -/
theorem labelled_root_flag :
    ∃ fields middle,
      (normalizeChain (chassisChain 0) [] true ()).1 = .ok fields ∧
      normalize labelLibrary chassisTable.views 0 .empty [] false () = (.ok middle, ()) ∧
      isRootFlag fields = true ∧
      (checkRootChassis chassisTable.views 0 middle ()).1 = false := by
  exact ⟨_, _, rfl, rfl, rfl, rfl⟩

end Ecclesia.Normalizer
