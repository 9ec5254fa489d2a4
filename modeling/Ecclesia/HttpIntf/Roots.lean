import Ecclesia.HttpIntf.Features

namespace Ecclesia.HttpIntf

open List Option

/-!
# Runs of root fetches

Every fetch of a root may be the first that returns an object, whatever root it is, and then
its features are recorded for good.  So the features of the Redfish root are known exactly as
far as all of its objects tell what the first object of any root has told.
-/

/-- The root of a call: one of those with a name, or a URI. -/
inductive RootName where
  | service (root : ServiceRootUri)
  | custom (uri : Text)

def serviceRootToUri : ServiceRootUri -> Text
  | .redfish => text "/redfish/v1"
  | .google => text "/google/v1"

def RootName.uri : RootName -> Text
  | .service root => serviceRootToUri root
  | .custom uri => uri

/-- A call of `GetRoot`, with the answers to the adjusted parameters and to the references. -/
structure RootCall where
  serviceRoot : RootName
  params : GetParams
  answer : GetParams -> Variant
  resolve : Text -> Variant

variable (state : InterfaceState)

def getRoot (call : RootCall) : Variant × InterfaceState :=
  let root := call.answer (validateAndAdjustParams state.supportedFeatures call.params)
  (root, populateSupportedFeatures call.resolve root state)

variable (removeExpandSupport : Bool)

def newInterface : InterfaceState :=
  ⟨none, removeExpandSupport⟩

variable (calls : List RootCall)

def runRoots : InterfaceState :=
  calls.foldl (fun state call => (getRoot state call).2) state

/-- The object of a root that was fetched with success. -/
def returnedObject (root : Variant) : Option HttpObject :=
  if root.status.isOk then root.asObject else none

def returnedObjects (state : InterfaceState) : List RootCall -> List (RootCall × HttpObject)
  | [] => []
  | call :: rest =>
    ((returnedObject (getRoot state call).1).map fun object => (call, object)).toList ++
      returnedObjects (getRoot state call).2 rest

/-- What a call and its object tell, as the interface would record it. -/
def told (returned : RootCall × HttpObject) :
    RedfishSupportedFeatures :=
  withoutRemoved removeExpandSupport (advertisedFeatures returned.1.resolve returned.2)

/-- The features are recorded, and the parameters that they support are kept. -/
structure Knows (features : RedfishSupportedFeatures) : Prop where
  recorded : state.supportedFeatures = some features
  keeps : ∀ params, validateAndAdjustParams state.supportedFeatures params = features.keep params

/-- After an object of the Redfish root was returned, its features are known in every later state.
-/
def KnowsRedfish : Prop :=
  ∀ before call later after object, calls = before ++ call :: (later ++ after) ->
    call.serviceRoot.uri = serviceRootToUri .redfish ->
    returnedObject (getRoot (runRoots (newInterface removeExpandSupport) before) call).1 =
      some object ->
    Knows (runRoots (newInterface removeExpandSupport) (before ++ call :: later))
      (told removeExpandSupport (call, object))

/-- Every object of the Redfish root tells what the first object of any root has told. -/
def RootsAgree : Prop :=
  ∀ first, (returnedObjects (newInterface removeExpandSupport) calls).head? = some first ->
    ∀ returned ∈ returnedObjects (newInterface removeExpandSupport) calls,
      returned.1.serviceRoot.uri = serviceRootToUri .redfish ->
      told removeExpandSupport returned = told removeExpandSupport first

lemma knows_iff (features : RedfishSupportedFeatures) :
    Knows state features <-> state.supportedFeatures = some features := by
  constructor
  · exact Knows.recorded
  · intro recorded
    refine ⟨recorded, ?_⟩
    intro params
    rw [recorded, validateAndAdjustParams_some]

lemma getRoot_features (call : RootCall) :
    (getRoot state call).2.removeExpandSupport = state.removeExpandSupport ∧
      (getRoot state call).2.supportedFeatures =
        state.supportedFeatures.or ((returnedObject (getRoot state call).1).map fun object =>
          told state.removeExpandSupport (call, object)) := by
  rw [getRoot]
  generalize call.answer (validateAndAdjustParams state.supportedFeatures call.params) = root
  rw [populateSupportedFeatures, returnedObject]
  cases recorded : state.supportedFeatures with
  | some features => exact ⟨rfl, recorded⟩
  | none =>
    cases isOk : root.status.isOk with
    | false => exact ⟨rfl, recorded⟩
    | true =>
      cases root.asObject with
      | none => exact ⟨rfl, recorded⟩
      | some object => exact ⟨rfl, rfl⟩

lemma returnedObjects_append (before rest : List RootCall) : ∀ state,
    returnedObjects state (before ++ rest) =
      returnedObjects state before ++ returnedObjects (runRoots state before) rest := by
  induction before with
  | nil => exact fun _ => rfl
  | cons call before ih =>
    intro state
    rw [cons_append, returnedObjects, returnedObjects, ih, append_assoc]
    rfl

lemma runRoots_features : ∀ state,
    (runRoots state calls).supportedFeatures =
      state.supportedFeatures.or
        ((returnedObjects state calls).head?.map (told state.removeExpandSupport)) := by
  induction calls with
  | nil => exact fun state => (or_none).symm
  | cons call rest ih =>
    intro state
    have step := getRoot_features state call
    change (runRoots (getRoot state call).2 rest).supportedFeatures = _
    rw [ih, step.1, step.2, returnedObjects, Option.or_assoc]
    cases returnedObject (getRoot state call).1 with
    | none => rfl
    | some object => rfl

lemma newInterface_features :
    (runRoots (newInterface removeExpandSupport) calls).supportedFeatures =
      (returnedObjects (newInterface removeExpandSupport) calls).head?.map
        (told removeExpandSupport) :=
  runRoots_features calls (newInterface removeExpandSupport)

lemma mem_returnedObjects {returned : RootCall × HttpObject} :
    ∀ {state : InterfaceState}, returned ∈ returnedObjects state calls ->
      ∃ before after, calls = before ++ returned.1 :: after ∧
        returnedObject (getRoot (runRoots state before) returned.1).1 = some returned.2 := by
  induction calls with
  | nil => exact fun impossible => by cases impossible
  | cons call rest ih =>
    intro state member
    rcases mem_append.mp member with here | later
    · rcases map_eq_some_iff.mp (mem_toList.mp here) with ⟨object, isObject, same⟩
      subst same
      exact ⟨[], rest, rfl, isObject⟩
    · rcases ih later with ⟨before, after, split, isObject⟩
      exact ⟨call :: before, after, congrArg (List.cons call) split, isObject⟩

lemma head_returnedObjects {state : InterfaceState} {before : List RootCall} {call : RootCall}
    {object : HttpObject} (later after : List RootCall)
    (isObject : returnedObject (getRoot (runRoots state before) call).1 = some object) :
    (call, object) ∈ returnedObjects state (before ++ call :: later) ∧
      (returnedObjects state (before ++ call :: (later ++ after))).head? =
        (returnedObjects state (before ++ call :: later)).head? := by
  have member : (call, object) ∈ returnedObjects state (before ++ call :: later) := by
    rw [returnedObjects_append, returnedObjects, isObject]
    exact mem_append_right _ (.head _)
  refine ⟨member, ?_⟩
  have split : before ++ call :: (later ++ after) = (before ++ call :: later) ++ after := by
    rw [append_assoc]
    rfl
  rw [split, returnedObjects_append, head?_append_of_ne_nil _ (ne_nil_of_mem member)]

/-- The features of the Redfish root are known after it was fetched, exactly if every object of it
tells what the first object of any root has told. -/
theorem supportedFeatures_known_iff (removeExpandSupport : Bool) (calls : List RootCall) :
    KnowsRedfish removeExpandSupport calls <-> RootsAgree removeExpandSupport calls := by
  constructor
  · intro known first isFirst returned member isRedfish
    rcases mem_returnedObjects calls member with ⟨before, after, split, isObject⟩
    have knows := known before returned.1 [] after returned.2 split isRedfish isObject
    have recorded := knows.recorded
    rw [newInterface_features] at recorded
    have head := (head_returnedObjects [] after isObject).2
    rw [List.nil_append, <- split, isFirst] at head
    rw [<- head, Option.map_some, Option.some.injEq] at recorded
    exact recorded.symm
  · intro agree before call later after object split isRedfish isObject
    rw [knows_iff, newInterface_features]
    rcases head_returnedObjects later after isObject with ⟨member, head⟩
    rw [<- split] at head
    cases isFirst : (returnedObjects (newInterface removeExpandSupport)
        (before ++ call :: later)).head? with
    | none =>
      rw [List.head?_eq_none_iff.mp isFirst] at member
      cases member
    | some first =>
      have inWhole : (call, object) ∈ returnedObjects (newInterface removeExpandSupport) calls := by
        have parts : calls = (before ++ call :: later) ++ after := by
          rw [split, List.append_assoc]
          rfl
        rw [parts, returnedObjects_append]
        exact List.mem_append_left _ member
      have same := agree first (head.trans isFirst) (call, object) inWhole isRedfish
      rw [Option.map_some, same]

/-- A call that is answered with an object, whatever the parameters are. -/
def answeredWith (root : ServiceRootUri) (json : Json) : RootCall where
  serviceRoot := .service root
  params := {}
  answer _ := ⟨.okStatus, some (.json json)⟩
  resolve _ := ⟨.notFound [], none⟩

def topSupported : Json :=
  .object [(kProtocolFeaturesSupported, .object [(text "TopSkipQuery", .boolean true)])]

/-- After a Google root without features, `$top` is removed although the Redfish service supports
it. -/
theorem supportedFeatures_google_first :
    ¬ KnowsRedfish false [answeredWith .google (.object []), answeredWith .redfish topSupported] ∧
      validateAndAdjustParams
        (runRoots (newInterface false) [answeredWith .google (.object []),
          answeredWith .redfish topSupported]).supportedFeatures { top := some 10 } = {} ∧
      (told false (answeredWith .redfish topSupported, ⟨.okStatus, topSupported⟩)).keep
        { top := some 10 } = { top := some 10 } := by
  refine ⟨?_, by decide +kernel, by decide +kernel⟩
  intro known
  have knows := known [answeredWith .google (.object [])] (answeredWith .redfish topSupported) []
    [] ⟨.okStatus, topSupported⟩ rfl rfl rfl
  exact absurd knows.recorded (by decide +kernel)

end Ecclesia.HttpIntf
