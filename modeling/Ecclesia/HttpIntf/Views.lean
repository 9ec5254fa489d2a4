import Ecclesia.HttpIntf.Features

namespace Ecclesia.Views

open HttpIntf Transport Option

/-!
# Views of payloads

A response is seen as a variant, which may be viewed as an object or as an iterable, and these give
variants again.  The JSON library throws at a value of another type, and does not check the bounds of
an array; so each view has to check what it reads.

The definitions follow `http_redfish_intf.cc` and `interface.h`.  What the service answers when a
view fetches is arbitrary.
-/

/-! ## The JSON library -/

inductive Fault where
  | variantAccess
  | typeError
  | outOfRange

/-- `std::get<nlohmann::json>` -/
def getJson : Body -> Except Fault Json
  | .json json => .ok json
  | .bytes _ => .error .variantAccess

def isObject : Json -> Bool
  | .object _ => true
  | _ => false

def isArray : Json -> Bool
  | .array _ => true
  | _ => false

/-- The constant `operator[]` at a key. -/
def memberAt (json : Json) (key : Text) : Except Fault Json :=
  if isObject json then
    match json.find key with
    | some value => .ok value
    | none => .error .outOfRange
  else .error .typeError

/-- The constant `operator[]` at an index. -/
def elementAt (json : Json) (index : Nat) : Except Fault Json :=
  match json with
  | .array elements =>
    match elements[index]? with
    | some element => .ok element
    | none => .error .outOfRange
  | _ => .error .typeError

/-- The conversion to a `std::string`. -/
def toString : Json -> Except Fault Text
  | .string value => .ok value
  | _ => .error .typeError

/-! ## Views -/

/-- What a view is of: a body, with the status of its response. -/
structure Payload where
  body : Body
  status : Status
  isFresh : Bool

/-- A `RedfishVariant`, which has no payload if it was made from a status. -/
structure RedfishVariant where
  status : Status
  payload : Option Payload

/-- `RedfishVariant::IterableMode` -/
inductive IterableMode where
  | allowExpand
  | disableExpand
  | disableAutoResolve
deriving DecidableEq

/-- An `HttpIntfArrayIterableImpl` or an `HttpIntfCollectionIterableImpl`. -/
structure RedfishIterable where
  isCollection : Bool
  payload : Payload
  mode : IterableMode

def propertyMembers : Text := text "Members"

/-- `HttpIntfVariantImpl::AsObject` -/
def asObject (payload : Payload) : Option Payload :=
  match payload.body with
  | .bytes _ => none
  | .json json => if isObject json then some payload else none

/-- `HttpIntfVariantImpl::AsIterable` -/
def asIterable (payload : Payload) (mode : IterableMode) : Except Fault (Option RedfishIterable) :=
  match payload.body with
  | .bytes _ => .ok none
  | .json json => do
      let isCollection <-
        if isObject json && json.contains propertyMembers then
          (memberAt json propertyMembers).map isArray
        else .ok false
      if isArray json then return some ⟨false, payload, mode⟩
      if isCollection then return some ⟨true, payload, mode⟩
      return none

/-- The types that `GetValue` reads. -/
inductive ValueKind where
  | string
  | int32
  | int64
  | double
  | bool
  | time

/-- Whether `GetValue` returns true.  Behind its check of the type each overload reads that type. -/
def getValue (parseTime : Text -> Bool) (payload : Payload) : ValueKind -> Bool
  | .string => match payload.body with
      | .json json => json.isString
      | _ => false
  | .int32 => (getValueInt32 (fun _ => 0) payload.body).isSome
  | .int64 => (getValueInt64 (fun _ => 0) payload.body).isSome
  | .double => (number? payload.body).isSome
  | .bool => match payload.body with
      | .json (.boolean _) => true
      | _ => false
  | .time => match payload.body with
      | .json (.string value) => parseTime value
      | _ => false

section

variable (answer : RedfishVariant)

/-- `ResolveReference`, where a GET has this answer. -/
def resolveReference (expands : Bool) (payload : Payload) (json : Json) : RedfishVariant :=
  let asIs : RedfishVariant := ⟨payload.status, some { payload with body := .json json }⟩
  let expanded := if expands && answer.status.isOk then answer else asIs
  match getObjectUri json with
  | some _ => if json.size = 1 then answer else expanded
  | none => expanded

/-- `HttpIntfObjectImpl::Get` -/
def get (expands : Bool) (object : Payload) (nodeName : Text) : Except Fault RedfishVariant := do
  let json <- getJson object.body
  match json.find nodeName with
  | none => return ⟨object.status, some { object with body := .json .discarded }⟩
  | some value => return resolveReference answer expands object value

/-- `HttpIntfObjectImpl::GetUriString` -/
def getUriString (object : Payload) : Except Fault (Option Text) :=
  match object.body with
  | .bytes _ => .ok none
  | .json json =>
    match json.find (text "@odata.id") with
    | none => .ok none
    | some value => (toString value).map some

/-- `HttpIntfObjectImpl::EnsureFreshPayload`, with nothing for an error. -/
def ensureFreshPayload (object : Payload) : Except Fault (Option Payload) :=
  if object.isFresh then .ok (some object)
  else do
    match <- getUriString object with
    | none => return none
    | some _ => if answer.status.isOk then return answer.payload.bind asObject else return none

/-- The variant of a property in `HttpIntfObjectImpl::ForEachProperty`. -/
def property (object : Payload) (index : Nat) : Option RedfishVariant :=
  match object.body with
  | .bytes _ => none
  | .json json => (json.items[index]?).map fun value =>
    ⟨object.status, some { object with body := .json value }⟩

/-- The members array of a collection, if it is one. -/
def membersOf (json : Json) : Option Json :=
  (json.find propertyMembers).filter isArray

def size (iterable : RedfishIterable) : Except Fault Nat := do
  let json <- getJson iterable.payload.body
  if iterable.isCollection then return ((membersOf json).map Json.size).getD 0
  return json.size

def empty (iterable : RedfishIterable) : Except Fault Bool := do
  let json <- getJson iterable.payload.body
  if iterable.isCollection then return ((membersOf json).map Json.isEmpty).getD true
  return json.isEmpty

/-- The variant of an element: without resolution, or resolved. -/
def elementVariant (iterable : RedfishIterable) (element : Json) : RedfishVariant :=
  if iterable.mode = .disableAutoResolve then
    ⟨iterable.payload.status, some { iterable.payload with body := .json element }⟩
  else resolveReference answer false iterable.payload element

/-- `operator[]` of an iterable at an `int`, with nothing for an error. -/
def at? (iterable : RedfishIterable)
    (index : BitVec 32) : Except Fault (Option RedfishVariant) := do
  let json <- getJson iterable.payload.body
  match if iterable.isCollection then membersOf json else some json with
  | none => return none
  | some array =>
    -- As a size, a negative index is greater than the size of any array.
    if index.toInt < 0 || array.size <= index.toNat then return none
    let element <- elementAt array index.toNat
    return some (elementVariant answer iterable element)

/-- `RedfishVariant::operator[]` at a name, with nothing for an error. -/
def atName (expands : Bool) (variant : RedfishVariant) (name : Text) :
    Except Fault (Option RedfishVariant) :=
  if !variant.status.isOk then .ok none
  else
    match variant.payload.bind asObject with
    | none => .ok none
    | some object => (get answer expands object name).map some

/-- `RedfishVariant::operator[]` at a `size_t`, which becomes an `int`. -/
def atIndex (variant : RedfishVariant) (index : BitVec 64) : Except Fault (Option RedfishVariant) :=
  if !variant.status.isOk then .ok none
  else
    match variant.payload with
    | none => .ok none
    | some payload => do
        match <- asIterable payload .allowExpand with
        | none => return none
        | some iterable => at? answer iterable (index.setWidth 32)

end

/-! ## Chains of views -/

inductive View where
  | variant (variant : RedfishVariant)
  | object (object : Payload)
  | iterable (iterable : RedfishIterable)

/-- The operations of variants, of objects and of iterables. -/
inductive Op where
  | asObject
  | asIterable (mode : IterableMode)
  | getValue (kind : ValueKind)
  | atName (expands : Bool) (name : Text)
  | atIndex (index : BitVec 64)
  | get (expands : Bool) (name : Text)
  | getUriString
  | ensureFreshPayload
  | property (index : Nat)
  | size
  | empty
  | atInt (index : BitVec 32)

/-- An operation reports that there is nothing, or it gives a value or a view. -/
inductive Result where
  | nothing
  | value
  | view (view : View)

def Result.ofView : Option View -> Result
  | none => .nothing
  | some found => .view found

section

variable (parseTime : Text -> Bool) (answer : RedfishVariant)

/-- One operation on a view. -/
def step : View -> Op -> Except Fault Result
  | .variant variant, .asObject =>
    .ok (.ofView ((variant.payload.bind asObject).map .object))
  | .variant variant, .asIterable mode =>
    match variant.payload with
    | none => .ok .nothing
    | some payload => (asIterable payload mode).map fun found => .ofView (found.map .iterable)
  | .variant variant, .getValue kind =>
    .ok (if variant.payload.any (getValue parseTime · kind) then .value else .nothing)
  | .variant variant, .atName expands name =>
    (atName answer expands variant name).map fun found => .ofView (found.map .variant)
  | .variant variant, .atIndex index =>
    (atIndex answer variant index).map fun found => .ofView (found.map .variant)
  | .object object, .get expands name =>
    (get answer expands object name).map fun found => .view (.variant found)
  | .object object, .getUriString =>
    (getUriString object).map fun uri => if uri.isSome then .value else .nothing
  | .object object, .ensureFreshPayload =>
    (ensureFreshPayload answer object).map fun found => .ofView (found.map .object)
  | .object object, .property index => .ok (.ofView ((property object index).map .variant))
  | .iterable iterable, .size => (size iterable).map fun _ => .value
  | .iterable iterable, .empty => (empty iterable).map fun _ => .value
  | .iterable iterable, .atInt index =>
    (at? answer iterable index).map fun found => .ofView (found.map .variant)
  -- A view has no operation of another kind of view.
  | _, _ => .ok .nothing

end

/-! ## What fits a payload -/

/-- The elements of a payload that is an array or a collection. -/
def elements : Body -> Option (List Json)
  | .json (.array items) => some items
  | .json (.object members) =>
    match membersOf (.object members) with
    | some (.array items) => some items
    | _ => none
  | _ => none

def IsObject (body : Body) : Prop :=
  ∃ members, body = .json (.object members)

/-- A body has a member with the URI, and it is a text. -/
def HasUri (body : Body) : Prop :=
  ∃ json uri, body = .json json ∧ json.find (text "@odata.id") = some (.string uri)

def UriIsText (body : Body) : Prop :=
  ∀ json value, body = .json json -> json.find (text "@odata.id") = some value ->
    ∃ uri, value = .string uri

def KindFits (body : Body) : ValueKind -> Prop
  | .string | .time => ∃ value, body = .json (.string value)
  | .bool => ∃ value, body = .json (.boolean value)
  | .int32 | .int64 | .double => (number? body).isSome = true

def InRange (index : Int) (items : List Json) : Prop :=
  0 <= index ∧ index < items.length

def IsIterableOf (iterable : RedfishIterable) (items : List Json) : Prop :=
  ∃ json, iterable.payload.body = .json json ∧
    (if iterable.isCollection then membersOf json else some json) = some (.array items)

/-- An operation asks for what the payload has. -/
def Fits : View -> Op -> Prop
  | .variant variant, .asObject => ∃ payload, variant.payload = some payload ∧ IsObject payload.body
  | .variant variant, .asIterable _ => ∃ payload items, variant.payload = some payload ∧
      elements payload.body = some items
  | .variant variant, .getValue kind => ∃ payload, variant.payload = some payload ∧
      KindFits payload.body kind
  | .variant variant, .atName _ _ => ∃ payload, variant.payload = some payload ∧
      IsObject payload.body
  | .variant variant, .atIndex index => ∃ payload items, variant.payload = some payload ∧
      elements payload.body = some items ∧ InRange index.toNat items
  | .object object, .getUriString => HasUri object.body
  | .object object, .ensureFreshPayload => object.isFresh = true ∨ HasUri object.body
  | .object object, .property index => ∃ json, object.body = .json json ∧ index < json.items.length
  | .iterable iterable, .atInt index => ∃ items, IsIterableOf iterable items ∧
      InRange index.toInt items
  | _, _ => True

/-- The operation throws nothing, stays in range, and reports nothing where it does not fit. -/
def Proper (parseTime : Text -> Bool) (answer : RedfishVariant) (view : View) (op : Op) : Prop :=
  ∃ result, step parseTime answer view op = .ok result ∧ (¬ Fits view op -> result = .nothing)

/-- The URI is not read where it is no text, and an index that is out of range is out of range as
an `int` too. -/
def Harmless : View -> Op -> Prop
  | .object object, .getUriString => UriIsText object.body
  | .object object, .ensureFreshPayload => object.isFresh = true ∨ UriIsText object.body
  | .variant variant, .atIndex index => variant.status.isOk = true ->
      ∀ payload items, variant.payload = some payload -> elements payload.body = some items ->
        InRange (index.setWidth 32).toInt items -> InRange index.toNat items
  | _, _ => True

/-- An object view is of an object, and an iterable of an array or a collection. -/
def WellFormed : View -> Prop
  | .variant _ => True
  | .object object => IsObject object.body
  | .iterable iterable => ∃ items, IsIterableOf iterable items

/-- A condition holds of every operation of a chain.  Each has what a fetch answers in it. -/
def Along (parseTime : Text -> Bool) (holds : RedfishVariant -> View -> Op -> Prop) :
    View -> List (Op × RedfishVariant) -> Prop
  | _, [] => True
  | view, (op, answer) :: rest => holds answer view op ∧
      ∀ next, step parseTime answer view op = .ok (.view next) -> Along parseTime holds next rest

/-! ## Operations -/

lemma asObject_eq_some {payload object : Payload} (isObject : asObject payload = some object) :
    object = payload ∧ IsObject payload.body := by
  unfold asObject at isObject
  split at isObject
  · cases isObject
  · rename_i json isJson
    cases json with
    | object members =>
      cases isObject
      exact ⟨rfl, members, isJson⟩
    | _ => cases isObject

/-- `AsIterable` finds an iterable exactly if there are elements, and it is one of them. -/
lemma asIterable_cases (payload : Payload) (mode : IterableMode) :
    (elements payload.body = none ∧ asIterable payload mode = .ok none) ∨
      ∃ items iterable, elements payload.body = some items ∧
        asIterable payload mode = .ok (some iterable) ∧ IsIterableOf iterable items := by
  rcases payload with ⟨body, status, isFresh⟩
  cases body with
  | bytes content => exact .inl ⟨rfl, rfl⟩
  | json json =>
    cases json with
    | array items => exact .inr ⟨items, _, rfl, rfl, .array items, rfl, rfl⟩
    | object members =>
      cases found : (Json.object members).find propertyMembers with
      | none =>
        refine .inl ⟨?_, ?_⟩
        · rw [elements, membersOf, found]
          rfl
        · have absent : (Json.object members).contains propertyMembers = false := by
            rw [Json.contains, found]
            rfl
          rw [asIterable]
          dsimp only
          rw [absent]
          rfl
      | some value =>
        have present : (Json.object members).contains propertyMembers = true := by
          rw [Json.contains, found]
          rfl
        have read : memberAt (.object members) propertyMembers = .ok value := by
          rw [memberAt, found]
          rfl
        cases value with
        | array items =>
          have isMembers : membersOf (.object members) = some (.array items) := by
            rw [membersOf, found]
            rfl
          refine .inr ⟨items, ⟨true, ⟨_, status, isFresh⟩, mode⟩, ?_, ?_, .object members, rfl,
            isMembers⟩
          · rw [elements, isMembers]
          · rw [asIterable]
            dsimp only
            rw [present, read]
            rfl
        | _ =>
          refine .inl ⟨?_, ?_⟩
          · rw [elements, membersOf, found]
            rfl
          · rw [asIterable]
            dsimp only
            rw [present, read]
            rfl
    | _ => exact .inl ⟨rfl, rfl⟩

section

variable {answer : RedfishVariant} {iterable : RedfishIterable} {items : List Json}

lemma inRange_iff (index : BitVec 32) :
    InRange index.toInt items <-> ¬ index.toInt < 0 ∧ index.toNat < items.length := by
  have asInt := BitVec.toInt_eq_toNat_cond index
  rw [InRange]
  split at asInt
  · omega
  · omega

section

variable (isOf : IsIterableOf iterable items)

include isOf

lemma at?_outside {index : BitVec 32}
    (outside : ¬ InRange index.toInt items) : at? answer iterable index = .ok none := by
  rcases isOf with ⟨json, isJson, isArray⟩
  rw [inRange_iff, not_and_or, not_not, not_lt] at outside
  have stops : (index.toInt < 0 || (Json.array items).size <= index.toNat : Bool) = true := by
    rw [Bool.or_eq_true, decide_eq_true_iff, decide_eq_true_iff]
    exact outside
  rw [at?, isJson]
  simp only [getJson, bind, Except.bind, isArray, stops]
  rfl

lemma at?_inside {index : BitVec 32} (inside : InRange index.toInt items) :
    ∃ variant, at? answer iterable index = .ok (some variant) := by
  rcases isOf with ⟨json, isJson, isArray⟩
  rcases (inRange_iff index).mp inside with ⟨nonneg, small⟩
  have goesOn : (index.toInt < 0 || (Json.array items).size <= index.toNat : Bool) = false := by
    rw [Bool.or_eq_false_iff, decide_eq_false_iff_not, decide_eq_false_iff_not]
    exact ⟨nonneg, not_le.mpr small⟩
  have isElement : elementAt (.array items) index.toNat = .ok items[index.toNat] := by
    rw [elementAt, List.getElem?_eq_getElem small]
  refine ⟨elementVariant answer iterable items[index.toNat], ?_⟩
  rw [at?, isJson]
  simp only [getJson, bind, Except.bind, isArray, goesOn, isElement]
  rfl

lemma size_ok : ∃ count, size iterable = .ok count := by
  rcases isOf with ⟨json, isJson, _⟩
  rw [size, isJson]
  cases iterable.isCollection with
  | true => exact ⟨_, rfl⟩
  | false => exact ⟨_, rfl⟩

lemma empty_ok : ∃ isEmpty, empty iterable = .ok isEmpty := by
  rcases isOf with ⟨json, isJson, _⟩
  rw [empty, isJson]
  cases iterable.isCollection with
  | true => exact ⟨_, rfl⟩
  | false => exact ⟨_, rfl⟩

end

end

section

variable {answer : RedfishVariant} {object : Payload} (isObject : IsObject object.body)
include isObject

lemma get_ok (expands : Bool) (name : Text) :
    ∃ variant, get answer expands object name = .ok variant := by
  rcases isObject with ⟨members, isJson⟩
  rw [get, isJson]
  cases found : (Json.object members).find name with
  | none => exact ⟨_, by simp only [getJson, bind, Except.bind, found]; rfl⟩
  | some value => exact ⟨_, by simp only [getJson, bind, Except.bind, found]; rfl⟩

lemma getUriString_cases :
    (∃ uri, getUriString object = .ok (some uri) ∧ HasUri object.body) ∨
    (getUriString object = .ok none ∧ UriIsText object.body) ∨
      (getUriString object = .error .typeError ∧ ¬ UriIsText object.body) := by
  rcases isObject with ⟨members, isJson⟩
  rw [getUriString, isJson]
  dsimp only
  cases found : (Json.object members).find (text "@odata.id") with
  | none =>
    refine .inr (.inl ⟨rfl, ?_⟩)
    intro json value same isUri
    cases same
    rw [found] at isUri
    cases isUri
  | some value =>
    cases value with
    | string uri => exact .inl ⟨uri, rfl, _, uri, rfl, found⟩
    | _ =>
      refine .inr (.inr ⟨rfl, ?_⟩)
      intro isText
      rcases isText _ _ rfl found with ⟨uri, same⟩
      cases same

end

lemma HasUri.isText {body : Body} (hasUri : HasUri body) : UriIsText body := by
  rcases hasUri with ⟨json, uri, isJson, found⟩
  intro other value isOther isUri
  rw [isJson] at isOther
  cases isOther
  rw [found] at isUri
  cases isUri
  exact ⟨uri, rfl⟩

/-- `GetValue` returns true only for the type that it reads. -/
lemma kindFits_of_getValue {parseTime : Text -> Bool} {payload : Payload} {kind : ValueKind}
    (read : getValue parseTime payload kind = true) : KindFits payload.body kind := by
  rcases payload with ⟨body, status, isFresh⟩
  cases body with
  | bytes content => cases kind <;> cases read
  | json json =>
    cases json with
    | string value => cases kind with
      | string => exact ⟨value, rfl⟩
      | time => exact ⟨value, rfl⟩
      | _ => cases read
    | boolean value => cases kind with
      | bool => exact ⟨value, rfl⟩
      | _ => cases read
    | integer value => cases kind with
      | int32 => rfl
      | int64 => rfl
      | double => rfl
      | _ => cases read
    | unsigned value => cases kind with
      | int32 => rfl
      | int64 => rfl
      | double => rfl
      | _ => cases read
    | float value => cases kind with
      | int32 => rfl
      | int64 => rfl
      | double => rfl
      | _ => cases read
    | _ => cases kind <;> cases read

/-! ## Steps -/

/-- What a step can do.  Where it is harmless, it reports nothing or it fits the payload. -/
inductive Outcome (view : View) (op : Op) : Except Fault Result -> Prop where
  | nothing (harmless : Harmless view op) : Outcome view op (.ok .nothing)
  | value (fits : Fits view op) : Outcome view op (.ok .value)
  | view {next : View} (fits : Fits view op) (wellFormed : WellFormed next) :
      Outcome view op (.ok (.view next))
  | misread {variant : RedfishVariant} (harmful : ¬ Harmless view op) (unfit : ¬ Fits view op) :
      Outcome view op (.ok (.view (.variant variant)))
  | throws {fault : Fault} (harmful : ¬ Harmless view op) : Outcome view op (.error fault)

lemma harmless_of_fits {view : View} {op : Op} (fits : Fits view op) : Harmless view op := by
  cases view with
  | variant variant =>
    cases op with
    | atIndex index =>
      intro _ payload items isPayload isElements _
      rcases fits with ⟨other, others, isOther, areOthers, inRange⟩
      cases isOther.symm.trans isPayload
      cases areOthers.symm.trans isElements
      exact inRange
    | _ => trivial
  | object object =>
    cases op with
    | getUriString => exact HasUri.isText fits
    | ensureFreshPayload => exact fits.imp_right HasUri.isText
    | _ => trivial
  | iterable iterable => exact trivial

section

variable {parseTime : Text -> Bool} {answer : RedfishVariant}

lemma outcome_atIndex (status : Status) (payload : Option Payload) (index : BitVec 64) :
    Outcome (.variant ⟨status, payload⟩) (.atIndex index)
      (step parseTime answer (.variant ⟨status, payload⟩) (.atIndex index)) := by
  rw [step, atIndex]
  cases isOk : status.isOk with
  | false =>
    refine .nothing ?_
    intro isOk'
    exact absurd (isOk.symm.trans isOk') Bool.false_ne_true
  | true =>
    cases payload with
    | none => exact .nothing (fun _ _ _ missing => nomatch missing)
    | some payload =>
      rcases asIterable_cases payload .allowExpand with
        ⟨noElements, viewed⟩ | ⟨items, iterable, isElements, viewed, isOf⟩
      · simp only [viewed]
        refine .nothing ?_
        intro _ other items isPayload isElements
        cases isPayload
        rw [noElements] at isElements
        cases isElements
      · simp only [viewed, bind, Except.bind]
        by_cases inside : InRange (index.setWidth 32).toInt items
        · rcases @at?_inside answer _ _ isOf _ inside with ⟨next, found⟩
          rw [found]
          by_cases inRange : InRange index.toNat items
          · exact .view ⟨payload, items, rfl, isElements, inRange⟩ trivial
          · refine .misread ?_ ?_
            · intro harmless
              exact inRange (harmless isOk payload items rfl isElements inside)
            · rintro ⟨other, others, isPayload, areOthers, inRange'⟩
              cases isPayload
              cases isElements.symm.trans areOthers
              exact inRange inRange'
        · rw [at?_outside isOf inside]
          refine .nothing ?_
          intro _ other others isPayload areOthers inside'
          cases isPayload
          cases isElements.symm.trans areOthers
          exact absurd inside' inside

lemma outcome_variant (variant : RedfishVariant) (op : Op) :
    Outcome (.variant variant) op (step parseTime answer (.variant variant) op) := by
  rcases variant with ⟨status, payload⟩
  cases op with
  | asObject =>
    rw [step]
    cases found : payload.bind asObject with
    | none => exact .nothing trivial
    | some object =>
      rcases bind_eq_some_iff.mp found with ⟨whole, isWhole, viewed⟩
      rcases asObject_eq_some viewed with ⟨rfl, isObject⟩
      exact .view ⟨_, isWhole, isObject⟩ isObject
  | asIterable mode =>
    cases payload with
    | none => exact .nothing trivial
    | some payload =>
      rw [step]
      rcases asIterable_cases payload mode with ⟨_, viewed⟩ | ⟨items, iterable, some_, viewed, isOf⟩
      · simp only [viewed]
        exact .nothing trivial
      · simp only [viewed]
        exact .view ⟨payload, items, rfl, some_⟩ ⟨items, isOf⟩
  | getValue kind =>
    cases payload with
    | none => exact .nothing trivial
    | some payload =>
      rw [step, any_some]
      cases read : getValue parseTime payload kind with
      | true => exact .value ⟨payload, rfl, kindFits_of_getValue read⟩
      | false => exact .nothing trivial
  | atName expands name =>
    rw [step, atName]
    cases status.isOk with
    | false => exact .nothing trivial
    | true =>
      cases found : payload.bind asObject with
      | none =>
        exact .nothing trivial
      | some object =>
        rcases bind_eq_some_iff.mp found with ⟨whole, isWhole, viewed⟩
        rcases asObject_eq_some viewed with ⟨rfl, isObject⟩
        rcases @get_ok answer _ isObject expands name with ⟨next, got⟩
        simp only [got]
        exact .view ⟨_, isWhole, isObject⟩ trivial
  | atIndex index => exact outcome_atIndex status payload index
  | _ => exact .nothing trivial

lemma outcome_object {object : Payload} (isObject : IsObject object.body) (op : Op) :
    Outcome (.object object) op (step parseTime answer (.object object) op) := by
  cases op with
  | get expands name =>
    rcases @get_ok answer _ isObject expands name with ⟨next, got⟩
    rw [step, got]
    exact .view trivial trivial
  | getUriString =>
    rw [step]
    rcases getUriString_cases isObject with ⟨uri, got, hasUri⟩ | ⟨got, isText⟩ | ⟨got, noText⟩
    · rw [got]
      exact .value hasUri
    · rw [got]
      exact .nothing isText
    · rw [got]
      exact .throws noText
  | ensureFreshPayload =>
    rw [step, ensureFreshPayload]
    cases isFresh : object.isFresh with
    | true => exact .view (.inl isFresh) isObject
    | false =>
      rcases getUriString_cases isObject with ⟨uri, got, hasUri⟩ | ⟨got, isText⟩ | ⟨got, noText⟩
      · simp only [got]
        cases answer.status.isOk with
        | false => exact .nothing (.inr hasUri.isText)
        | true =>
          cases found : answer.payload.bind asObject with
          | none => exact .nothing (.inr hasUri.isText)
          | some fresh =>
            rcases bind_eq_some_iff.mp found with ⟨whole, _, viewed⟩
            rcases asObject_eq_some viewed with ⟨rfl, isFreshObject⟩
            exact .view (.inr hasUri) isFreshObject
      · simp only [got]
        exact .nothing (.inr isText)
      · simp only [got]
        refine .throws (not_or.mpr ⟨?_, noText⟩)
        rw [isFresh]
        exact Bool.false_ne_true
  | property index =>
    rcases isObject with ⟨members, isJson⟩
    rw [step, property, isJson]
    dsimp only
    by_cases inside : index < (Json.object members).items.length
    · rw [List.getElem?_eq_getElem inside]
      exact .view ⟨_, isJson, inside⟩ trivial
    · rw [List.getElem?_eq_none (Nat.le_of_not_lt inside)]
      exact .nothing trivial
  | _ => exact .nothing trivial

lemma outcome_iterable {iterable : RedfishIterable} {items : List Json}
    (isOf : IsIterableOf iterable items) (op : Op) :
    Outcome (.iterable iterable) op (step parseTime answer (.iterable iterable) op) := by
  cases op with
  | size =>
    rcases size_ok isOf with ⟨count, counted⟩
    rw [step, counted]
    exact .value trivial
  | empty =>
    rcases empty_ok isOf with ⟨isEmpty, tested⟩
    rw [step, tested]
    exact .value trivial
  | atInt index =>
    rw [step]
    by_cases inside : InRange index.toInt items
    · rcases @at?_inside answer _ _ isOf _ inside with ⟨next, found⟩
      rw [found]
      exact .view ⟨items, isOf, inside⟩ trivial
    · rw [at?_outside isOf inside]
      exact .nothing trivial
  | _ => exact .nothing trivial

lemma step_outcome {view : View} (wellFormed : WellFormed view) (op : Op) :
    Outcome view op (step parseTime answer view op) := by
  cases view with
  | variant variant => exact outcome_variant variant op
  | object object => exact outcome_object wellFormed op
  | iterable iterable =>
    rcases wellFormed with ⟨items, isOf⟩
    exact outcome_iterable isOf op

lemma proper_iff {view : View} (wellFormed : WellFormed view) (op : Op) :
    Proper parseTime answer view op <-> Harmless view op := by
  have outcome := @step_outcome parseTime answer view wellFormed op
  unfold Proper
  generalize step parseTime answer view op = stepped at outcome ⊢
  cases outcome with
  | nothing harmless => exact iff_of_true ⟨_, rfl, fun _ => rfl⟩ harmless
  | value fits => exact iff_of_true ⟨_, rfl, fun unfit => absurd fits unfit⟩ (harmless_of_fits fits)
  | view fits _ =>
    exact iff_of_true ⟨_, rfl, fun unfit => absurd fits unfit⟩ (harmless_of_fits fits)
  | misread harmful unfit =>
    refine iff_of_false ?_ harmful
    rintro ⟨result, same, reported⟩
    cases same
    cases reported unfit
  | throws harmful =>
    refine iff_of_false ?_ harmful
    rintro ⟨result, impossible, _⟩
    cases impossible

/-- The view that an operation gives is of what it says. -/
lemma wellFormed_next {view next : View} {op : Op} (wellFormed : WellFormed view)
    (stepped : step parseTime answer view op = .ok (.view next)) : WellFormed next := by
  have outcome := @step_outcome parseTime answer view wellFormed op
  rw [stepped] at outcome
  cases outcome with
  | view _ isNext => exact isNext
  | misread _ _ => trivial

end

/-! ## Chains -/

lemma along_iff {parseTime : Text -> Bool} {view : View} (wellFormed : WellFormed view)
    (chain : List (Op × RedfishVariant)) :
    Along parseTime (Proper parseTime) view chain <->
      Along parseTime (fun _ => Harmless) view chain := by
  induction chain generalizing view with
  | nil => exact .rfl
  | cons link rest ih =>
    rcases link with ⟨op, answer⟩
    constructor
    · rintro ⟨proper, later⟩
      refine ⟨(proper_iff wellFormed op).mp proper, ?_⟩
      intro next stepped
      exact (ih (wellFormed_next wellFormed stepped)).mp (later next stepped)
    · rintro ⟨harmless, later⟩
      refine ⟨(proper_iff wellFormed op).mpr harmless, ?_⟩
      intro next stepped
      exact (ih (wellFormed_next wellFormed stepped)).mpr (later next stepped)

/-- Every chain of operations behind a response is proper exactly if none reads a URI that is no
text, and none has an index that only as an `int` is in range. -/
theorem views_proper_iff : ∀ (parseTime : Text -> Bool) (response : RedfishVariant)
    (chain : List (Op × RedfishVariant)),
    Along parseTime (Proper parseTime) (.variant response) chain <->
      Along parseTime (fun _ => Harmless) (.variant response) chain := by
  intro parseTime response chain
  exact @along_iff parseTime (.variant response) trivial chain

/-- A response with a URI that is a number: reading it throws. -/
theorem views_uri_number :
    ¬ (∀ (parseTime : Text -> Bool) (response : RedfishVariant)
      (chain : List (Op × RedfishVariant)),
      Along parseTime (Proper parseTime) (.variant response) chain) := by
  intro always
  have first := always (fun _ => true)
    ⟨.okStatus, some ⟨.json (.object [(text "@odata.id", .integer 5)]), .okStatus, true⟩⟩
    [(.asObject, ⟨.okStatus, none⟩), (.getUriString, ⟨.okStatus, none⟩)]
  rcases (first.2 _ rfl).1 with ⟨result, read, _⟩
  cases read

end Ecclesia.Views
